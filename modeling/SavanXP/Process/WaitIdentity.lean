import SavanXP.Process.WaitReferences

/-!
# A wait is completed by what it named

A parked thread remembers slots.  As long as the objects in them keep a
reference, a slot holds the object that the handle named when the wait began,
and a wait that succeeds finds that same object signalled.  Once the last
reference goes, the slot may hold another object while the thread still waits.
-/

namespace SavanXP.Waits

open SavanXP.Library List Function Machine

namespace Machine

variable {m t : Machine} {k : Slot} {obj : Object} {i : Nat}

/-- The slot holds the object that was looked at. -/
structure Names (m : Machine) (target : Target) : Prop where
  inUse : (m.objects target.slot).inUse = true
  birth : (m.objects target.slot).birth = target.birth
  consuming : m.consuming target.slot = target.consuming

/-- A thread's record is that of a call, and its objects are still there. -/
structure Follows (m : Machine) (th : Thread) (call : Call) : Prop where
  slots : th.waited = call.targets.map Target.slot
  all : th.waitAll = call.waitAll
  named : ∀ target ∈ call.targets, m.Names target

/-- An object of a call was found signalled at the end, and was the same object. -/
def Found (call : Call) (ended : Return) (place : Nat) : Prop :=
  ∃ target seen, call.targets[place]? = some target ∧ ended.seen[place]? = some seen ∧
    seen.slot = target.slot ∧ seen.birth = target.birth ∧ seen.ready = true

/-- What a successful wait answers is true of its objects. -/
inductive Honours (call : Call) (ended : Return) : Prop
  | all (every : call.waitAll = true) (res : ended.result = 0)
      (found : ∀ place, place < call.targets.length → Found call ended place)
  | any {place : Nat} (one : call.waitAll = false) (res : ended.result = place)
      (found : Found call ended place)

structure Tracked (m : Machine) : Prop where
  parked : ∀ i, (m.threads i).parked = true →
    ∃ call, m.calls[(m.threads i).call]? = some call ∧
      m.Follows (m.threads i) call
  ended : ∀ ended ∈ m.returned, 0 ≤ ended.result →
    ∃ call, m.calls[ended.call]? = some call ∧ Honours call ended

/-- A parked thread waits for the slot. -/
def Recorded (m : Machine) (k : Slot) : Prop :=
  ∃ i, (m.threads i).parked = true ∧ k ∈ (m.threads i).waited

/-- The event does not let go the last reference to an object that a parked thread waits for. -/
def Spares (m : Machine) : Event → Prop
  | .close p fd => ∀ k, m.lookupHandle p fd = some k → (m.objects k).refcount ≤ 1 → ¬ m.Recorded k
  | .releaseThread k => (m.objects k).ended = true ∧ (m.objects k).held = true →
    (m.objects k).refcount ≤ 1 → ¬ m.Recorded k
  | _ => True

/-- One object before and after a change of its state. -/
structure SameObject (after old : Object) : Prop where
  inUse : after.inUse = old.inUse
  birth : after.birth = old.birth
  manualReset : after.manualReset = old.manualReset

/-- The change makes no wait possible. -/
structure Quieter (after old : Object) : Prop extends SameObject after old where
  signal : 0 < after.signalCount → 0 < old.signalCount
  readable : after.readable = true → old.readable = true

/-- An invariant that the calls other than waits keep. -/
structure Invariant (holds : Machine → Prop) : Prop where
  tracked : ∀ {m}, holds m → m.Tracked
  handles : ∀ {m : Machine} handles, holds m →
    holds { m with handles := handles }
  births : ∀ {m : Machine} births, holds m → holds { m with births := births }
  quiet : ∀ {m : Machine} {k obj}, holds m →
    (m.Recorded k → Quieter obj (m.objects k)) →
    holds (m.replace k obj)
  signal : ∀ {m : Machine} {k obj}, holds m → isWaitable k = true →
    (m.Recorded k → SameObject obj (m.objects k)) →
    holds ((m.replace k obj).wakeWaitersForObject k)
  notice : ∀ {m : Machine} {k obj}, holds m →
    (m.Recorded k → SameObject obj (m.objects k)) →
    holds (m.replace k obj).recheckParkedThreads
  timeouts : ∀ {m : Machine} now, holds m →
    holds (m.wakeWaitTimeouts now).recheckParkedThreads

namespace Invariant

variable {holds : Machine → Prop}

/-- A slot that is not in use is recorded by nobody. -/
theorem unrecorded (tracked : m.Tracked) (unused : (m.objects k).inUse = false) :
    ¬ m.Recorded k := by
  rintro ⟨i, parked, mem⟩
  obtain ⟨call, _, follows⟩ := tracked.parked i parked
  rw [follows.slots] at mem
  obtain ⟨target, inCall, rfl⟩ := mem_map.mp mem
  rw [(follows.named target inCall).inUse] at unused
  cases unused

section

variable (invariant : Invariant holds) (held : holds m)
include invariant held

theorem quiet_unrecorded (unrecorded : ¬ m.Recorded k) : holds (m.replace k obj) :=
  invariant.quiet held fun recorded => absurd recorded unrecorded

theorem retain : holds (m.retain k) := invariant.quiet held fun _ => ⟨⟨rfl, rfl, rfl⟩, id, id⟩

theorem release (spared : (m.objects k).refcount ≤ 1 → ¬ m.Recorded k) : holds (m.release k) := by
  unfold Machine.release
  dsimp only
  split
  next last => exact invariant.quiet_unrecorded held (spared (by omega))
  next => exact invariant.quiet held fun _ => ⟨⟨rfl, rfl, rfl⟩, id, id⟩

end

variable {p : Nat}

section

variable (invariant : Invariant holds) (held : holds m)
include invariant held

theorem allocateFd (alloc : m.allocateFd p k = some t) : holds t := by
  obtain ⟨fd, _, rfl⟩ := Option.map_eq_some_iff.mp alloc
  exact invariant.handles _ (invariant.retain held)

theorem createHandle (p : Nat)
    (kind : Kind) (obj : Object) : holds (m.createHandle p kind obj) := by
  unfold Machine.createHandle
  split
  next => exact held
  next k found =>
    have fresh := unrecorded (invariant.tracked held) (freeSlot_unused found)
    have made : holds (m.create k obj) := invariant.births _ (invariant.quiet_unrecorded held fresh)
    dsimp only
    split
    next => exact invariant.release made fun _ => fresh
    next t alloc => exact invariant.allocateFd made alloc

theorem duplicate (p fd receiver : Nat) : holds (m.duplicate p fd receiver) := by
  unfold Machine.duplicate
  split
  next => exact held
  next k _ =>
    cases alloc : m.allocateFd receiver k with
    | none => exact held
    | some t => exact invariant.allocateFd held alloc

theorem close {fd : Nat} (spared : m.Spares (.close p fd)) : holds (m.close p fd) := by
  unfold Machine.close
  split
  next => exact held
  next k found => exact invariant.release (invariant.handles _ held) (spared k found)

theorem releaseThread (spared : m.Spares (.releaseThread k)) : holds (m.releaseThread k) := by
  unfold Machine.releaseThread
  dsimp only
  split
  next ended =>
    have letGo : holds (m.replace k { m.objects k with held := false }) :=
      invariant.quiet held fun _ => ⟨⟨rfl, rfl, rfl⟩, id, id⟩
    refine invariant.release letGo fun last => spared ended ?_
    rwa [replace_self] at last
  next => exact held

theorem pollTimers (now : Nat) : holds (m.pollTimers now) := by
  refine overSlots_keeps (fun i current heldNow => ?_) held
  unfold pollTimer
  dsimp only
  split
  next =>
    refine invariant.signal heldNow rfl fun _ => ?_
    unfold fired
    split <;> exact ⟨rfl, rfl, rfl⟩
  next => exact heldNow

theorem setTimer (p fd now due period : Nat) : holds (m.setTimer p fd now due period) := by
  unfold Machine.setTimer
  split
  next => exact held
  next k _ =>
    have armed : holds (m.replace k { m.objects k with
          armed := true, signalCount := 0, due := now + due, period := period }) :=
      invariant.quiet held fun _ =>
        ⟨⟨rfl, rfl, rfl⟩, nofun, id⟩
    split
    · exact invariant.pollTimers armed now
    · exact armed

omit invariant held in
theorem lookupKind_kind {kind : Kind} {fd : Nat}
    (found : m.lookupKind kind p fd = some k) : k.kind = kind := by
  simpa using (Option.filter_eq_some_iff.mp found).2

omit invariant held in
theorem waitable_of_kind {kind : Kind} (same : k.kind = kind) (notStream : kind ≠ .stream) :
    isWaitable k = true := by
  unfold isWaitable
  rw [same]
  exact decide_eq_true notStream

/-- What every call other than a wait keeps, as long as what parked threads wait
for is not let go. -/
theorem step {event : Event} (spared : m.Spares event)
    (waits : ∀ i p fds waitAll timeout now,
      event = .wait i p fds waitAll timeout now → i < maxThreads → (m.threads i).parked = false →
      holds (m.waitOnManyHandles i p fds waitAll timeout now)) : holds (step event m) := by
  cases event with
  | createEvent | createTimer | createThread | createPort | createStream =>
      exact invariant.createHandle held ..
  | createSemaphore p initialCount maxCount =>
    simp only [Waits.step]
    split
    · exact held
    · exact invariant.createHandle held ..
  | setEvent p fd =>
    simp only [Waits.step, setEvent]
    split
    next => exact held
    next k found =>
      have kind := lookupKind_kind found
      exact invariant.signal held (waitable_of_kind kind (by decide)) fun _ => ⟨rfl, rfl, rfl⟩
  | resetEvent p fd =>
    simp only [Waits.step, resetEvent]
    split
    next => exact held
    next =>
      exact invariant.quiet held fun _ => ⟨⟨rfl, rfl, rfl⟩, (absurd · (Nat.lt_irrefl 0)), id⟩
  | setTimer p fd now due period => exact invariant.setTimer held ..
  | cancelTimer p fd =>
    simp only [Waits.step, cancelTimer]
    split
    next => exact held
    next =>
      exact invariant.quiet held fun _ => ⟨⟨rfl, rfl, rfl⟩, (absurd · (Nat.lt_irrefl 0)), id⟩
  | releaseSemaphore p fd n =>
    simp only [Waits.step, releaseSemaphore]
    split
    next => exact held
    next k found =>
      have kind := lookupKind_kind found
      split
      · exact held
      · exact invariant.signal held (waitable_of_kind kind (by decide)) fun _ => ⟨rfl, rfl, rfl⟩
  | connect k =>
    simp only [Waits.step, connect]
    split
    next open_port =>
      exact invariant.signal held (waitable_of_kind open_port.1 (by decide))
        fun _ => ⟨rfl, rfl, rfl⟩
    next => exact held
  | accept p fd =>
    simp only [Waits.step, accept]
    split
    next => exact held
    next =>
      exact invariant.quiet held fun _ =>
        ⟨⟨rfl, rfl, rfl⟩, fun left => lt_of_lt_of_le left (Nat.sub_le _ _), id⟩
  | feed k =>
    simp only [Waits.step, feed]
    split
    · exact invariant.notice held fun _ => ⟨rfl, rfl, rfl⟩
    · exact held
  | drain k =>
    simp only [Waits.step, drain]
    split
    · exact invariant.quiet held fun _ => ⟨⟨rfl, rfl, rfl⟩, id, fun left => by cases left⟩
    · exact held
  | endThread k =>
    simp only [Waits.step, endThread]
    split
    next running =>
      exact invariant.signal held (waitable_of_kind running.1 (by decide))
        fun _ => ⟨rfl, rfl, rfl⟩
    next => exact held
  | releaseThread k => exact invariant.releaseThread held spared
  | duplicate p fd receiver => exact invariant.duplicate held ..
  | close p fd => exact invariant.close held spared
  | tick now => exact invariant.timeouts now (invariant.pollTimers held now)
  | wait i p fds waitAll timeout now =>
    simp only [Waits.step]
    split
    next free =>
      exact waits i p fds waitAll timeout now rfl free.1 (by simpa using free.2)
    next => exact held

end

end Invariant

/-! ## The objects of a parked thread -/

variable {res : Int} {seen : List Target}

/-- A thread that is parked after another went on was parked before. -/
theorem parked_awake {threads : Nat → Thread} {o : Nat}
    (parked : (update threads i Thread.idle o).parked = true) :
    o ≠ i ∧ update threads i Thread.idle o = threads o := by
  by_cases eq : o = i
  · subst eq
    rw [update_self] at parked
    cases parked
  · exact ⟨eq, update_of_ne eq ..⟩

theorem completeBlockedWait_parked {o : Nat}
    (parked : ((m.completeBlockedWait i res seen).threads o).parked = true) :
    o ≠ i ∧ (m.completeBlockedWait i res seen).threads o = m.threads o :=
  parked_awake parked

theorem consuming_of_same (same : SameObject (t.objects k) (m.objects k)) :
    t.consuming k = m.consuming k := by
  unfold consuming
  rw [same.manualReset]

theorem replace_same {o : Slot} (same : o = k → SameObject obj (m.objects k)) :
    SameObject ((m.replace k obj).objects o) (m.objects o) := by
  by_cases eq : o = k
  · subst eq
    rw [replace_self]
    exact same rfl
  · rw [replace_other eq]
    exact ⟨rfl, rfl, rfl⟩

theorem Names.replace {target : Target} (names : m.Names target)
    (same : target.slot = k → SameObject obj (m.objects k)) : (m.replace k obj).Names target := by
  have kept := replace_same same
  exact ⟨kept.inUse.trans names.inUse, kept.birth.trans names.birth,
    (consuming_of_same kept).trans names.consuming⟩

section

variable (tracked : m.Tracked)
include tracked

/-- The parked threads from before find their objects where they were, the new
ones have just looked at theirs, and the new answers are true. -/
theorem Tracked.carry (calls : ∀ {place : Nat} {call : Call},
      m.calls[place]? = some call → t.calls[place]? = some call)
    (threads : ∀ i, (t.threads i).parked = true → t.threads i = m.threads i ∨
        ∃ call, t.calls[(t.threads i).call]? = some call ∧ t.Follows (t.threads i) call)
    (names : ∀ target : Target, m.Recorded target.slot → m.Names target → t.Names target)
    (ended : ∀ ended ∈ t.returned, 0 ≤ ended.result → ended ∈ m.returned ∨
      ∃ call, t.calls[ended.call]? = some call ∧ Honours call ended) : t.Tracked where
  parked i parked := by
    rcases threads i parked with same | new
    · rw [same] at parked ⊢
      obtain ⟨call, called, follows⟩ := tracked.parked i parked
      refine ⟨call, calls called, follows.slots, follows.all, ?_⟩
      intro target inCall
      refine names target ⟨i, parked, ?_⟩ (follows.named target inCall)
      rw [follows.slots]
      exact mem_map_of_mem inCall
    · exact new
  ended ended' mem success := by
    rcases ended ended' mem success with old | new
    · obtain ⟨call, called, honours⟩ := tracked.ended ended' old success
      exact ⟨call, calls called, honours⟩
    · exact new

theorem Tracked.replace (same : m.Recorded k → SameObject obj (m.objects k)) :
    (m.replace k obj).Tracked := by
  refine tracked.carry id (fun _ _ => .inl rfl) ?_ (fun _ mem _ => .inl mem)
  intro target recorded names
  exact names.replace fun eq => same (eq ▸ recorded)

theorem Tracked.spend {call : Nat} {spent : List Slot} : (m.spend call spent).Tracked := by
  refine tracked.carry id (fun _ _ => .inl rfl) ?_ (fun _ mem _ => .inl mem)
  intro target _ names
  exact { names with }

theorem Tracked.answer {call : Nat} (true_answer : 0 ≤ res → ∃ begun, m.calls[call]? = some begun ∧
      Honours begun ⟨call, res, seen⟩) : (m.answer call res seen).Tracked := by
  refine tracked.carry id (fun _ _ => .inl rfl) (fun _ _ names => { names with }) ?_
  intro ended mem success
  rcases mem_append.mp mem with old | new
  · exact .inl old
  · rw [mem_singleton] at new
    subst new
    exact .inr (true_answer success)

/-- The wait of a thread ends with an answer that is true. -/
theorem Tracked.complete (true_answer : 0 ≤ res → ∃ call, m.calls[(m.threads i).call]? = some call ∧
      Honours call ⟨(m.threads i).call, res, seen⟩) : (m.completeBlockedWait i res seen).Tracked :=
  (tracked.answer true_answer).carry id (fun _ parked => .inl (parked_awake parked).2)
    (fun _ _ names => { names with }) (fun _ mem _ => .inl mem)

end

/-- A wait that settles answers truly. -/
theorem honours_of_settles {th : Thread} {call : Call} {spent : List Slot}
    (follows : m.Follows th call) (settles : m.Settles th res spent) :
    Honours call ⟨th.call, res, th.waited.map m.look⟩ := by
  have found : ∀ place target, call.targets[place]? = some target →
      m.targetReady target.slot = true →
      Found call ⟨th.call, res, th.waited.map m.look⟩ place := by
    intro place target here ready
    refine ⟨target, m.look target.slot, here, ?_, rfl, ?_, ready⟩
    · rw [follows.slots]
      simp [here]
    · exact (follows.named target (mem_of_getElem? here)).birth
  cases settles with
  | all every ready =>
    refine .all (follows.all ▸ every) rfl fun place ins => ?_
    refine found place _ (getElem?_eq_getElem ins) (ready _ ?_)
    rw [follows.slots]
    exact mem_map_of_mem (getElem_mem ins)
  | any one here ready =>
    rw [follows.slots, getElem?_map] at here
    obtain ⟨target, inCall, rfl⟩ := Option.map_eq_some_iff.mp here
    exact .any (follows.all ▸ one) rfl (found _ target inCall ready)

theorem Serves.tracked (serves : m.Serves i t) (tracked : m.Tracked) : t.Tracked := by
  cases serves with
  | idle => exact tracked
  | stuck => exact tracked.spend
  | done parked _ settles =>
    refine tracked.spend.complete fun _ => ?_
    obtain ⟨call, called, follows⟩ := tracked.parked i parked
    exact ⟨call, called, honours_of_settles follows settles⟩

/-- A wake of an object's waiters keeps what serving one thread keeps. -/
theorem wake_keeps {holds : Machine → Prop}
    (serve : ∀ i current, holds current → holds (current.serve i)) (held : holds m) (k : Slot) :
    holds (m.wakeWaitersForObject k) := by
  unfold wakeWaitersForObject
  split
  next =>
    refine overSlots_keeps serve (overSlots_keeps (fun i current heldNow => ?_) held)
    unfold serveWaiterFor
    split
    · exact serve i current heldNow
    · exact heldNow
  next => exact held

section

variable (tracked : m.Tracked)
include tracked

theorem Tracked.serve (i : Nat) : (m.serve i).Tracked := (serve_serves i m).tracked tracked

theorem Tracked.recheck : m.recheckParkedThreads.Tracked :=
  overSlots_keeps (fun i _ held => held.serve i) tracked

theorem Tracked.wake (k : Slot) : (m.wakeWaitersForObject k).Tracked :=
  wake_keeps (fun i _ held => held.serve i) tracked k

theorem Tracked.expire (now i : Nat) : (m.expire now i).Tracked := by
  unfold Machine.expire
  dsimp only
  split
  · exact tracked.complete fun success => absurd success (by decide)
  · exact tracked

end

theorem tracked_invariant : Invariant Tracked where
  tracked := id
  handles _ tracked := tracked.carry id (fun _ _ => .inl rfl)
    (fun _ _ names => { names with }) (fun _ mem _ => .inl mem)
  births _ tracked := tracked.carry id (fun _ _ => .inl rfl)
    (fun _ _ names => { names with }) (fun _ mem _ => .inl mem)
  quiet tracked same := tracked.replace fun recorded => (same recorded).toSameObject
  signal tracked _ same := (tracked.replace same).wake _
  notice tracked same := (tracked.replace same).recheck
  timeouts now tracked :=
    Tracked.recheck (overSlots_keeps (fun i _ held => held.expire now i) tracked)

theorem Serves.calls (serves : m.Serves i t) : t.calls = m.calls := by
  cases serves with
  | idle | stuck | done => rfl

/-- Nothing but a wait adds to the calls. -/
theorem calls_invariant (log : List Call) : Invariant fun t => t.Tracked ∧ t.calls = log := by
  have served (i : Nat) (current : Machine) (same : current.calls = log) :
      (current.serve i).calls = log := (serve_serves i current).calls.trans same
  have rechecked {current : Machine} (same : current.calls = log) :
      current.recheckParkedThreads.calls = log :=
    @overSlots_keeps _ _ (fun t : Machine => t.calls = log) _ served _ same
  have expired (now i : Nat) (current : Machine) (same : current.calls = log) :
      (current.expire now i).calls = log := by
    unfold expire
    dsimp only
    split <;> exact same
  exact {
    tracked held := held.1
    handles _ held := ⟨tracked_invariant.handles _ held.1, held.2⟩
    births _ held := ⟨tracked_invariant.births _ held.1, held.2⟩
    quiet held quieter := ⟨tracked_invariant.quiet held.1 quieter, held.2⟩
    signal {m k obj} held waitable same :=
      ⟨tracked_invariant.signal held.1 waitable same,
        @wake_keeps (m.replace k obj) (fun t : Machine => t.calls = log) served held.2 k⟩
    notice held same := ⟨tracked_invariant.notice held.1 same, rechecked held.2⟩
    timeouts now held := ⟨tracked_invariant.timeouts now held.1,
      rechecked
        (@overSlots_keeps _ _ (fun t : Machine => t.calls = log) _ (expired now) _ held.2)⟩ }

/-! ## A wait begins -/

theorem called_append {calls : List Call} {place : Nat} {call new : Call}
    (called : calls[place]? = some call) : (calls ++ [new])[place]? = some call := by
  obtain ⟨ins, _⟩ := List.getElem?_eq_some_iff.mp called
  rw [getElem?_append_left ins, called]

variable {slots : List Slot} {waitAll : Bool}

theorem Tracked.record (tracked : m.Tracked) : (m.record i slots waitAll).Tracked := by
  refine tracked.carry called_append ?_ ?_ (fun _ mem _ => .inl mem)
  · intro o parked
    exact .inl (record_parked parked)
  · intro target _ names
    exact { names with }


theorem Tracked.refuse (tracked : m.Tracked) {error : Int} (negative : error < 0) :
    (m.refuse waitAll error).Tracked := by
  refine Tracked.answer ?_ fun success => absurd success (not_le.mpr negative)
  exact tracked.carry called_append (fun _ _ => .inl rfl)
    (fun _ _ names => { names with }) (fun _ mem _ => .inl mem)

/-- A thread that has just looked at objects in use follows its call. -/
theorem newRecord_follows (live : ∀ k ∈ slots, (m.objects k).inUse = true) :
    m.Follows (m.newRecord slots waitAll) (m.newCall slots waitAll) where
  slots := by
    unfold newRecord newCall
    rw [map_map]
    exact (map_id slots).symm
  all := rfl
  named target mem := by
    obtain ⟨k, inList, rfl⟩ := mem_map.mp mem
    exact ⟨live k inList, rfl, rfl⟩

theorem Begins.calls (begins : m.Begins i slots waitAll t) :
    t.calls = m.calls ++ [m.newCall slots waitAll] := by
  cases begins with
  | stuck | done | late | parks => rfl

theorem Begins.tracked (begins : m.Begins i slots waitAll t)
    (tracked : m.Tracked) (live : ∀ k ∈ slots, (m.objects k).inUse = true) : t.Tracked := by
  have recorded : (m.record i slots waitAll).Tracked := tracked.record
  have follows : m.Follows (m.newRecord slots waitAll)
    (m.newCall slots waitAll) := newRecord_follows live
  cases begins with
  | stuck => exact recorded.spend.answer fun success => absurd success (by decide)
  | done _ settles =>
    exact recorded.spend.answer fun _ =>
      ⟨_, getElem?_concat_length, honours_of_settles follows settles⟩
  | late => exact recorded.complete fun success => absurd success (by decide)
  | @parks deadline unable =>
    refine recorded.carry id ?_ ?_ (fun _ mem _ => .inl mem)
    · intro o parked
      by_cases eq : o = i
      · subst eq
        refine .inr ⟨m.newCall slots waitAll, ?_⟩
        unfold setThread
        dsimp only
        rw [update_self]
        refine ⟨getElem?_concat_length, follows.slots, follows.all, ?_⟩
        intro target inCall
        have names := follows.named target inCall
        exact { names with }
      · exact .inl (update_of_ne eq ..)
    · intro target _ names
      exact { names with }

/-- A handle names the slots that a wait looks at. -/
theorem targets_named {p : Nat} {fds : List Nat}
    (found : fds.mapM (m.lookupHandle p) = some slots) :
    ∀ k ∈ slots, ∃ fd, m.handles p fd = some k := by
  induction fds generalizing slots with
  | nil =>
    simp only [mapM_nil, Option.pure_def, Option.some.injEq] at found
    subst found
    simp
  | cons fd rest ih =>
    simp only [mapM_cons, Option.pure_def, Option.bind_eq_bind, Option.bind_eq_some_iff,
      Option.some.injEq] at found
    obtain ⟨first, named, others, foundRest, rfl⟩ := found
    intro k mem
    cases mem_cons.mp mem with
    | inl eq =>
      subst eq
      exact ⟨fd, lookupHandle_some named⟩
    | inr inRest => exact ih foundRest k inRest

theorem Counted.targets_live (counted : m.Counted) {p : Nat} {fds : List Nat}
    (found : fds.mapM (m.lookupHandle p) = some slots) (k : Slot) (mem : k ∈ slots) :
    (m.objects k).inUse = true := by
  obtain ⟨fd, named⟩ := targets_named found k mem
  exact counted.handle_live named

theorem Tracked.wait (tracked : m.Tracked) (counted : m.Counted)
    (i p : Nat) (fds : List Nat) (waitAll : Bool) (timeout : Int) (now : Nat) :
    (m.waitOnManyHandles i p fds waitAll timeout now).Tracked := by
  unfold waitOnManyHandles
  split
  next => exact tracked.refuse (by decide)
  next =>
    split
    next => exact tracked.refuse (by decide)
    next slots found =>
      exact (beginObjectWait_begins i slots waitAll timeout now m).tracked tracked
        (counted.targets_live found)

end Machine

open Machine

/-! ## Runs -/

variable {m : Machine}

/-- No event of a run lets go the last reference to what a parked thread waits for. -/
def SparingRun : List Event → Machine → Prop
  | [], _ => True
  | event :: rest, m => m.Spares event ∧ SparingRun rest (step event m)

theorem step_tracked {event : Event} (counted : m.Counted)
    (tracked : m.Tracked) (spared : m.Spares event) : (step event m).Tracked :=
  tracked_invariant.step tracked spared
    fun i p fds waitAll timeout now _ _ _ =>
      tracked.wait counted i p fds waitAll timeout now

theorem run_tracked {events : List Event} (counted : m.Counted)
    (tracked : m.Tracked) (sparing : SparingRun events m) : (run events m).Tracked := by
  induction events generalizing m with
  | nil => exact tracked
  | cons event rest ih =>
    exact ih (step_counted counted event) (step_tracked counted tracked sparing.1) sparing.2

theorem tracked_fresh : fresh.Tracked where
  parked _ parked := nomatch parked
  ended _ mem := nomatch mem

/-- Handles name everything that was waited for so far. -/
def Anchored (m : Machine) : Prop :=
  ∀ call ∈ m.calls, ∀ target ∈ call.targets, ∃ p fd, m.handles p fd = some target.slot

theorem Anchored.recorded {k : Slot} (anchored : Anchored m) (tracked : m.Tracked)
    (recorded : m.Recorded k) : ∃ p fd, m.handles p fd = some k := by
  obtain ⟨i, parked, mem⟩ := recorded
  obtain ⟨call, called, follows⟩ := tracked.parked i parked
  rw [follows.slots] at mem
  obtain ⟨target, inCall, rfl⟩ := mem_map.mp mem
  exact anchored call (mem_of_getElem? called) target inCall

/-- A wait adds a call whose objects handles name. -/
theorem wait_calls {i p : Nat} {fds : List Nat} {waitAll : Bool} {timeout : Int}
    {now : Nat} {call : Call}
    (mem : call ∈ (m.waitOnManyHandles i p fds waitAll timeout now).calls) :
    call ∈ m.calls ∨ ∀ target ∈ call.targets, ∃ fd, m.handles p fd = some target.slot := by
  have refused {error : Int} (mem : call ∈ (m.refuse waitAll error).calls) :
      call ∈ m.calls ∨ ∀ target ∈ call.targets, ∃ fd, m.handles p fd = some target.slot := by
    rcases mem_append.mp mem with old | new
    · exact .inl old
    · rw [mem_singleton.mp new]
      exact .inr (forall_mem_nil _)
  unfold waitOnManyHandles at mem
  split at mem
  next => exact refused mem
  next =>
    split at mem
    next => exact refused mem
    next slots found =>
      rw [(beginObjectWait_begins i slots waitAll timeout now m).calls] at mem
      rcases mem_append.mp mem with old | new
      · exact .inl old
      · rw [mem_singleton.mp new]
        refine .inr fun target inCall => ?_
        obtain ⟨k, inSlots, rfl⟩ := mem_map.mp inCall
        exact targets_named found k inSlots

section

variable {m : Machine} {event : Event} (counted : m.Counted) (tracked : m.Tracked)
  (anchored : Anchored m) (noClose : ∀ p fd, event ≠ .close p fd)
include counted tracked anchored noClose

/-- The record of a thread is not the last reference to what a handle names. -/
theorem Anchored.spares : m.Spares event := by
  cases event with
  | close p fd => exact absurd rfl (noClose p fd)
  | releaseThread k =>
    intro ended last recorded
    obtain ⟨p, fd, named⟩ := anchored.recorded tracked recorded
    obtain ⟨refs, namedBy, n⟩ := counted.exact_count k
    have some_handle := length_pos_of_mem ((namedBy.names p fd).mpr named)
    rw [recordRefs, if_pos ended.2] at n
    omega
  | _ => trivial

theorem Anchored.step : Anchored (Waits.step event m) := by
  have spared := anchored.spares counted tracked noClose
  intro call mem target inCall
  have before : call ∈ m.calls ∨ ∃ p, ∀ target ∈ call.targets,
      ∃ fd, m.handles p fd = some target.slot := by
    by_cases waits : ∃ i p fds waitAll timeout now, event = .wait i p fds waitAll timeout now
    · obtain ⟨i, p, fds, waitAll, timeout, now, rfl⟩ := waits
      simp only [Waits.step] at mem
      split at mem
      · exact (wait_calls mem).imp_right fun named => ⟨p, named⟩
      · exact .inl mem
    · have kept := (calls_invariant m.calls).step ⟨tracked, rfl⟩ spared
        fun i p fds waitAll timeout now same =>
          absurd ⟨i, p, fds, waitAll, timeout, now, same⟩ waits
      rw [kept.2] at mem
      exact .inl mem
  rcases before with old | ⟨p, named⟩
  · obtain ⟨p, fd, here⟩ := anchored call old target inCall
    exact ⟨p, fd, step_names here noClose⟩
  · obtain ⟨fd, here⟩ := named target inCall
    exact ⟨p, fd, step_names here noClose⟩

end

/-- A run that closes no handle spares what parked threads wait for. -/
theorem sparingRun_of_noClose {events : List Event} (counted : m.Counted)
    (tracked : m.Tracked) (anchored : Anchored m)
    (noClose : ∀ event ∈ events, ∀ p fd, event ≠ .close p fd) : SparingRun events m := by
  induction events generalizing m with
  | nil => trivial
  | cons event rest ih =>
    have here := noClose event mem_cons_self
    have spared := anchored.spares counted tracked here
    exact ⟨spared, ih (step_counted counted event) (step_tracked counted tracked spared)
      (anchored.step counted tracked here) fun later mem => noClose later (mem_cons_of_mem _ mem)⟩

/-- In a run that spares what parked threads wait for, each slot such a thread
remembers holds the object it held when the wait began, in use.  A successful
wait for any found the object it answers with signalled, or its stream readable,
at its end, and one for all found every object so; each was then the same object
as when the wait began. -/
theorem waits_end_by_what_they_named (events : List Event) (sparing : SparingRun events fresh) :
    (∀ index, ((run events fresh).threads index).parked = true →
      ∃ call, (run events fresh).calls[((run events fresh).threads index).call]? = some call ∧
        ((run events fresh).threads index).waited = call.targets.map Target.slot ∧
        ∀ target ∈ call.targets, ((run events fresh).objects target.slot).inUse = true ∧
          ((run events fresh).objects target.slot).birth = target.birth) ∧
    ∀ ended ∈ (run events fresh).returned, 0 ≤ ended.result →
      ∃ call, (run events fresh).calls[ended.call]? = some call ∧ Honours call ended := by
  have tracked := run_tracked counted_fresh tracked_fresh sparing
  constructor
  · intro index parked
    obtain ⟨call, called, follows⟩ := tracked.parked index parked
    refine ⟨call, called, follows.slots, fun target inCall => ?_⟩
    have names := follows.named target inCall
    exact ⟨names.inUse, names.birth⟩
  · exact tracked.ended

/-- A thread waits for an event, one of its two handles is closed and the other one sets it. -/
def twoHandles : List Event :=
  [.createEvent 0 false false, .duplicate 0 0 1, .wait 0 0 [0] false (-1) 0, .close 0 0,
    .setEvent 1 0]

theorem waits_end_by_what_they_named_two_handles :
    SparingRun twoHandles fresh ∧
    ((run (twoHandles.take 4) fresh).threads 0).parked = true ∧
    (run twoHandles fresh).returned = [⟨0, 0, [⟨⟨.event, 0⟩, 0, true, true⟩]⟩] ∧
    ∀ ended ∈ (run twoHandles fresh).returned, 0 ≤ ended.result →
      ∃ call, (run twoHandles fresh).calls[ended.call]? = some call ∧ Honours call ended := by
  have sparing : SparingRun twoHandles fresh := by
    refine ⟨trivial, trivial, trivial, fun k found last => ?_, trivial, trivial⟩
    -- the other handle still names the event
    have twice : ((run (twoHandles.take 3) fresh).objects ⟨.event, 0⟩).refcount = 2 ∧
        (run (twoHandles.take 3) fresh).lookupHandle 0 0 = some ⟨.event, 0⟩ := by
      decide +kernel
    obtain rfl := Option.some.inj (twice.2.symm.trans found)
    exact absurd (twice.1.symm.trans_le last) (by decide)
  exact ⟨sparing, by decide +kernel, by decide +kernel,
    (waits_end_by_what_they_named twoHandles sparing).2⟩

/-- A thread waits for an event whose last handle its sibling closes; another
process then makes and sets an event of its own in the same slot. -/
theorem closed_event_completes_a_wait :
    ((run [.createEvent 0 false false, .wait 0 0 [0] false (-1) 0, .close 0 0,
        .createEvent 1 false false] fresh).threads 0).parked = true ∧
    ((run [.createEvent 0 false false, .wait 0 0 [0] false (-1) 0, .close 0 0,
        .createEvent 1 false false] fresh).objects ⟨.event, 0⟩).birth = 1 ∧
    (run [.createEvent 0 false false, .wait 0 0 [0] false (-1) 0, .close 0 0,
        .createEvent 1 false false, .setEvent 1 0] fresh).calls.map Call.targets =
      [[⟨⟨.event, 0⟩, 0, true, false⟩]] ∧
    (run [.createEvent 0 false false, .wait 0 0 [0] false (-1) 0, .close 0 0,
        .createEvent 1 false false, .setEvent 1 0] fresh).returned =
      [⟨0, 0, [⟨⟨.event, 0⟩, 1, true, true⟩]⟩] := by
  decide +kernel

end SavanXP.Waits
