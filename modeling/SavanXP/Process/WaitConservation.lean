import SavanXP.Process.WaitIdentity

/-!
# Waits conserve signals

The units a slot was given are those it still has, those that were reset or let
go with their object, and those that waits took.  A unit in the log was taken by
a call that returned once, with success, and a successful call took what its
list asks for, so failed, late and parked waits took nothing.  After every event
no parked thread is left whose wait could complete.

A wait for all that lists an object twice is tested for one signal and then
takes it twice; it fails half way and the unit is gone.
-/

namespace SavanXP.Waits

open SavanXP.Library List Function Machine

/-- What a successful call has to take. -/
def Call.owes (call : Call) (res : Int) : List Slot :=
  if call.waitAll then (call.targets.filter Target.consuming).map Target.slot
  else (call.targets[res.toNat]?.toList.filter Target.consuming).map Target.slot

namespace Machine

variable {m t : Machine} {k : Slot} {obj : Object} {i : Nat}

/-- The slots from which a call took units. -/
def takenBy (m : Machine) (call : Nat) : List Slot :=
  (m.taken.filter fun e => e.1 = call).map Prod.snd

/-- How often the log says that a unit of a slot was taken. -/
def takenFrom (m : Machine) (k : Slot) : Nat := (m.taken.map Prod.snd).count k

structure Ledger (m : Machine) : Prop where
  balanced : ∀ k, m.raised k =
    (m.objects k).units + m.dropped k + m.takenFrom k
  paid : ∀ ended ∈ m.returned, 0 ≤ ended.result →
    ∃ call, m.calls[ended.call]? = some call ∧
      m.takenBy ended.call = call.owes ended.result
  takers : ∀ e ∈ m.taken,
    ∃ ended ∈ m.returned, ended.call = e.1 ∧ 0 ≤ ended.result
  known : ∀ ended ∈ m.returned, ended.call < m.calls.length
  once : (m.returned.map Return.call).Nodup
  pending : ∀ i, (m.threads i).parked = true →
    ∀ ended ∈ m.returned, ended.call ≠ (m.threads i).call
  apart : ∀ i o, (m.threads i).parked = true →
    (m.threads o).parked = true →
    (m.threads i).call = (m.threads o).call → i = o
  unrepeated : ∀ i, (m.threads i).parked = true →
    m.Unrepeated (m.threads i)
  inside : ∀ i, (m.threads i).parked = true → i < maxThreads

/-- No parked thread could go on. -/
def Idle (m : Machine) : Prop :=
  ∀ i, (m.threads i).parked = true →
    m.canCompleteObjectWait (m.threads i) = false

/-! ## The log -/

variable {call o : Nat} {spent : List Slot}

theorem takenBy_spend : (m.spend call spent).takenBy o =
      m.takenBy o ++ if call = o then spent else [] := by
  unfold takenBy spend
  rw [filter_append, map_append]
  congr 1
  by_cases same : call = o
  · rw [if_pos same, filter_eq_self.mpr (by simp [same]), map_map]
    exact map_id spent
  · rw [if_neg same, filter_eq_nil_iff.mpr (by simp [same])]
    rfl

theorem takenFrom_spend : (m.spend call spent).takenFrom k = m.takenFrom k + spent.count k := by
  unfold takenFrom spend
  rw [map_append, count_append, map_map]
  exact congrArg (fun slots => _ + count k slots) (map_id spent)

/-- A call that has not returned has taken nothing. -/
theorem Ledger.takenBy_pending (ledger : m.Ledger)
    (pending : ∀ ended ∈ m.returned, ended.call ≠ call) : m.takenBy call = [] := by
  unfold takenBy
  rw [map_eq_nil_iff, filter_eq_nil_iff]
  intro e mem same
  obtain ⟨ended, returned, ofEntry, _⟩ := ledger.takers e mem
  exact pending ended returned (ofEntry.trans (of_decide_eq_true same))

/-- A call that failed has taken nothing. -/
theorem Ledger.takenBy_failed (ledger : m.Ledger) {ended : Return}
    (mem : ended ∈ m.returned) (failed : ended.result < 0) : m.takenBy ended.call = [] := by
  unfold takenBy
  rw [map_eq_nil_iff, filter_eq_nil_iff]
  intro e taken same
  obtain ⟨o, returned, ofEntry, success⟩ := ledger.takers e taken
  have eq : o = ended :=
    inj_on_of_nodup_map ledger.once returned mem
      (ofEntry.trans (of_decide_eq_true same))
  rw [eq] at success
  exact absurd failed (not_lt.mpr success)

/-! ## Changes of objects -/

theorem Ledger.replace (ledger : m.Ledger) (same : m.Recorded k → SameObject obj (m.objects k)) :
    (m.replace k obj).Ledger := by
  refine { ledger with balanced := fun o => ?_, unrepeated := fun i parked every => ?_ }
  · have pre := ledger.balanced o
    by_cases eq : o = k
    · subst eq
      unfold replace
      dsimp only
      rw [update_self, update_self, update_self]
      change _ = _ + _ + m.takenFrom o
      omega
    · unfold Machine.replace
      dsimp only
      rw [update_of_ne eq, update_of_ne eq, update_of_ne eq]
      exact pre
  · have eq : (m.replace k obj).used (m.threads i).waited = m.used (m.threads i).waited := by
      apply filter_congr
      intro o mem
      exact consuming_of_same (replace_same fun eq => same ⟨i, parked, eq ▸ mem⟩)
    rw [replace_threads, eq]
    exact ledger.unrepeated i parked every

/-! ## Serving parked threads -/

theorem units_spend (affords : m.Affords spent) (call : Nat) (k : Slot) :
    ((m.spend call spent).objects k).units + spent.count k = (m.objects k).units := by
  have enough := affords.enough k
  unfold Object.units spend
  cases manual : (m.objects k).manualReset with
  | false =>
    simp only [Bool.false_eq_true, if_false]
    omega
  | true =>
    have absent : k ∉ spent := by
      intro mem
      have consumes := affords.consuming k mem
      simp [consuming, manual] at consumes
    simp [count_eq_zero_of_not_mem absent]

theorem balanced_spend (affords : m.Affords spent) (balanced : ∀ k, m.raised k =
      (m.objects k).units + m.dropped k + m.takenFrom k) : ∀ k, (m.spend call spent).raised k =
      ((m.spend call spent).objects k).units + (m.spend call spent).dropped k +
        (m.spend call spent).takenFrom k := by
  intro k
  have pre := balanced k
  have units := units_spend affords call k
  rw [takenFrom_spend]
  change m.raised k = _ + m.dropped k + _
  omega

variable {th : Thread} {res : Int}

/-- What settling a wait spends is what its call owes. -/
theorem owes_of_settles {call : Call} (follows : m.Follows th call)
    (settles : m.Settles th res spent) : spent = call.owes res := by
  unfold Call.owes
  cases settles with
  | all every _ =>
    rw [if_pos (follows.all ▸ every), used, follows.slots, filter_map]
    congr 1
    apply filter_congr
    intro target inCall
    exact (follows.named target inCall).consuming
  | @any place k one here _ =>
    rw [follows.slots, getElem?_map] at here
    obtain ⟨target, inCall, rfl⟩ := Option.map_eq_some_iff.mp here
    have consumes := (follows.named target (mem_of_getElem? inCall)).consuming
    rw [if_neg (by rw [← follows.all, one]; exact Bool.false_ne_true), Int.toNat_natCast, inCall]
    simp only [used, Option.toList_some, filter_cons, filter_nil, consumes]
    cases target.consuming with
    | false | true => rfl

variable {seen : List Target} {threads : Nat → Thread}

/-- The threads that stay parked are unchanged. -/
theorem Ledger.fewer (ledger : m.Ledger)
    (same : ∀ i, (threads i).parked = true → threads i = m.threads i) :
    Ledger { m with threads := threads } := by
  have pre : ∀ i, (threads i).parked = true → (m.threads i).parked = true := fun i parked =>
    same i parked ▸ parked
  refine { ledger with
    pending := fun i parked => ?_, apart := fun first second parked otherParked together => ?_
    unrepeated := fun i parked => ?_, inside := fun i parked => ledger.inside i (pre i parked) }
  · change ∀ ended ∈ m.returned, ended.call ≠ (threads i).call
    rw [same i parked]
    exact ledger.pending i (pre i parked)
  · change (threads first).call = (threads second).call at together
    rw [same first parked, same second otherParked] at together
    exact ledger.apart first second (pre first parked) (pre second otherParked) together
  · change m.Unrepeated (threads i)
    rw [same i parked]
    exact ledger.unrepeated i (pre i parked)

/-- A call ends: with success after taking what it owes, or with nothing taken. -/
theorem Ledger.finish (ledger : m.Ledger) {number : Nat} (affords : m.Affords spent)
    (known : number < m.calls.length)
    (new : ∀ ended ∈ m.returned, ended.call ≠ number)
    (out : (0 ≤ res ∧ ∃ call, m.calls[number]? = some call ∧
      spent = call.owes res) ∨ res < 0 ∧ spent = [])
    (others : ∀ i, (m.threads i).parked = true → (m.threads i).call ≠ number) :
    Ledger ((m.spend number spent).answer number res seen) where
  balanced := balanced_spend affords ledger.balanced
  paid ended mem success := by
    have log : ∀ call, ((m.spend number spent).answer number res seen).takenBy call =
        m.takenBy call ++ if number = call then spent else [] := fun call => takenBy_spend
    rw [log]
    rcases mem_append.mp mem with pre | last
    · obtain ⟨call, called, took⟩ := ledger.paid ended pre success
      rw [if_neg (new ended pre).symm, append_nil]
      exact ⟨call, called, took⟩
    · rw [mem_singleton] at last
      subst last
      rw [if_pos rfl, ledger.takenBy_pending new, nil_append]
      rcases out with ⟨_, call, called, owed⟩ | ⟨failed, _⟩
      · exact ⟨call, called, owed⟩
      · exact absurd success (not_le.mpr failed)
  takers e mem := by
    rcases mem_append.mp mem with pre | now
    · obtain ⟨ended, returned, ofEntry, success⟩ := ledger.takers e pre
      exact ⟨ended, mem_append_left _ returned, ofEntry, success⟩
    obtain ⟨k, inSpent, rfl⟩ := mem_map.mp now
    rcases out with ⟨success, _⟩ | ⟨_, nothing⟩
    · exact ⟨_, mem_append_right _ (mem_singleton_self _), rfl, success⟩
    · rw [nothing] at inSpent
      cases inSpent
  known := forall_mem_append.mpr ⟨ledger.known, forall_mem_singleton.mpr known⟩
  once := by
    change ((m.returned ++ [_]).map Return.call).Nodup
    rw [map_append, map_singleton, ← concat_eq_append]
    refine ledger.once.concat fun old => ?_
    obtain ⟨ended, mem, same⟩ := mem_map.mp old
    exact new ended mem same
  pending i parked := forall_mem_append.mpr
    ⟨ledger.pending i parked, forall_mem_singleton.mpr (others i parked).symm⟩
  apart := ledger.apart
  unrepeated := ledger.unrepeated
  inside := ledger.inside

/-- A call ends without success. -/
theorem Ledger.fail (ledger : m.Ledger) {number : Nat} (known : number < m.calls.length)
    (new : ∀ ended ∈ m.returned, ended.call ≠ number) (negative : res < 0)
    (others : ∀ i, (m.threads i).parked = true → (m.threads i).call ≠ number) :
    Ledger (m.answer number res seen) := by
  have finished : Ledger ((m.spend number []).answer number res seen) :=
    ledger.finish affords_nil known new (.inr ⟨negative, rfl⟩) others
  rw [spend_nil] at finished
  exact finished

/-- The call of a parked thread is in the log of calls. -/
theorem Tracked.call_known (tracked : m.Tracked) (parked : (m.threads i).parked = true) :
    (m.threads i).call < m.calls.length := by
  obtain ⟨call, called, _⟩ := tracked.parked i parked
  exact (List.getElem?_eq_some_iff.mp called).1


/-- The threads that stay parked when one of them goes on. -/
theorem Ledger.complete_others (ledger : m.Ledger) (parked : (m.threads i).parked = true) :
    ∀ o, (update m.threads i Thread.idle o).parked = true →
      (update m.threads i Thread.idle o).call ≠ (m.threads i).call := by
  intro o otherParked
  obtain ⟨ne, same⟩ := parked_awake otherParked
  rw [same] at otherParked ⊢
  exact fun eq => ne (ledger.apart o i otherParked parked eq)

theorem Ledger.awake (ledger : m.Ledger) (i : Nat) :
    Ledger { m with threads := update m.threads i Thread.idle } :=
  ledger.fewer fun _ parked => (parked_awake parked).2

theorem Serves.ledger (serves : m.Serves i t) (tracked : m.Tracked)
    (ledger : m.Ledger) : t.Ledger := by
  cases serves with
  | idle => exact ledger
  | stuck parked _ repeated => exact absurd (ledger.unrepeated i parked) repeated
  | done parked affords settles =>
    obtain ⟨call, called, follows⟩ := tracked.parked i parked
    exact (ledger.awake i).finish { affords with } (tracked.call_known parked)
      (ledger.pending i parked)
      (.inl ⟨settles.nonneg, call, called, owes_of_settles follows settles⟩)
      (ledger.complete_others parked)

theorem Ledger.expire (ledger : m.Ledger) (tracked : m.Tracked) (now i : Nat) :
    (m.expire now i).Ledger := by
  unfold Machine.expire
  dsimp only
  split
  next late =>
    simp only [Bool.and_eq_true] at late
    have parked := late.1.1
    exact (ledger.awake i).fail (tracked.call_known parked) (ledger.pending i parked) (by decide)
      (ledger.complete_others parked)
  next => exact ledger

/-! ## Nobody is left waiting for what is there -/

/-- What can complete with less can complete with more. -/
theorem canComplete_mono (ready : ∀ k ∈ th.waited, t.targetReady k = true →
      m.targetReady k = true) (can : t.canCompleteObjectWait th = true) :
    m.canCompleteObjectWait th = true := by
  obtain ⟨listed, some_ready⟩ := ready_of_canComplete can
  unfold canCompleteObjectWait
  rw [if_neg listed]
  cases every : th.waitAll with
  | true =>
    simp only [every, if_true] at some_ready
    rw [if_pos rfl, all_eq_true]
    exact fun k mem => ready k mem (some_ready k mem)
  | false =>
    simp only [every, Bool.false_eq_true, if_false] at some_ready
    obtain ⟨k, mem, here⟩ := some_ready
    rw [if_neg Bool.false_ne_true, any_eq_true]
    exact ⟨k, mem, ready k mem here⟩

/-- A parked thread that cannot go on still cannot when less is ready. -/
theorem unable_of_less (unable : m.canCompleteObjectWait th = false)
    (ready : ∀ k ∈ th.waited, t.targetReady k = true → m.targetReady k = true) :
    t.canCompleteObjectWait th = false := by
  cases able : t.canCompleteObjectWait th with
  | false => rfl
  | true =>
    rw [canComplete_mono ready able] at unable
    cases unable

/-- Serving a thread takes care of that thread, and makes no other able to go
on. -/
theorem Serves.unable (serves : m.Serves i t) (ledger : m.Ledger)
    (parked : (t.threads o).parked = true) (pre : o ≠ i → (m.threads o).parked = true →
      m.canCompleteObjectWait (m.threads o) = false) :
    t.canCompleteObjectWait (t.threads o) = false := by
  cases serves with
  | idle unable =>
    by_cases eq : o = i
    · subst eq
      exact Bool.eq_false_of_not_eq_true fun able => unable ⟨parked, able⟩
    · exact pre eq parked
  | stuck wait _ repeated => exact absurd (ledger.unrepeated i wait) repeated
  | done =>
    obtain ⟨ne, same⟩ := completeBlockedWait_parked parked
    rw [same] at parked ⊢
    refine unable_of_less (pre ne parked) fun k _ ready => ?_
    exact targetReady_spend (show (m.spend (m.threads i).call _).targetReady k = true from ready)

/-- The objects of the parked threads and the log are in order. -/
structure Sound (m : Machine) : Prop where
  tracked : m.Tracked
  ledger : m.Ledger

/-- Sound, with nobody able to go on. -/
structure Steady (m : Machine) : Prop extends Sound m where
  idle : m.Idle

theorem Sound.serve (ok : m.Sound) (i : Nat) : (m.serve i).Sound where
  tracked := ok.tracked.serve i
  ledger := (serve_serves i m).ledger ok.tracked ok.ledger

theorem Sound.replace (ok : m.Sound)
    (same : m.Recorded k → SameObject obj (m.objects k)) : (m.replace k obj).Sound :=
  ⟨ok.tracked.replace same, ok.ledger.replace same⟩

/-- The pass through the thread table has come to this slot. -/
def ServedBelow (n : Nat) (m : Machine) : Prop :=
  m.Sound ∧ ∀ i, i < n → (m.threads i).parked = true →
    m.canCompleteObjectWait (m.threads i) = false

theorem ServedBelow.serve (served : ServedBelow i m) : ServedBelow (i + 1) (m.serve i) := by
  refine ⟨served.1.serve i, fun o inside parked => ?_⟩
  refine (serve_serves i m).unable served.1.ledger parked fun ne wait => ?_
  exact served.2 o (lt_of_le_of_ne (Nat.lt_succ_iff.mp inside) ne) wait

theorem Sound.recheck (ok : m.Sound) : m.recheckParkedThreads.Steady := by
  have reached : ServedBelow maxThreads m.recheckParkedThreads :=
    overSlots_reaches (fun _ _ _ served => served.serve)
      ⟨ok, fun i bad => absurd bad (Nat.not_lt_zero i)⟩
  refine ⟨reached.1, fun i parked => ?_⟩
  exact reached.2 i (reached.1.ledger.inside i parked) parked

theorem Sound.expire (ok : m.Sound) (now i : Nat) : (m.expire now i).Sound :=
  ⟨ok.tracked.expire now i, ok.ledger.expire ok.tracked now i⟩

theorem Sound.timeouts (ok : m.Sound) (now : Nat) : (m.wakeWaitTimeouts now).Sound :=
  overSlots_keeps (fun i _ held => held.expire now i) ok

theorem Sound.wake (ok : m.Sound) (waitable : isWaitable k = true) :
    (m.wakeWaitersForObject k).Steady := by
  unfold wakeWaitersForObject
  rw [if_pos waitable]
  refine Sound.recheck (overSlots_keeps (fun i current held => ?_) ok)
  unfold serveWaiterFor
  split
  · exact held.serve i
  · exact held

theorem replace_ready_quieter (quieter : Quieter obj (m.objects k))
    (ready : (m.replace k obj).targetReady k = true) : m.targetReady k = true := by
  cases waitable : isWaitable k with
  | false =>
    rw [targetReady_stream waitable, replace_self] at ready
    rw [targetReady_stream waitable]
    exact quieter.readable ready
  | true =>
    rw [targetReady_waitable waitable, replace_self] at ready
    rw [targetReady_waitable waitable]
    exact quieter.signal ready

theorem Idle.spend (idle : m.Idle) (call : Nat) : (m.spend call spent).Idle :=
  fun i parked => unable_of_less (idle i parked) fun _ _ => targetReady_spend

theorem Idle.complete (idle : m.Idle) : (m.completeBlockedWait i res seen).Idle := by
  intro o parked
  have same := (completeBlockedWait_parked parked).2
  rw [same] at parked ⊢
  exact idle o parked

theorem Idle.replace (idle : m.Idle) (quieter : m.Recorded k → Quieter obj (m.objects k)) :
    (m.replace k obj).Idle := by
  intro i parked
  refine unable_of_less (idle i parked) fun o mem ready => ?_
  by_cases eq : o = k
  · subst eq
    exact replace_ready_quieter (quieter ⟨i, parked, mem⟩) ready
  · unfold targetReady at ready ⊢
    rw [replace_other eq] at ready
    exact ready

theorem steady_invariant : Invariant Steady where
  tracked steady := steady.tracked
  handles handles steady :=
    ⟨⟨tracked_invariant.handles handles steady.tracked, { steady.ledger with }⟩, steady.idle⟩
  births births steady :=
    ⟨⟨tracked_invariant.births births steady.tracked, { steady.ledger with }⟩, steady.idle⟩
  quiet steady quieter :=
    ⟨steady.toSound.replace fun recorded => (quieter recorded).toSameObject,
      steady.idle.replace quieter⟩
  signal steady waitable same := (steady.toSound.replace same).wake waitable
  notice steady same := (steady.toSound.replace same).recheck
  timeouts now steady := (steady.toSound.timeouts now).recheck

/-! ## A wait begins -/

/-- A call is added to the log. -/
theorem Ledger.called (ledger : m.Ledger) {call : Call} :
    Ledger { m with calls := m.calls ++ [call] } :=
  { ledger with
    paid := fun ended mem success => by
      obtain ⟨begun, called, took⟩ := ledger.paid ended mem success
      exact ⟨begun, called_append called, took⟩
    known := fun ended mem => by
      rw [length_append]
      exact Nat.lt_add_right _ (ledger.known ended mem) }

variable {slots : List Slot} {waitAll : Bool}

theorem Ledger.record (ledger : m.Ledger) : (m.record i slots waitAll).Ledger :=
  ledger.called.fewer fun _ parked => record_parked parked

theorem setThread_self : (m.setThread i th).threads i = th := update_self ..

theorem setThread_other (ne : o ≠ i) : (m.setThread i th).threads o = m.threads o :=
  update_of_ne ne ..

/-- A thread parks with a call of its own. -/
theorem Ledger.park (ledger : m.Ledger) (new : ∀ ended ∈ m.returned, ended.call ≠ th.call)
    (others : ∀ o ≠ i, (m.threads o).parked = true → (m.threads o).call ≠ th.call)
    (unrepeated : m.Unrepeated th) (inside : i < maxThreads) : (m.setThread i th).Ledger := by
  refine { ledger with
    pending := (forall_update_iff m.threads fun _ th => th.parked = true →
      ∀ ended ∈ m.returned, ended.call ≠ th.call).mpr ⟨fun _ => new, fun o _ => ledger.pending o⟩
    apart := fun first second parked otherParked together => ?_
    unrepeated := (forall_update_iff m.threads fun _ th => th.parked = true → m.Unrepeated th).mpr
      ⟨fun _ => unrepeated, fun o _ => ledger.unrepeated o⟩
    inside := (forall_update_iff m.threads fun o th => th.parked = true → o < maxThreads).mpr
      ⟨fun _ => inside, fun o _ => ledger.inside o⟩ }
  · by_cases isFirst : first = i
    · by_cases isSecond : second = i
      · exact isFirst.trans isSecond.symm
      exfalso
      rw [setThread_other isSecond] at otherParked together
      rw [isFirst, setThread_self] at together
      exact others second isSecond otherParked together.symm
    · rw [setThread_other isFirst] at parked together
      by_cases isSecond : second = i
      · exfalso
        rw [isSecond, setThread_self] at together
        exact others first isFirst parked together
      · rw [setThread_other isSecond] at otherParked together
        exact ledger.apart first second parked otherParked together

/-- The number of a new call is not in the log of returns. -/
theorem Ledger.new_call (ledger : m.Ledger) : ∀ ended ∈ m.returned, ended.call ≠ m.calls.length :=
  fun ended mem => Nat.ne_of_lt (ledger.known ended mem)

theorem Steady.refuse (steady : m.Steady) {error : Int} (negative : error < 0) :
    (m.refuse waitAll error).Steady := by
  refine ⟨⟨steady.tracked.refuse negative, ?_⟩, steady.idle⟩
  have called : Ledger { m with calls := m.calls ++ [{ targets := [], waitAll := waitAll }] } :=
    steady.ledger.called
  exact called.fail (by simp) steady.ledger.new_call negative
    fun i parked => Nat.ne_of_lt (steady.tracked.call_known parked)

theorem Begins.ledger (begins : m.Begins i slots waitAll t) (ok : m.Sound)
    (live : ∀ k ∈ slots, (m.objects k).inUse = true)
    (unrepeated : m.Unrepeated (m.newRecord slots waitAll))
    (inside : i < maxThreads) : t.Ledger := by
  have recorded : (m.record i slots waitAll).Ledger := ok.ledger.record
  have known : m.calls.length < (m.record i slots waitAll).calls.length := by
    change m.calls.length < (m.calls ++ [_]).length
    simp
  have others : ∀ o, ((m.record i slots waitAll).threads o).parked = true →
      ((m.record i slots waitAll).threads o).call ≠ m.calls.length := by
    intro o parked
    have same := record_parked parked
    rw [same] at parked ⊢
    exact Nat.ne_of_lt (ok.tracked.call_known parked)
  cases begins with
  | stuck _ repeated => exact absurd unrepeated repeated
  | done affords settles =>
    refine recorded.finish ⟨affords.consuming, affords.enough⟩ known ok.ledger.new_call ?_ ?_
    · refine .inl ⟨settles.nonneg, _, getElem?_concat_length, ?_⟩
      exact owes_of_settles (newRecord_follows live) settles
    · exact others
  | late =>
    unfold completeBlockedWait
    rw [record_thread]
    refine (recorded.awake i).fail known ok.ledger.new_call (by decide) fun o parked => ?_
    obtain ⟨_, same⟩ := parked_awake parked
    dsimp only at parked ⊢
    rw [same] at parked ⊢
    exact others o parked
  | parks unable =>
    exact recorded.park ok.ledger.new_call (fun o _ parked => others o parked)
      unrepeated inside

theorem Begins.idle (begins : m.Begins i slots waitAll t) (idle : m.Idle) : t.Idle := by
  have recorded : (m.record i slots waitAll).Idle := by
    intro o parked
    have same := record_parked parked
    rw [same] at parked ⊢
    exact idle o parked
  cases begins with
  | stuck | done => exact recorded.spend m.calls.length
  | late => exact recorded.complete
  | @parks deadline unable =>
    intro o parked
    by_cases eq : o = i
    · subst eq
      rw [setThread_self]
      exact unable
    · rw [setThread_other eq] at parked ⊢
      exact recorded o parked

theorem Steady.wait (steady : m.Steady) (counted : m.Counted) {i p : Nat}
    {fds : List Nat} {timeout : Int} {now : Nat} (inside : i < maxThreads)
    (unrepeated : waitAll = true → ∀ slots, fds.mapM (m.lookupHandle p) = some slots →
      (m.used slots).Nodup) : (m.waitOnManyHandles i p fds waitAll timeout now).Steady := by
  unfold waitOnManyHandles
  split
  next => exact steady.refuse (by decide)
  next =>
    split
    next => exact steady.refuse (by decide)
    next slots found =>
      have begins := beginObjectWait_begins i slots waitAll timeout now m
      have live := counted.targets_live found
      refine ⟨⟨begins.tracked steady.tracked live, ?_⟩, begins.idle steady.idle⟩
      exact begins.ledger steady.toSound live (fun every => unrepeated every slots found) inside

end Machine

open Machine

/-! ## Runs -/

/-- A wait for all lists no object twice that waiting uses up. -/
def Unrepeating (event : Event) (m : Machine) : Prop :=
  match event with
  | .wait _ p fds waitAll _ _ =>
    waitAll = true → ∀ slots, fds.mapM (m.lookupHandle p) = some slots →
      (m.used slots).Nodup
  | _ => True

/-- Each event of a run spares what parked threads wait for, and no wait for all
asks twice for one object that waiting uses up. -/
def FairRun : List Event → Machine → Prop
  | [], _ => True
  | event :: rest, m =>
    Unrepeating event m ∧ m.Spares event ∧ FairRun rest (step event m)

def UnrepeatingRun : List Event → Machine → Prop
  | [], _ => True
  | event :: rest, m => Unrepeating event m ∧ UnrepeatingRun rest (step event m)

theorem fairRun_of_sparing {m : Machine} {events : List Event} (sparing : SparingRun events m)
    (unrepeating : UnrepeatingRun events m) : FairRun events m := by
  induction events generalizing m with
  | nil => trivial
  | cons event rest ih =>
    exact ⟨unrepeating.1, sparing.1, ih sparing.2 unrepeating.2⟩

/-- A run that closes no handle is fair when no wait asks twice for one signal. -/
theorem fairRun_of_noClose {events : List Event}
    (noClose : ∀ event ∈ events, ∀ p fd, event ≠ .close p fd)
    (unrepeating : UnrepeatingRun events fresh) : FairRun events fresh :=
  fairRun_of_sparing
    (sparingRun_of_noClose counted_fresh tracked_fresh (forall_mem_nil _) noClose) unrepeating

theorem step_steady {m : Machine} {event : Event} (counted : m.Counted)
    (steady : m.Steady) (unrepeating : Unrepeating event m)
    (spared : m.Spares event) : (step event m).Steady := by
  refine steady_invariant.step steady spared ?_
  intro i p fds waitAll timeout now eq inside _
  subst eq
  exact steady.wait counted inside unrepeating

theorem run_steady {m : Machine} {events : List Event} (counted : m.Counted)
    (steady : m.Steady) (fair : FairRun events m) : (run events m).Steady := by
  induction events generalizing m with
  | nil => exact steady
  | cons event rest ih =>
    exact ih (step_counted counted event) (step_steady counted steady fair.1 fair.2.1) fair.2.2

theorem steady_fresh : fresh.Steady where
  tracked := tracked_fresh
  ledger := ⟨fun _ => rfl, nofun, nofun, nofun, nodup_nil, nofun, nofun, nofun, nofun⟩
  idle := nofun

/-- In every fair run the units given to a slot are those it has, those that were
reset or went with their object, and those the log says were taken.  Each unit
of the log was taken by exactly one wait that succeeded; a wait that succeeded
took one unit for each such object it had to acquire; a wait that failed, ran
out of time or is parked took none; and no parked thread's wait could complete. -/
theorem waits_conserve_signals (events : List Event) (fair : FairRun events fresh) :
    (∀ slot, (run events fresh).raised slot = ((run events fresh).objects slot).units +
      (run events fresh).dropped slot + (run events fresh).takenFrom slot) ∧
    (∀ entry ∈ (run events fresh).taken,
      ∃! ended, ended ∈ (run events fresh).returned ∧ ended.call = entry.1 ∧ 0 ≤ ended.result) ∧
    (∀ ended ∈ (run events fresh).returned, 0 ≤ ended.result →
      ∃ call, (run events fresh).calls[ended.call]? = some call ∧
        (run events fresh).takenBy ended.call = call.owes ended.result) ∧
    (∀ ended ∈ (run events fresh).returned, ended.result < 0 →
      (run events fresh).takenBy ended.call = []) ∧
    ∀ index, ((run events fresh).threads index).parked = true →
      (run events fresh).takenBy ((run events fresh).threads index).call = [] ∧
      (run events fresh).canCompleteObjectWait ((run events fresh).threads index) = false := by
  have steady := run_steady counted_fresh steady_fresh fair
  have ledger := steady.ledger
  refine ⟨ledger.balanced, ?_, ledger.paid, fun ended => ledger.takenBy_failed, ?_⟩
  · intro entry member
    obtain ⟨ended, returned, ofEntry, success⟩ := ledger.takers entry member
    refine ⟨ended, ⟨returned, ofEntry, success⟩, ?_⟩
    rintro other ⟨otherReturned, otherEntry, _⟩
    exact inj_on_of_nodup_map ledger.once otherReturned returned
      (otherEntry.trans ofEntry.symm)
  · intro index parked
    exact ⟨ledger.takenBy_pending (ledger.pending index parked), steady.idle index parked⟩

theorem waits_conserve_signals_two_events :
    FairRun [.createEvent 0 false true, .createEvent 0 false true,
      .wait 0 0 [0, 1] true (-1) 0] fresh ∧
    (run [.createEvent 0 false true, .createEvent 0 false true,
      .wait 0 0 [0, 1] true (-1) 0] fresh).taken =
      [(0, ⟨.event, 0⟩), (0, ⟨.event, 1⟩)] ∧
    ∀ entry ∈ (run [.createEvent 0 false true, .createEvent 0 false true,
      .wait 0 0 [0, 1] true (-1) 0] fresh).taken,
      ∃! ended, ended ∈ (run [.createEvent 0 false true, .createEvent 0 false true,
        .wait 0 0 [0, 1] true (-1) 0] fresh).returned ∧ ended.call = entry.1 ∧
          0 ≤ ended.result := by
  have fair : FairRun [.createEvent 0 false true, .createEvent 0 false true,
      .wait 0 0 [0, 1] true (-1) 0] fresh := by
    refine ⟨trivial, trivial, trivial, trivial, fun _ slots found => ?_, trivial, trivial⟩
    have both : [0, 1].mapM ((step (.createEvent 0 false true)
        (step (.createEvent 0 false true) fresh)).lookupHandle 0) =
        some [⟨.event, 0⟩, ⟨.event, 1⟩] := by decide +kernel
    obtain rfl := Option.some.inj (both.symm.trans found)
    decide +kernel
  exact ⟨fair, by decide +kernel, (waits_conserve_signals _ fair).2.1⟩

/-- One event, listed twice in a wait for all: the wait fails and the signal is
gone. -/
theorem repeated_event_loses_its_signal :
    (run [.createEvent 0 false true, .wait 0 0 [0, 0] true (-1) 0] fresh).returned.map
      (fun ended => (ended.call, ended.result)) = [(0, invalidArgument)] ∧
    (run [.createEvent 0 false true, .wait 0 0 [0, 0] true (-1) 0] fresh).taken =
      [(0, ⟨.event, 0⟩)] ∧
    ((run [.createEvent 0 false true, .wait 0 0 [0, 0] true (-1) 0] fresh).objects
      ⟨.event, 0⟩).signalCount = 0 := by
  decide +kernel

end SavanXP.Waits
