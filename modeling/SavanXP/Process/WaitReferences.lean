import SavanXP.Library.Tables
import SavanXP.Process.WaitSpec

/-!
# References to objects

The reference count of an object is the number of handles that name it, and one
more while the record of a thread holds it.  Signals, waits and ticks leave the
references alone; creating, duplicating and closing keep the count exact, so a
handle always names an object in use.
-/

namespace SavanXP.Waits

open SavanXP.Library List Function Machine

namespace Machine

variable {m t : Machine} {k : Slot}

/-- These are the handles that name an object. -/
structure NamedBy (m : Machine) (k : Slot) (refs : List (Nat × Nat)) : Prop where
  nodup : refs.Nodup
  names : ∀ p fd, (p, fd) ∈ refs ↔ m.handles p fd = some k

def recordRefs (obj : Object) : Nat := if obj.held then 1 else 0

structure Counted (m : Machine) : Prop where
  exact_count : ∀ k, ∃ refs, m.NamedBy k refs ∧
    (m.objects k).refcount = refs.length + recordRefs (m.objects k)
  live : ∀ k, 0 < (m.objects k).refcount → (m.objects k).inUse = true

/-- The objects refer to one another's slots as before. -/
structure SameReferences (old after : Machine) : Prop where
  handles : after.handles = old.handles
  refcount : ∀ k, (after.objects k).refcount = (old.objects k).refcount
  held : ∀ k, (after.objects k).held = (old.objects k).held
  inUse : ∀ k, (after.objects k).inUse = (old.objects k).inUse

theorem SameReferences.refl (m : Machine) : SameReferences m m :=
  ⟨rfl, fun _ => rfl, fun _ => rfl, fun _ => rfl⟩

theorem SameReferences.trans {last : Machine} (first : SameReferences m t)
    (second : SameReferences t last) : SameReferences m last where
  handles := second.handles.trans first.handles
  refcount k := (second.refcount k).trans (first.refcount k)
  held k := (second.held k).trans (first.held k)
  inUse k := (second.inUse k).trans (first.inUse k)

theorem SameReferences.counted (same : SameReferences m t) (counted : m.Counted) :
    t.Counted where
  exact_count k := by
    obtain ⟨refs, named, n⟩ := counted.exact_count k
    refine ⟨refs, ⟨named.nodup, ?_⟩, ?_⟩
    · rw [same.handles]
      exact named.names
    · rw [recordRefs, same.held, same.refcount]
      exact n
  live k referenced := by
    rw [same.refcount] at referenced
    rw [same.inUse]
    exact counted.live k referenced

variable {obj : Object}

@[simp] theorem replace_self :
    (m.replace k obj).objects k = obj := update_self ..

theorem replace_other {o : Slot} (ne : o ≠ k) : (m.replace k obj).objects o = m.objects o :=
  update_of_ne ne ..

@[simp] theorem replace_threads :
    (m.replace k obj).threads = m.threads := rfl

/-- An object is changed in what does not concern its references. -/
theorem sameReferences_replace (refcount : obj.refcount = (m.objects k).refcount)
    (held : obj.held = (m.objects k).held)
    (inUse : obj.inUse = (m.objects k).inUse) :
    SameReferences m (m.replace k obj) where
  handles := rfl
  refcount := update_keeps _ refcount
  held := update_keeps _ held
  inUse := update_keeps _ inUse

/-! ## Waking and timers -/

theorem Serves.sameReferences {i : Nat} (serves : m.Serves i t) : SameReferences m t := by
  cases serves with
  | idle => exact .refl m
  | stuck | done => exact ⟨rfl, fun _ => rfl, fun _ => rfl, fun _ => rfl⟩

theorem sameReferences_serve (i : Nat) (m : Machine) : SameReferences m (m.serve i) :=
  (serve_serves i m).sameReferences

theorem sameReferences_pass {round : Nat → Machine → Machine} {n : Nat}
    (each : ∀ i current, SameReferences current (round i current)) (m : Machine) :
    SameReferences m (overSlots round n m) :=
  overSlots_keeps (fun i current same => same.trans (each i current)) (.refl m)

theorem sameReferences_recheck (m : Machine) : SameReferences m m.recheckParkedThreads :=
  sameReferences_pass sameReferences_serve m

theorem sameReferences_serveWaiterFor (k : Slot) (i : Nat) (m : Machine) :
    SameReferences m (m.serveWaiterFor k i) := by
  unfold serveWaiterFor
  split
  · exact sameReferences_serve ..
  · exact .refl m

theorem sameReferences_wake (k : Slot) (m : Machine) :
    SameReferences m (m.wakeWaitersForObject k) := by
  unfold wakeWaitersForObject
  split
  · exact (sameReferences_pass (sameReferences_serveWaiterFor k) m).trans
      (sameReferences_recheck _)
  · exact .refl m

theorem sameReferences_expire (now i : Nat) (m : Machine) : SameReferences m (m.expire now i) := by
  unfold expire
  dsimp only
  split
  · exact ⟨rfl, fun _ => rfl, fun _ => rfl, fun _ => rfl⟩
  · exact .refl m

theorem sameReferences_fired (now : Nat) (m : Machine) (k : Slot) :
    SameReferences m (m.replace k (fired now (m.objects k))) := by
  apply sameReferences_replace
  all_goals
    unfold fired
    split <;> rfl

theorem sameReferences_pollTimer (now i : Nat) (m : Machine) :
    SameReferences m (m.pollTimer now i) := by
  unfold pollTimer
  dsimp only
  split
  · exact (sameReferences_fired now m ⟨.timer, i⟩).trans (sameReferences_wake _ _)
  · exact .refl m

theorem sameReferences_pollTimers (now : Nat) (m : Machine) : SameReferences m (m.pollTimers now) :=
  sameReferences_pass (sameReferences_pollTimer now) m

theorem sameReferences_tick (now : Nat) (m : Machine) : SameReferences m (m.tick now) :=
  ((sameReferences_pollTimers now m).trans
    (sameReferences_pass (sameReferences_expire now) _)).trans (sameReferences_recheck _)

/-! ## Signals -/

theorem sameReferences_setSignal (k : Slot) (n : Nat) (m : Machine) :
    SameReferences m (m.setSignal k n) :=
  sameReferences_replace rfl rfl rfl

theorem sameReferences_signal (k : Slot) (n : Nat) (m : Machine) :
    SameReferences m ((m.setSignal k n).wakeWaitersForObject k) :=
  (sameReferences_setSignal k n m).trans (sameReferences_wake k _)

theorem Begins.sameReferences {i : Nat} {slots : List Slot} {waitAll : Bool}
    (begins : m.Begins i slots waitAll t) : SameReferences m t := by
  cases begins with
  | stuck | done | late | parks => exact ⟨rfl, fun _ => rfl, fun _ => rfl, fun _ => rfl⟩

theorem sameReferences_wait (i p : Nat) (fds : List Nat) (waitAll : Bool) (timeout : Int)
    (now : Nat) (m : Machine) : SameReferences m
      (m.waitOnManyHandles i p fds waitAll timeout now) := by
  unfold waitOnManyHandles
  split
  · exact ⟨rfl, fun _ => rfl, fun _ => rfl, fun _ => rfl⟩
  · split
    · exact ⟨rfl, fun _ => rfl, fun _ => rfl, fun _ => rfl⟩
    · exact (beginObjectWait_begins i _ waitAll timeout now m).sameReferences

/-! ## Handles -/

variable {p fd : Nat} {e : Option Slot}

theorem setHandle_self : (m.setHandle p fd e).handles p fd = e := by
  simp [setHandle]

theorem setHandle_other {process' fd' : Nat} (ne : (process', fd') ≠ (p, fd)) :
    (m.setHandle p fd e).handles process' fd' = m.handles process' fd' := by
  unfold setHandle
  dsimp only
  by_cases same : process' = p
  · subst same
    rw [update_self, update_of_ne fun eq => ne (by rw [eq])]
  · rw [update_of_ne same]

variable {refs : List (Nat × Nat)}

/-- A free entry of a handle table comes to name the slot. -/
theorem NamedBy.install (named : m.NamedBy k refs) (free : m.handles p fd = none) :
    (m.setHandle p fd (some k)).NamedBy k ((p, fd) :: refs) where
  nodup := by
    refine nodup_cons.mpr ⟨fun mem => ?_, named.nodup⟩
    have taken := (named.names p fd).mp mem
    rw [free] at taken
    cases taken
  names process' fd' := by
    by_cases same : (process', fd') = (p, fd)
    · cases same
      simp [setHandle_self]
    rw [setHandle_other same, mem_cons]
    constructor
    · rintro (eq | mem)
      · exact absurd eq same
      · exact (named.names process' fd').mp mem
    · intro here
      exact .inr ((named.names process' fd').mpr here)

/-- An entry that is changed names no other slot before or after. -/
theorem NamedBy.elsewhere (named : m.NamedBy k refs)
    (old : m.handles p fd ≠ some k) (after : e ≠ some k) :
    (m.setHandle p fd e).NamedBy k refs where
  nodup := named.nodup
  names process' fd' := by
    rw [named.names]
    by_cases same : (process', fd') = (p, fd)
    · cases same
      rw [setHandle_self]
      exact ⟨fun here => absurd here old, fun here => absurd here after⟩
    · rw [setHandle_other same]

theorem NamedBy.remove (named : m.NamedBy k refs) :
    (m.setHandle p fd none).NamedBy k (refs.erase (p, fd)) where
  nodup := named.nodup.erase (p, fd)
  names process' fd' := by
    rw [named.nodup.mem_erase_iff, named.names]
    by_cases same : (process', fd') = (p, fd)
    · cases same
      simp [setHandle_self]
    · rw [setHandle_other same]
      exact ⟨And.right, fun here => ⟨same, here⟩⟩

section

variable (counts : ∀ o ≠ k, ∃ refs, m.NamedBy o refs ∧
    (m.objects o).refcount = refs.length + recordRefs (m.objects o))
  (live : ∀ o ≠ k, 0 < (m.objects o).refcount → (m.objects o).inUse = true)
include counts live

/-- What a slot's references look like after its object was changed. -/
theorem counted_replace (named : m.NamedBy k refs)
    (n : obj.refcount = refs.length + recordRefs obj)
    (used : 0 < obj.refcount → obj.inUse = true) : (m.replace k obj).Counted where
  exact_count o := by
    by_cases eq : o = k
    · subst eq
      rw [replace_self]
      exact ⟨refs, ⟨named.nodup, named.names⟩, n⟩
    · obtain ⟨others, namedOther, countOther⟩ := counts o eq
      rw [replace_other eq]
      exact ⟨others, ⟨namedOther.nodup, namedOther.names⟩, countOther⟩
  live := (forall_update_iff _ fun _ (obj : Object) => 0 < obj.refcount → obj.inUse = true).mpr
    ⟨used, live⟩

/-- A reference goes that no handle or record accounts for any more. -/
theorem counted_release (inUse : (m.objects k).inUse = true) (named : m.NamedBy k refs)
    (n : (m.objects k).refcount - 1 = refs.length + recordRefs (m.objects k)) :
    (m.release k).Counted := by
  unfold release
  dsimp only
  split
  next last =>
    have none_left : refs = [] := length_eq_zero_iff.mp (by omega)
    subst none_left
    exact counted_replace counts live named rfl nofun
  next => exact counted_replace counts live named n (fun _ => inUse)

end

theorem Counted.replace (counted : m.Counted) (named : m.NamedBy k refs)
    (n : obj.refcount = refs.length + recordRefs obj)
    (used : 0 < obj.refcount → obj.inUse = true) : (m.replace k obj).Counted :=
  counted_replace (fun o _ => counted.exact_count o) (fun o _ => counted.live o)
    named n used

/-- A slot that is not in use is named by nobody. -/
theorem Counted.unnamed (counted : m.Counted)
    (unused : (m.objects k).inUse = false) : m.NamedBy k [] := by
  obtain ⟨refs, named, n⟩ := counted.exact_count k
  cases refs with
  | nil => exact named
  | cons first rest =>
    exfalso
    rw [length_cons] at n
    have live := counted.live k (by omega)
    rw [unused] at live
    cases live

/-- A handle names an object in use. -/
theorem Counted.handle_live (counted : m.Counted)
    (here : m.handles p fd = some k) : (m.objects k).inUse = true := by
  obtain ⟨refs, named, n⟩ := counted.exact_count k
  apply counted.live
  have pos := length_pos_of_mem ((named.names p fd).mpr here)
  omega

theorem lookupHandle_some (found : m.lookupHandle p fd = some k) : m.handles p fd = some k := by
  unfold lookupHandle at found
  split at found
  · exact found
  · cases found

theorem freeSlot_unused {kind : Kind} (found : m.freeSlot kind = some k) :
    (m.objects k).inUse = false := by
  obtain ⟨i, free, rfl⟩ := Option.map_eq_some_iff.mp found
  exact (firstFree_some free).2

/-- A handle is added, and with it a reference. -/
theorem Counted.allocateFd (counted : m.Counted) (inUse : (m.objects k).inUse = true)
    (alloc : m.allocateFd p k = some t) : t.Counted := by
  obtain ⟨fd, free, rfl⟩ := Option.map_eq_some_iff.mp alloc
  have empty : m.handles p fd = none := by
    simpa using (firstFree_some free).2
  obtain ⟨refs, named, n⟩ := counted.exact_count k
  refine counted_replace ?_ ?_ (named.install empty) ?_ (fun _ => inUse)
  · intro o ne
    obtain ⟨others, namedOther, countOther⟩ := counted.exact_count o
    refine ⟨others, namedOther.elsewhere ?_ ?_, countOther⟩
    · rw [empty]
      simp
    · simpa using ne.symm
  · intro o _
    exact counted.live o
  · have more : (m.objects k).refcount + 1 =
        refs.length + 1 + recordRefs (m.objects k) := by omega
    exact more

section

variable (counted : m.Counted)
include counted

theorem Counted.create (unused : (m.objects k).inUse = false)
    (n : obj.refcount = recordRefs obj) : (m.create k obj).Counted := by
  have replaced : (m.replace k { obj with inUse := true, birth := m.births }).Counted :=
    counted.replace (counted.unnamed unused) (by simpa [recordRefs] using n) (fun _ => rfl)
  refine ⟨fun o => ?_, replaced.live⟩
  obtain ⟨refs, named, exact_count⟩ := replaced.exact_count o
  exact ⟨refs, ⟨named.nodup, named.names⟩, exact_count⟩

omit counted in
theorem create_self : (m.create k obj).objects k =
    { obj with inUse := true, birth := m.births } := replace_self

theorem Counted.createHandle (p : Nat) (kind : Kind) (n : obj.refcount = recordRefs obj) :
    (m.createHandle p kind obj).Counted := by
  unfold Machine.createHandle
  split
  next => exact counted
  next k found =>
    have unused := freeSlot_unused found
    have made := counted.create unused n
    have unnamed := counted.unnamed unused
    dsimp only
    split
    next =>
      have last : ((m.create k obj).objects k).refcount - 1 = 0 := by
        rw [create_self]
        rw [n, recordRefs]
        split <;> rfl
      unfold release
      rw [if_pos last]
      exact made.replace { unnamed with } rfl nofun
    next t alloc => exact made.allocateFd (by rw [create_self]) alloc

theorem Counted.duplicate (p fd receiver : Nat) : (m.duplicate p fd receiver).Counted := by
  unfold Machine.duplicate
  split
  next => exact counted
  next k found =>
    have inUse := counted.handle_live (lookupHandle_some found)
    cases alloc : m.allocateFd receiver k with
    | none => exact counted
    | some t => exact counted.allocateFd inUse alloc

theorem Counted.close (p fd : Nat) : (m.close p fd).Counted := by
  unfold Machine.close
  split
  next => exact counted
  next k found =>
    have here := lookupHandle_some found
    obtain ⟨refs, named, n⟩ := counted.exact_count k
    have mem := (named.names p fd).mpr here
    refine counted_release ?_ ?_ (counted.handle_live here) named.remove ?_
    · intro o ne
      obtain ⟨others, namedOther, countOther⟩ := counted.exact_count o
      refine ⟨others, namedOther.elsewhere ?_ (by simp), countOther⟩
      rw [here]
      simpa using ne.symm
    · intro o _
      exact counted.live o
    · rw [length_erase_of_mem mem]
      have pos := length_pos_of_mem mem
      change (m.objects k).refcount - 1 = _
      change _ = refs.length - 1 + recordRefs (m.objects k)
      omega

theorem Counted.releaseThread (k : Slot) : (m.releaseThread k).Counted := by
  unfold Machine.releaseThread
  dsimp only
  split
  next ended =>
    obtain ⟨refs, named, n⟩ := counted.exact_count k
    have one : recordRefs (m.objects k) = 1 := if_pos ended.2
    have inUse := counted.live k (by omega)
    refine counted_release ?_ ?_ ?_ ⟨named.nodup, named.names⟩ ?_
    · intro o ne
      obtain ⟨others, namedOther, countOther⟩ := counted.exact_count o
      rw [replace_other ne]
      exact ⟨others, ⟨namedOther.nodup, namedOther.names⟩, countOther⟩
    · intro o ne
      rw [replace_other ne]
      exact counted.live o
    · rw [replace_self]
      exact inUse
    · rw [replace_self]
      change (m.objects k).refcount - 1 = refs.length + 0
      omega
  next => exact counted

end

/-! ## Runs -/

theorem sameReferences_setTimer (p fd now due period : Nat) (m : Machine) :
    SameReferences m (m.setTimer p fd now due period) := by
  unfold setTimer
  split
  next => exact .refl m
  next k _ =>
    have armed : SameReferences m (m.replace k { m.objects k with
          armed := true, signalCount := 0, due := now + due, period := period }) :=
      sameReferences_replace rfl rfl rfl
    split
    · exact armed.trans (sameReferences_pollTimers now _)
    · exact armed

end Machine

open Machine

theorem counted_fresh : fresh.Counted where
  exact_count k := ⟨[], ⟨nodup_nil, by simp [fresh]⟩, rfl⟩
  live k referenced := absurd referenced (lt_irrefl 0)

/-- What an event does to the references. -/
inductive Refers (m : Machine) : Event → Prop
  | leaves {event : Event} (same : SameReferences m (step event m)) : Refers m event
  | creates {event : Event} {p : Nat} {kind : Kind} {obj : Object}
      (n : obj.refcount = recordRefs obj) (made : step event m = m.createHandle p kind obj) :
      Refers m event
  | duplicates (p fd receiver : Nat) : Refers m (.duplicate p fd receiver)
  | letsGo (k : Slot) : Refers m (.releaseThread k)
  | closes (p fd : Nat) : Refers m (.close p fd)

theorem step_refers (m : Machine) (event : Event) : Refers m event := by
  cases event with
  | createEvent | createTimer | createThread | createPort | createStream =>
    exact .creates rfl rfl
  | createSemaphore p initialCount maxCount =>
    by_cases refused : maxCount ≤ 0 ∨ initialCount < 0 ∨ maxCount < initialCount
    · refine .leaves ?_
      rw [step, if_pos refused]
      exact .refl m
    · exact .creates rfl (if_neg refused)
  | setEvent p fd =>
    refine .leaves ?_
    simp only [step, setEvent]
    split
    · exact .refl m
    · exact sameReferences_signal _ 1 m
  | resetEvent p fd =>
    refine .leaves ?_
    simp only [step, resetEvent]
    split
    · exact .refl m
    · exact sameReferences_setSignal _ 0 m
  | setTimer p fd now due period =>
    exact .leaves (sameReferences_setTimer p fd now due period m)
  | cancelTimer p fd =>
    refine .leaves ?_
    simp only [step, cancelTimer]
    split
    · exact .refl m
    · exact sameReferences_replace rfl rfl rfl
  | releaseSemaphore p fd n =>
    refine .leaves ?_
    simp only [step, releaseSemaphore]
    split
    · exact .refl m
    · split
      · exact .refl m
      · exact sameReferences_signal _ _ m
  | connect k =>
    refine .leaves ?_
    simp only [step, connect]
    split
    · exact sameReferences_signal k _ m
    · exact .refl m
  | accept p fd =>
    refine .leaves ?_
    simp only [step, accept]
    split
    · exact .refl m
    · exact sameReferences_setSignal _ _ m
  | feed k =>
    refine .leaves ?_
    simp only [step, feed]
    split
    · refine .trans ?_ (sameReferences_recheck _)
      exact sameReferences_replace rfl rfl rfl
    · exact .refl m
  | drain k =>
    refine .leaves ?_
    simp only [step, drain]
    split
    · exact sameReferences_replace rfl rfl rfl
    · exact .refl m
  | endThread k =>
    refine .leaves ?_
    simp only [step, endThread]
    split
    · refine .trans ?_ (sameReferences_wake k _)
      exact sameReferences_replace rfl rfl rfl
    · exact .refl m
  | releaseThread k => exact .letsGo k
  | duplicate p fd receiver => exact .duplicates ..
  | close p fd => exact .closes ..
  | tick now => exact .leaves (sameReferences_tick now m)
  | wait i p fds waitAll timeout now =>
    refine .leaves ?_
    simp only [step]
    split
    · exact sameReferences_wait i p fds waitAll timeout now m
    · exact .refl m

/-- Every call keeps the reference counts exact. -/
theorem step_counted {m : Machine} (counted : m.Counted) (event : Event) :
    (step event m).Counted := by
  cases step_refers m event with
  | leaves same => exact same.counted counted
  | creates n made =>
    rw [made]
    exact counted.createHandle _ _ n
  | duplicates p fd receiver => exact counted.duplicate ..
  | letsGo k => exact counted.releaseThread k
  | closes p fd => exact counted.close ..

/-! ## Without closing -/

section

variable {m t : Machine} {k o : Slot} {p fd : Nat} (named : m.handles p fd = some o)
include named

theorem allocateFd_names {q : Nat} (alloc : m.allocateFd q k = some t) :
    t.handles p fd = some o := by
  obtain ⟨place, free, rfl⟩ := Option.map_eq_some_iff.mp alloc
  have empty : m.handles q place = none := by
    simpa using (firstFree_some free).2
  refine (setHandle_other fun same => ?_).trans named
  obtain ⟨rfl, rfl⟩ := Prod.mk.inj same
  rw [named] at empty
  cases empty

theorem release_names : (m.release k).handles p fd = some o := by
  unfold release
  dsimp only
  split <;> exact named

/-- A handle names its object until it is closed. -/
theorem step_names {event : Event} (noClose : ∀ p fd, event ≠ .close p fd) :
    (step event m).handles p fd = some o := by
  cases step_refers m event with
  | leaves same => rwa [same.handles]
  | @creates _ q kind obj n made =>
    rw [made]
    unfold createHandle
    split
    next => exact named
    next k _ =>
      have inMade : (m.create k obj).handles p fd = some o := named
      dsimp only
      split
      next => exact release_names inMade
      next t alloc => exact allocateFd_names inMade alloc
  | duplicates q place receiver =>
    simp only [step, duplicate]
    split
    next => exact named
    next k _ =>
      cases alloc : m.allocateFd receiver k with
      | none => exact named
      | some t => exact allocateFd_names named alloc
  | letsGo k =>
    simp only [step, releaseThread]
    split
    · exact release_names named
    · exact named
  | closes q place => exact absurd rfl (noClose q place)

end

end SavanXP.Waits
