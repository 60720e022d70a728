import SavanXP.Process.Waits

/-!
# What completing a wait takes

Whatever way a wait is consumed, it spends a list of slots: each of them loses
a signal for every time it is listed, and the log says who took it.  A wait for
any object spends the one it answers with, if that one is used up by waiting.
A wait for all spends every such object of its list or, when an object listed
twice runs out half way, fails and keeps what it took.
-/

namespace SavanXP.Waits

open SavanXP.Library List Function

namespace Machine

/-- A wait takes a signal for each slot of a list. -/
def spend (call : Nat) (slots : List Slot) (m : Machine) : Machine :=
  { m with
    objects := fun k =>
      { m.objects k with
        signalCount := (m.objects k).signalCount - slots.count k }
    taken := m.taken ++ slots.map fun k => (call, k) }

/-- The objects of the list are used up by waiting and have the signals for it. -/
structure Affords (m : Machine) (slots : List Slot) : Prop where
  consuming : ∀ k ∈ slots, m.consuming k = true
  enough : ∀ k, slots.count k ≤ (m.objects k).signalCount

variable {m : Machine} {call : Nat} {k : Slot} {slots : List Slot} {th : Thread}

theorem spend_nil : m.spend call [] = m := by
  unfold spend
  simp

variable {others : List Slot}

theorem spend_spend : (m.spend call slots).spend call others = m.spend call (slots ++ others) := by
  unfold spend
  simp only [count_append, map_append, append_assoc, Nat.sub_sub]

theorem take_eq_spend : m.take call k = m.spend call [k] := by
  have same : update m.objects k
      { m.objects k with signalCount := (m.objects k).signalCount - 1 } =
      fun o => { m.objects o with
        signalCount := (m.objects o).signalCount - [k].count o } := by
    funext o
    by_cases eq : o = k
    · subst eq
      simp
    · rw [update_of_ne eq, count_eq_zero_of_not_mem (by simpa using eq)]
      rfl
  unfold take spend
  rw [same]
  rfl

/-- The part of a list that waiting uses up. -/
def used (m : Machine) (slots : List Slot) : List Slot :=
  slots.filter fun k => m.consuming k

theorem used_cons : m.used (k :: slots) = m.used [k] ++ m.used slots := by
  unfold used
  rw [← filter_append, singleton_append]

theorem used_spend : (m.spend call slots).used others = m.used others := rfl

theorem targetReady_waitable (waitable : isWaitable k = true) :
    m.targetReady k = true ↔ 0 < (m.objects k).signalCount := by
  simp [targetReady, waitable]

theorem targetReady_stream (str : isWaitable k = false) :
    m.targetReady k = (m.objects k).readable := by
  simp [targetReady, str]

/-- Taking signals makes nothing ready. -/
theorem targetReady_spend (ready : (m.spend call slots).targetReady k = true) :
    m.targetReady k = true := by
  cases waitable : isWaitable k with
  | false =>
    rw [targetReady_stream waitable] at ready ⊢
    exact ready
  | true =>
    rw [targetReady_waitable waitable] at ready ⊢
    exact lt_of_lt_of_le ready (Nat.sub_le _ _)

/-- A slot that the list does not hold is as ready as before. -/
theorem targetReady_spend_other (o : k ∉ slots) :
    (m.spend call slots).targetReady k = m.targetReady k := by
  unfold targetReady spend
  simp only [count_eq_zero_of_not_mem o, Nat.sub_zero]

theorem affords_nil : m.Affords [] where
  consuming := by simp
  enough := by simp

theorem affords_used (ready : m.targetReady k = true) :
    m.Affords (m.used [k]) where
  consuming := by
    intro o mem
    exact (mem_filter.mp mem).2
  enough := by
    intro o
    unfold used
    cases consumes : m.consuming k with
    | false => simp [consumes]
    | true =>
      have waitable : isWaitable k = true := by
        exact (Bool.and_eq_true _ _ ▸ consumes).1
      have pos := (targetReady_waitable waitable).mp ready
      by_cases eq : k = o
      · subst eq
        simpa [consumes] using Nat.succ_le_of_lt pos
      · simp [consumes, eq]

/-- Lists that can be spent one after the other can be spent together. -/
theorem Affords.append (first : m.Affords slots)
    (second : (m.spend call slots).Affords others) : m.Affords (slots ++ others) where
  consuming := by
    intro k mem
    cases mem_append.mp mem with
    | inl old => exact first.consuming k old
    | inr after => exact second.consuming k after
  enough := by
    intro k
    have start := first.enough k
    have rest := second.enough k
    simp only [spend, count_append] at rest ⊢
    omega

theorem acquireTarget_ready (ready : m.targetReady k = true) :
    m.acquireTarget call k = some (m.spend call (m.used [k])) := by
  unfold acquireTarget used
  rw [if_pos ready]
  cases consumes : m.consuming k with
  | false => simp [consumes, spend_nil]
  | true => simp [consumes, take_eq_spend]

theorem acquireTarget_idle (idle : m.targetReady k = false) : m.acquireTarget call k = none := by
  simp [acquireTarget, idle]

/-! ## Waits for all -/

/-- Acquiring a list spends part of it: all that waiting uses up, unless an
object runs out. -/
theorem acquireAll_spends (call : Nat) (slots : List Slot) (m : Machine) :
    ∃ spent, (acquireAll call slots m).2 = m.spend call spent ∧ m.Affords spent ∧
      ((acquireAll call slots m).1 = invalidArgument ∨
        (acquireAll call slots m).1 = 0 ∧ spent = m.used slots) := by
  induction slots generalizing m with
  | nil => exact ⟨[], spend_nil.symm, affords_nil, .inr ⟨rfl, rfl⟩⟩
  | cons k rest ih =>
    cases ready : m.targetReady k with
    | false =>
      refine ⟨[], ?_, affords_nil, .inl ?_⟩
      · simp [acquireAll, acquireTarget_idle ready, spend_nil]
      · simp [acquireAll, acquireTarget_idle ready]
    | true =>
      obtain ⟨spent, t, affords, out⟩ := ih (m.spend call (m.used [k]))
      rw [acquireAll, acquireTarget_ready ready]
      refine ⟨m.used [k] ++ spent, ?_, (affords_used ready).append affords, ?_⟩
      · rw [t, spend_spend]
      rcases out with failed | ⟨succeeded, whole⟩
      · exact .inl failed
      · refine .inr ⟨succeeded, ?_⟩
        rw [whole, used_spend, ← used_cons]

/-- A list that names no such object twice is acquired whole. -/
theorem acquireAll_succeeds (ready : ∀ k ∈ slots, m.targetReady k = true)
    (distinct : (m.used slots).Nodup) : (acquireAll call slots m).1 = 0 := by
  induction slots generalizing m with
  | nil => rfl
  | cons k rest ih =>
    rw [used_cons] at distinct
    obtain ⟨_, restDistinct, apart⟩ := nodup_append.mp distinct
    rw [acquireAll, acquireTarget_ready (ready k mem_cons_self)]
    apply ih
    · intro o mem
      have old := ready o (mem_cons_of_mem k mem)
      rw [targetReady_spend_other, old]
      intro spent
      obtain ⟨_, consumes⟩ := mem_filter.mp spent
      exact apart o spent o (mem_filter.mpr ⟨mem, consumes⟩) rfl
    · exact restDistinct

/-! ## Waits for any -/

theorem acquireAny_spends (call i : Nat) (slots : List Slot) (m : Machine)
    (some_ready : ∃ k ∈ slots, m.targetReady k = true) :
    ∃ place k, slots[place]? = some k ∧ m.targetReady k = true ∧
      acquireAny call i slots m = (((i + place : Nat) : Int), m.spend call (m.used [k])) := by
  induction slots generalizing i with
  | nil =>
    obtain ⟨k, mem, _⟩ := some_ready
    cases mem
  | cons first rest ih =>
    cases ready : m.targetReady first with
    | true =>
      refine ⟨0, first, rfl, ready, ?_⟩
      simp only [acquireAny, acquireTarget_ready ready, Nat.add_zero]
    | false =>
      have t : ∃ k ∈ rest, m.targetReady k = true := by
        obtain ⟨k, mem, readySlot⟩ := some_ready
        cases mem_cons.mp mem with
        | inl eq =>
          rw [eq, ready] at readySlot
          cases readySlot
        | inr inRest => exact ⟨k, inRest, readySlot⟩
      obtain ⟨place, k, here, readySlot, res⟩ := ih (i + 1) t
      refine ⟨place + 1, k, here, readySlot, ?_⟩
      rw [acquireAny, acquireTarget_idle ready]
      rw [res, Nat.add_right_comm, Nat.add_assoc]

/-! ## The whole wait -/

/-- A wait answers this and spends these slots. -/
inductive Settles (m : Machine) (th : Thread) : Int → List Slot → Prop
  | all (every : th.waitAll = true)
      (ready : ∀ k ∈ th.waited, m.targetReady k = true) :
      Settles m th 0 (m.used th.waited)
  | any {place : Nat} {k : Slot} (one : th.waitAll = false)
      (here : th.waited[place]? = some k) (ready : m.targetReady k = true) :
      Settles m th place (m.used [k])

theorem Settles.nonneg {res : Int} (settles : m.Settles th res slots) : 0 ≤ res := by
  cases settles with
  | all => exact le_rfl
  | any => exact Int.natCast_nonneg _

/-- What can be said of a wait that can complete. -/
theorem ready_of_canComplete (can : m.canCompleteObjectWait th = true) : th.waited ≠ [] ∧
      if th.waitAll then ∀ k ∈ th.waited, m.targetReady k = true
      else ∃ k ∈ th.waited, m.targetReady k = true := by
  unfold canCompleteObjectWait at can
  by_cases empty : th.waited = []
  · simp [empty] at can
  refine ⟨empty, ?_⟩
  rw [if_neg empty] at can
  cases every : th.waitAll with
  | true | false => simpa [every] using can

/-- Consuming a wait that can complete settles it, or is a wait for all that
ran out half way. -/
theorem consume_spends (can : m.canCompleteObjectWait th = true) :
    ∃ spent, (m.consumeObjectWait th).2 = m.spend th.call spent ∧ m.Affords spent ∧
      (th.waitAll = true ∧ (m.consumeObjectWait th).1 = invalidArgument ∨
        m.Settles th (m.consumeObjectWait th).1 spent) := by
  obtain ⟨listed, ready⟩ := ready_of_canComplete can
  cases every : th.waitAll with
  | true =>
    simp only [every, if_true] at ready
    have form : m.consumeObjectWait th = acquireAll th.call th.waited m := by
      simp [consumeObjectWait, listed, every]
    rw [form]
    obtain ⟨spent, t, affords, out⟩ := acquireAll_spends th.call th.waited m
    refine ⟨spent, t, affords, ?_⟩
    rcases out with failed | ⟨succeeded, whole⟩
    · exact .inl ⟨rfl, failed⟩
    · rw [succeeded, whole]
      exact .inr (.all every ready)
  | false =>
    simp only [every, Bool.false_eq_true, if_false] at ready
    have form : m.consumeObjectWait th = acquireAny th.call 0 th.waited m := by
      simp [consumeObjectWait, listed, every]
    rw [form]
    obtain ⟨place, k, here, readySlot, res⟩ := acquireAny_spends th.call 0 th.waited m ready
    rw [res, Nat.zero_add]
    exact ⟨m.used [k], rfl, affords_used readySlot, .inr (.any every here readySlot)⟩

/-- A wait for all that names no object twice that waiting uses up. -/
def Unrepeated (m : Machine) (th : Thread) : Prop :=
  th.waitAll = true → (m.used th.waited).Nodup

theorem consume_settles (can : m.canCompleteObjectWait th = true) (unrepeated : m.Unrepeated th) :
    ∃ spent, (m.consumeObjectWait th).2 = m.spend th.call spent ∧ m.Affords spent ∧
      m.Settles th (m.consumeObjectWait th).1 spent := by
  obtain ⟨spent, t, affords, out⟩ := consume_spends can
  refine ⟨spent, t, affords, ?_⟩
  rcases out with ⟨every, failed⟩ | settles
  · exfalso
    obtain ⟨listed, ready⟩ := ready_of_canComplete can
    rw [if_pos every] at ready
    have form : m.consumeObjectWait th = acquireAll th.call th.waited m := by
      simp [consumeObjectWait, listed, every]
    rw [form, acquireAll_succeeds ready (unrepeated every)] at failed
    cases failed
  · exact settles

/-! ## Serving a parked thread -/

/-- What looking at one parked thread can do. -/
inductive Serves (m : Machine) (i : Nat) : Machine → Prop
  | idle (unable : ¬ ((m.threads i).parked = true ∧ m.canCompleteObjectWait (m.threads i) = true)) :
      Serves m i m
  | stuck {spent : List Slot} (parked : (m.threads i).parked = true)
      (affords : m.Affords spent)
      (repeated : ¬ m.Unrepeated (m.threads i)) :
      Serves m i (m.spend (m.threads i).call spent)
  | done {spent : List Slot} {res : Int} (parked : (m.threads i).parked = true)
      (affords : m.Affords spent)
      (settles : m.Settles (m.threads i) res spent) :
      Serves m i
        ((m.spend (m.threads i).call spent).completeBlockedWait i res
          ((m.threads i).waited.map m.look))

theorem serve_serves (i : Nat) (m : Machine) : m.Serves i (m.serve i) := by
  unfold serve
  by_cases able : (m.threads i).parked = true ∧ m.canCompleteObjectWait (m.threads i) = true
  · obtain ⟨parked, can⟩ := able
    rw [if_pos (by rw [parked, can]; rfl)]
    by_cases unrepeated : m.Unrepeated (m.threads i)
    · obtain ⟨spent, t, affords, settles⟩ := consume_settles can unrepeated
      rw [if_neg (not_lt.mpr settles.nonneg), t]
      exact .done parked affords settles
    · obtain ⟨spent, t, affords, out⟩ := consume_spends can
      rcases out with ⟨_, failed⟩ | settles
      · rw [if_pos (by rw [failed]; decide), t]
        exact .stuck parked affords unrepeated
      · rw [if_neg (not_lt.mpr settles.nonneg), t]
        exact .done parked affords settles
  · rw [if_neg (by simpa using able)]
    exact .idle able

/-! ## A wait begins -/

variable {i : Nat} {waitAll : Bool}

theorem record_thread : (m.record i slots waitAll).threads i = m.newRecord slots waitAll :=
  update_self ..

theorem record_other {o : Nat} (ne : o ≠ i) : (m.record i slots waitAll).threads o = m.threads o :=
  update_of_ne ne ..

/-- The thread that records a wait is not parked yet. -/
theorem record_parked {o : Nat} (parked : ((m.record i slots waitAll).threads o).parked = true) :
    (m.record i slots waitAll).threads o = m.threads o := by
  by_cases eq : o = i
  · subst eq
    rw [record_thread] at parked
    cases parked
  · exact record_other eq

/-- How a wait that names objects can begin. -/
inductive Begins (m : Machine) (i : Nat) (slots : List Slot) (waitAll : Bool) :
    Machine → Prop
  | stuck {spent : List Slot} (affords : m.Affords spent)
      (repeated : ¬ m.Unrepeated (m.newRecord slots waitAll)) :
      Begins m i slots waitAll
        (((m.record i slots waitAll).spend m.calls.length spent).answer
          m.calls.length invalidArgument (slots.map m.look))
  | done {spent : List Slot} {res : Int} (affords : m.Affords spent)
      (settles : m.Settles (m.newRecord slots waitAll) res spent) :
      Begins m i slots waitAll
        (((m.record i slots waitAll).spend m.calls.length spent).answer
          m.calls.length res (slots.map m.look))
  | late : Begins m i slots waitAll
      ((m.record i slots waitAll).completeBlockedWait i timedOut (slots.map m.look))
  | parks {deadline : Nat}
      (unable : m.canCompleteObjectWait (m.newRecord slots waitAll) = false) :
      Begins m i slots waitAll
        ((m.record i slots waitAll).setThread i
          { m.newRecord slots waitAll with parked := true, deadline := deadline })

/-- Recording a wait changes no object. -/
theorem record_affords {spent : List Slot}
    (affords : (m.record i slots waitAll).Affords spent) : m.Affords spent :=
  ⟨affords.consuming, affords.enough⟩

theorem record_settles {res : Int} {spent : List Slot}
    (settles : (m.record i slots waitAll).Settles th res spent) : m.Settles th res spent := by
  cases settles with
  | all every ready => exact .all every ready
  | any one here ready => exact .any one here ready

theorem beginObjectWait_begins (i : Nat) (slots : List Slot) (waitAll : Bool) (timeout : Int)
    (now : Nat) (m : Machine) : m.Begins i slots waitAll
      (m.beginObjectWait i slots waitAll timeout now) := by
  unfold beginObjectWait
  dsimp only
  rw [record_thread]
  split
  next can =>
    by_cases unrepeated : m.Unrepeated (m.newRecord slots waitAll)
    · obtain ⟨spent, t, affords, settles⟩ := consume_settles can unrepeated
      rw [t]
      exact .done (record_affords affords) (record_settles settles)
    · obtain ⟨spent, t, affords, out⟩ := consume_spends can
      rw [t]
      rcases out with ⟨_, failed⟩ | settles
      · rw [failed]
        exact .stuck (record_affords affords) unrepeated
      · exact .done (record_affords affords) (record_settles settles)
  next unable =>
    split
    next => exact .late
    next => exact .parks (Bool.eq_false_of_not_eq_true unable)

end Machine

end SavanXP.Waits
