import Mathlib
import SavanXP.Library.Action

/-!
# Fallible computations

A computation changes a state and either gives a value or fails, and a failure
keeps the state it happened in.  The weakest precondition of a computation has
one condition for each way out.
-/

namespace SavanXP.Library

def Fallible (σ α : Type) : Type := σ → Option α × σ

namespace Fallible

variable {σ α β : Type}

def give (v : α) : Fallible σ α := fun s => (some v, s)

def andThen (first : Fallible σ α) (next : α → Fallible σ β) : Fallible σ β :=
  fun s =>
    match first s with
    | (none, s) => (none, s)
    | (some v, s) => next v s

instance : Monad (Fallible σ) where
  pure := give
  bind := andThen

def fail : Fallible σ α := fun s => (none, s)

def require (condition : Bool) : Fallible σ Unit :=
  fun s => (if condition then some () else none, s)

def ofOption (v : Option α) : Fallible σ α := fun s => (v, s)

def get : Fallible σ σ := fun s => (some s, s)

def update (change : σ → σ) : Fallible σ Unit := fun s => (some (), change s)

/-- Run an action; its answer `false` is a failure. -/
def perform (action : Action σ) : Fallible σ Unit :=
  fun s =>
    match action s with
    | (true, s) => (some (), s)
    | (false, s) => (none, s)

variable {t : σ} {v : α} {next : α → Fallible σ β}

theorem bind_some {first : Fallible σ α} {s : σ}
    (ran : first s = (some v, t)) : (first >>= next) s = next v t := by
  change andThen first next s = _
  rw [andThen, ran]

theorem bind_none {first : Fallible σ α} {s : σ}
    (ran : first s = (none, t)) : (first >>= next) s = (none, t) := by
  change andThen first next s = _
  rw [andThen, ran]

/-! ## Weakest preconditions -/

/-- From `s` the computation leads to `post` when it gives a value and to
`fails` when it does not. -/
def wp (comp : Fallible σ α) (post : α → σ → Prop) (fails : σ → Prop) (s : σ) : Prop :=
  match comp s with
  | (some v, t) => post v t
  | (none, t) => fails t

variable {post : α → σ → Prop} {fails : σ → Prop} {s : σ}

@[simp]
theorem wp_pure (v : α) : wp (pure v) post fails s ↔ post v s := Iff.rfl

@[simp]
theorem wp_get {post : σ → σ → Prop} : wp get post fails s ↔ post s s := Iff.rfl

@[simp]
theorem wp_update {post : Unit → σ → Prop} (change : σ → σ) :
    wp (update change) post fails s ↔ post () (change s) := Iff.rfl

@[simp]
theorem wp_bind {post : β → σ → Prop} (first : Fallible σ α) (next : α → Fallible σ β) :
    wp (first >>= next) post fails s ↔ wp first (fun v => wp (next v) post fails) fails s := by
  unfold wp
  cases result : first s with
  | mk outcome t =>
    cases outcome with
    | none => rw [bind_none result]
    | some v => rw [bind_some result]

@[simp]
theorem wp_require {post : Unit → σ → Prop} (condition : Bool) :
    wp (require condition) post fails s ↔
      (condition = true → post () s) ∧ (condition = false → fails s) := by
  cases condition <;> simp [wp, require]

variable {comp : Fallible σ α}

@[simp]
theorem wp_ofOption (option : Option α) : wp (ofOption option) post fails s ↔
      (∀ v, option = some v → post v s) ∧ (option = none → fails s) := by
  cases option <;> simp [wp, ofOption]

theorem wp.mono {weaker : α → σ → Prop} {weakerFails : σ → Prop}
    (held : wp comp post fails s) (after : ∀ v t, post v t → weaker v t)
    (failed : ∀ t, fails t → weakerFails t) : wp comp weaker weakerFails s := by
  unfold wp at held ⊢
  split
  · next v t ran => rw [ran] at held; exact after v t held
  · next t ran => rw [ran] at held; exact failed t held

theorem wp.imp {weaker : α → σ → Prop} (held : wp comp post fails s)
    (after : ∀ v t, post v t → weaker v t) : wp comp weaker fails s :=
  held.mono after fun _ failed => failed

theorem wp.and {other : α → σ → Prop}
    (one : wp comp post fails s) (two : wp comp other fails s) :
    wp comp (fun v t => post v t ∧ other v t) fails s := by
  cases ran : comp s with
  | mk outcome t =>
    rw [wp, ran] at one two ⊢
    cases outcome with
    | none => exact one
    | some v => exact ⟨one, two⟩

theorem wp.result (held : wp comp post fails s)
    (ran : comp s = (some v, t)) : post v t := by
  rw [wp, ran] at held
  exact held

/-- A computation that cannot fail gives a value. -/
theorem wp.gives (held : wp comp post (fun _ => False) s) :
    ∃ v t, comp s = (some v, t) ∧ post v t := by
  cases ran : comp s with
  | mk outcome t =>
    rw [wp, ran] at held
    cases outcome with
    | none => exact absurd held id
    | some v => exact ⟨v, t, rfl, held⟩

/-- A computation that cannot give a value fails. -/
theorem wp.stops (held : wp comp (fun _ _ => False) fails s) :
    ∃ t, comp s = (none, t) ∧ fails t := by
  cases ran : comp s with
  | mk outcome t =>
    rw [wp, ran] at held
    cases outcome with
    | none => exact ⟨t, rfl, held⟩
    | some v => exact absurd held id


theorem wp_of_some (ran : comp s = (some v, t))
    (held : post v t) : wp comp post fails s := by
  rw [wp, ran]
  exact held

/-! ## Relations along a computation -/

/-- Whatever comes of it, the computation moves the state along the relation. -/
def Along (relation : σ → σ → Prop) (comp : Fallible σ α) : Prop :=
  ∀ s, relation s (comp s).2

namespace Along

variable {relation wider : σ → σ → Prop} {comp : Fallible σ α}

theorem mono (along : Along relation comp)
    (weaker : ∀ s t, relation s t → wider s t) : Along wider comp :=
  fun s => weaker _ _ (along s)

theorem update {change : σ → σ} (each : ∀ s, relation s (change s)) :
    Along relation (update change) := each

theorem wp (along : Along relation comp) (s : σ) :
    wp comp (fun _ => relation s) (relation s) s := by
  have step := along s
  unfold Fallible.wp
  split
  · next v t ran => rwa [ran] at step
  · next t ran => rwa [ran] at step

theorem of_wp (each : ∀ s, Fallible.wp comp (fun _ => relation s) (relation s) s) :
    Along relation comp := by
  intro s
  have held := each s
  unfold Fallible.wp at held
  split at held
  · next v t ran => rwa [ran]
  · next t ran => rwa [ran]

theorem perform {action : Action σ} (each : ∀ s, relation s (action s).2) :
    Along relation (perform action) := by
  intro s
  have step := each s
  unfold Fallible.perform
  split
  · next t ran => rwa [ran] at step
  · next t ran => rwa [ran] at step

variable [IsPreorder σ relation]

/-- A computation that leaves the state alone. -/
theorem idle (same : ∀ s, (comp s).2 = s) : Along relation comp :=
  fun s => (same s).symm ▸ Std.Refl.refl s

theorem pure (v : α) : Along relation (Pure.pure v : Fallible σ α) := idle fun _ => rfl

theorem fail : Along relation (Fallible.fail : Fallible σ α) := idle fun _ => rfl

theorem get : Along relation (Fallible.get : Fallible σ σ) := idle fun _ => rfl

theorem require (condition : Bool) :
    Along relation (Fallible.require condition : Fallible σ Unit) :=
  idle fun _ => rfl

theorem ofOption (option : Option α) : Along relation (Fallible.ofOption option : Fallible σ α) :=
  idle fun _ => rfl

theorem bind (first : Along relation comp)
    (rest : ∀ v, Along relation (next v)) : Along relation (comp >>= next) := by
  intro s
  have step := first s
  cases ran : comp s with
  | mk outcome t =>
    rw [ran] at step
    cases outcome with
    | none => rwa [bind_none ran]
    | some v =>
      rw [bind_some ran]
      exact IsTrans.trans _ _ _ step (rest v t)

/-- What follows an optional value may use where it comes from. -/
theorem ofOption_bind {option : Option α} (rest : ∀ v, option = some v → Along relation (next v)) :
    Along relation (Fallible.ofOption option >>= next) := by
  cases option with
  | none => exact idle fun _ => rfl
  | some v => exact rest v rfl

theorem foldlM {ι : Type} {round : β → ι → Fallible σ β}
    (each : ∀ v item, Along relation (round v item)) (items : List ι) (v : β) :
    Along relation (items.foldlM round v) := by
  induction items generalizing v with
  | nil => exact pure v
  | cons item rest ih =>
    exact (each v item).bind ih

end Along

/-! ## Passes over a table -/

/-- One round for each of the slots below `n`, in order. -/
def forSlots : Nat → (Nat → Fallible σ Unit) → Fallible σ Unit
  | 0, _ => pure ()
  | n + 1, round => do
      forSlots n round
      round n

variable {round : Nat → Fallible σ Unit}

/-- A pass keeps what depends on how far it has come. -/
theorem wp_forSlots {holds : Nat → σ → Prop} {n : Nat} (step : ∀ k < n, ∀ s, holds k s →
      wp (round k) (fun _ => holds (k + 1)) fails s) {s : σ} (start : holds 0 s) :
    wp (forSlots n round) (fun _ => holds n) fails s := by
  induction n with
  | zero => exact start
  | succ n ih =>
    rw [forSlots, wp_bind]
    have before := ih fun k inside => step k (Nat.lt_succ_of_lt inside)
    exact before.imp fun _ t held => step n (Nat.lt_succ_self n) t held

/-- A pass whose rounds leave the state alone leaves it alone. -/
theorem forSlots_idle {n : Nat} (idle : ∀ k < n, round k s = (some (), s)) :
    forSlots n round s = (some (), s) := by
  induction n with
  | zero => rfl
  | succ n ih =>
    have before := ih fun k inside => idle k (Nat.lt_succ_of_lt inside)
    rw [forSlots, bind_some before]
    exact idle n (Nat.lt_succ_self n)

/-- A pass stops at the first round that fails. -/
theorem forSlots_stops {n k : Nat} (idle : ∀ other < k, round other s = (some (), s))
    (stops : round k s = (none, t)) (inside : k < n) :
    forSlots n round s = (none, t) := by
  induction n with
  | zero => exact absurd inside (Nat.not_lt_zero k)
  | succ n ih =>
    rw [forSlots]
    rcases Nat.lt_succ_iff_lt_or_eq.mp inside with before | last
    · exact bind_none (ih before)
    · subst last
      rw [bind_some (forSlots_idle idle)]
      exact stops

theorem wp_forSlots_stops {n k : Nat} (idle : ∀ other < k, round other s = (some (), s))
    (stops : wp (round k) (fun _ _ => False) fails s) (inside : k < n) :
    wp (forSlots n round) (fun _ _ => False) fails s := by
  obtain ⟨t, ran, failed⟩ := stops.stops
  rw [wp, forSlots_stops idle ran inside]
  exact failed

end Fallible

end SavanXP.Library
