import Mathlib

/-!
# Fallible steps and their pre- and postconditions

An action changes a state and says whether it worked.  A sequence of actions
stops at the first one that did not, which is how a chain of `||` over negated
calls runs.  A triple gives one condition for each way out.
-/

namespace SavanXP.Library

abbrev Action (σ : Type) : Type := σ → Bool × σ

/-- Run actions in order up to the first that fails. -/
def allOf {σ : Type} : List (Action σ) → Action σ
  | [], s => (true, s)
  | action :: rest, s =>
    match action s with
    | (true, s) => allOf rest s
    | (false, s) => (false, s)

theorem allOf_append {σ : Type} (first rest : List (Action σ)) (s : σ) :
    allOf (first ++ rest) s =
      match allOf first s with
      | (true, s) => allOf rest s
      | (false, s) => (false, s) := by
  induction first generalizing s with
  | nil => rfl
  | cons action others ih =>
    simp only [List.cons_append, allOf]
    split
    · next t ran => exact ih t
    · rfl

/-- From `pre`, an action that works leads to `post` and one that does not to
`fails`. -/
def Triple {σ : Type} (pre : σ → Prop) (action : Action σ) (post fails : σ → Prop) : Prop :=
  ∀ s, pre s →
    ((action s).1 = true → post (action s).2) ∧
      ((action s).1 = false → fails (action s).2)

namespace Triple

variable {σ : Type} {pre middle post fails : σ → Prop} {action : Action σ}
  {rest : List (Action σ)}

theorem nil (implied : ∀ s, pre s → post s) : Triple pre (allOf []) post fails :=
  fun s held => ⟨fun _ => implied s held, nofun⟩

/-- The first action, then the others from where it ended. -/
theorem cons (first : Triple pre action middle fails)
    (others : Triple middle (allOf rest) post fails) :
    Triple pre (allOf (action :: rest)) post fails := by
  intro s held
  have step := first s held
  unfold allOf
  split
  · next t ran =>
    rw [ran] at step
    exact others t (step.1 rfl)
  · next t ran =>
    rw [ran] at step
    exact ⟨nofun, fun _ => step.2 rfl⟩

theorem append {first : List (Action σ)} (one : Triple pre (allOf first) middle fails)
    (two : Triple middle (allOf rest) post fails) :
    Triple pre (allOf (first ++ rest)) post fails := by
  intro s held
  have step := one s held
  rw [allOf_append]
  split
  · next t ran =>
    rw [ran] at step
    exact two t (step.1 rfl)
  · next t ran =>
    rw [ran] at step
    exact ⟨nofun, fun _ => step.2 rfl⟩

theorem consequence {strongerPre : σ → Prop} {weakerPost weakerFails : σ → Prop}
    (triple : Triple pre action post fails) (before : ∀ s, strongerPre s → pre s)
    (after : ∀ s, post s → weakerPost s) (failed : ∀ s, fails s → weakerFails s) :
    Triple strongerPre action weakerPost weakerFails := by
  intro s held
  have step := triple s (before s held)
  exact ⟨fun worked => after _ (step.1 worked), fun not => failed _ (step.2 not)⟩

end Triple

end SavanXP.Library
