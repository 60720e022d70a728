import Mathlib

/-!
# Tables of slots

A table is a function from slot numbers to records, of which the first `limit`
slots exist.  A new record goes into the first slot that is not taken.  What
the table holds is the list of its taken slots' contents; filling a free slot
adds one element to it, up to the order.
-/

namespace SavanXP.Library

open List Function

/-- The first of the `limit` slots that is not taken. -/
def firstFree (taken : Nat → Bool) (limit : Nat) : Option Nat :=
  (range limit).find? fun k => !taken k

/-- How many of the `limit` slots are not taken. -/
def freeSlots (taken : Nat → Bool) (limit : Nat) : Nat :=
  (range limit).countP fun k => !taken k

/-- What the taken slots hold, in slot order. -/
def contents {α : Type} (held : Nat → Option α) (limit : Nat) : List α :=
  (range limit).filterMap held

variable {taken : Nat → Bool} {limit k : Nat}

theorem firstFree_some (found : firstFree taken limit = some k) :
    k < limit ∧ taken k = false := by
  constructor
  · exact mem_range.mp (mem_of_find?_eq_some found)
  · simpa using find?_some found

theorem firstFree_isSome (room : 0 < freeSlots taken limit) :
    ∃ k, firstFree taken limit = some k := by
  obtain ⟨k, inside, free⟩ := countP_pos_iff.mp room
  exact Option.isSome_iff_exists.mp (find?_isSome.mpr ⟨k, inside, free⟩)

/-- The slots around one of them. -/
theorem range_split (inside : k < limit) :
    ∃ before after, range limit = before ++ k :: after ∧ k ∉ before ∧ k ∉ after := by
  obtain ⟨before, after, split⟩ := append_of_mem (mem_range.mpr inside)
  have nodup : (before ++ k :: after).Nodup := split ▸ nodup_range
  rw [nodup_middle, nodup_cons, mem_append, not_or] at nodup
  exact ⟨before, after, split, nodup.1⟩

/-- Taking a free slot uses up one. -/
theorem freeSlots_update (inside : k < limit) (free : taken k = false) :
    freeSlots taken limit = freeSlots (update taken k true) limit + 1 := by
  obtain ⟨before, after, split, notBefore, notAfter⟩ := range_split inside
  have same : ∀ part : List Nat, k ∉ part →
      part.countP (fun other => !update taken k true other) =
        part.countP (fun other => !taken other) := by
    intro part outside
    apply countP_congr
    intro other member
    have different : other ≠ k := fun equal => outside (equal ▸ member)
    rw [update_of_ne different]
  unfold freeSlots
  rw [split, countP_append, countP_append, countP_cons, countP_cons,
    same before notBefore, same after notAfter, update_self, free]
  simp only [Bool.not_false, Bool.not_true, Bool.false_eq_true, if_true, if_false]
  omega

/-- Filling a free slot adds its record. -/
theorem contents_update {α : Type} {held : Nat → Option α} (inside : k < limit)
    (free : held k = none) (v : α) : (contents (update held k (some v)) limit).Perm
      (v :: contents held limit) := by
  obtain ⟨before, after, split, notBefore, notAfter⟩ := range_split inside
  have same : ∀ part : List Nat, k ∉ part →
      part.filterMap (update held k (some v)) = part.filterMap held := by
    intro part outside
    apply filterMap_congr
    intro other member
    have different : other ≠ k := fun equal => outside (equal ▸ member)
    rw [update_of_ne different]
  unfold contents
  rw [split, filterMap_append, filterMap_append, filterMap_cons, filterMap_cons,
    same before notBefore, same after notAfter, update_self, free]
  exact perm_middle

/-! ## Passes over a table -/

/-- One round for each of the slots, in slot order. -/
def overSlots {σ : Type} (round : Nat → σ → σ) : Nat → σ → σ
  | 0, s => s
  | n + 1, s => round n (overSlots round n s)

/-- A pass keeps what depends on how far it has come. -/
theorem overSlots_reaches {σ : Type} {round : Nat → σ → σ} {holds : Nat → σ → Prop} {n : Nat}
    (step : ∀ k < n, ∀ s, holds k s → holds (k + 1) (round k s))
    {s : σ} (start : holds 0 s) : holds n (overSlots round n s) := by
  induction n with
  | zero => exact start
  | succ n ih =>
    have before := ih fun k inside => step k (Nat.lt_succ_of_lt inside)
    exact step n (Nat.lt_succ_self n) _ before

/-- A pass keeps what each of its rounds keeps. -/
theorem overSlots_keeps {σ : Type} {round : Nat → σ → σ} {holds : σ → Prop} {n : Nat}
    (step : ∀ k s, holds s → holds (round k s))
    {s : σ} (start : holds s) : holds (overSlots round n s) :=
  overSlots_reaches (fun k _ s => step k s) start

end SavanXP.Library
