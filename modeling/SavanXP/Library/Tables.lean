import Mathlib

/-!
# Tables of a fixed size

A table gives a record for each index of a finite type.  A new record goes into
the first entry that is not taken.  What a table counts as a whole is the sum of
what its entries count; replacing one entry changes the sum by what that entry
counted before and after.
-/

namespace SavanXP.Library

open List Function

/-- What the new record of an entry has in common with the old one, no entry loses. -/
theorem update_keeps {ι α β : Type*} [DecidableEq ι] {table : ι → α} {i : ι} {v : α}
    (f : α → β) (same : f v = f (table i)) (other : ι) :
    f (update table i v other) = f (table other) := by
  rw [apply_update fun _ => f, same]
  exact congrFun (update_eq_self i fun other => f (table other)) other

variable {size : Nat} {taken : Fin size → Bool} {e : Fin size}

/-- The first entry that is not taken. -/
def freeEntry (taken : Fin size → Bool) : Option (Fin size) :=
  (List.finRange size).find? fun e => !taken e

/-- How many entries are not taken. -/
def freeEntries (taken : Fin size → Bool) : Nat :=
  (List.finRange size).countP fun e => !taken e

theorem freeEntry_some (found : freeEntry taken = some e) : taken e = false := by
  simpa using List.find?_some found

theorem freeEntry_none : freeEntry taken = none ↔ ∀ e, taken e = true := by
  unfold freeEntry
  rw [List.find?_eq_none]
  constructor
  · intro full e
    simpa using full e (mem_finRange e)
  · intro full e _
    simp [full e]

theorem freeEntries_zero : freeEntries taken = 0 ↔ ∀ e, taken e = true := by
  unfold freeEntries
  rw [countP_eq_zero]
  constructor
  · intro full e
    simpa using full e (mem_finRange e)
  · intro full e _
    simp [full e]

theorem freeEntries_update (free : taken e = false) :
    freeEntries taken = freeEntries (update taken e true) + 1 := by
  have each (l : List (Fin size)) : l.countP (fun other => !taken other) =
      l.countP (fun other => !update taken e true other) + l.count e := by
    induction l with
    | nil => rfl
    | cons other rest ih =>
      rw [countP_cons, countP_cons, count_cons, ih]
      by_cases same : other = e
      · subst same
        simp [free, Nat.add_assoc]
      · simp [same, Nat.add_right_comm]
  unfold freeEntries
  rw [each, count_eq_one_of_mem (nodup_finRange size) (mem_finRange e)]

/-- Taking an entry leaves another exactly when it was not the only one. -/
theorem freeEntry_update (free : taken e = false) :
    freeEntry (update taken e true) = none ↔ freeEntries taken = 1 := by
  rw [freeEntry_none, ← freeEntries_zero, freeEntries_update free, Nat.add_eq_right]

/-- Replacing one entry of a table changes what the table counts by that entry. -/
theorem sum_update {ι α : Type} [Fintype ι] [DecidableEq ι] (table : ι → α) (i : ι) (v : α)
    (n : α → Nat) :
    (∑ other, n (update table i v other)) + n (table i) = (∑ other, n (table other)) + n v := by
  have rest : ∑ other ∈ Finset.univ.erase i, n (update table i v other) =
      ∑ other ∈ Finset.univ.erase i, n (table other) := by
    apply Finset.sum_congr rfl
    intro other member
    rw [update_of_ne (Finset.ne_of_mem_erase member)]
  have after := Finset.add_sum_erase Finset.univ
    (fun other => n (update table i v other)) (Finset.mem_univ i)
  have before := Finset.add_sum_erase Finset.univ (fun other => n (table other))
    (Finset.mem_univ i)
  rw [update_self, rest] at after
  omega

end SavanXP.Library
