import Mathlib

/-!
# Covering by runs of consecutive numbers

A run is its first number and its length.  Numbers are to be covered by free runs, and by
few of them.  To take a longest free run first is never worse than any other choice.
-/

namespace SavanXP.Library

open List

/-- The numbers of some runs. -/
def numbers (runs : List (Nat × Nat)) : List Nat := runs.flatMap fun run => range' run.1 run.2

theorem numbers_cons (run : Nat × Nat) (runs : List (Nat × Nat)) :
    numbers (run :: runs) = range' run.1 run.2 ++ numbers runs := rfl

/-- At most `most` free runs that share no number have `n` numbers together. -/
def Coverable (free : Nat → Prop) (n most : Nat) : Prop :=
  ∃ runs, runs.length ≤ most ∧ (numbers runs).Nodup ∧ (∀ v ∈ numbers runs, free v) ∧
    n ≤ (numbers runs).length

/-- A free run, and no free run is longer. -/
structure Longest (free : Nat → Prop) (start length : Nat) : Prop where
  isFree : ∀ v ∈ range' start length, free v
  longest : ∀ first, ¬ ∀ v ∈ range' first (length + 1), free v

variable {free : Nat → Prop} {start length n most : Nat}

namespace Longest

variable (longest : Longest free start length)
include longest

/-- A free run that meets a longest one lies inside it. -/
theorem inside {first count v : Nat} (isFree : ∀ v ∈ range' first count, free v)
    (here : v ∈ range' first count) (meets : v ∈ range' start length) :
    range' first count ⊆ range' start length := by
  intro w listed
  by_contra outside
  simp only [mem_range'_1, not_and, Nat.not_lt] at here meets listed outside
  rcases Nat.lt_or_ge w start with old | after
  · refine longest.longest w fun u between => ?_
    simp only [mem_range'_1] at between
    rcases Nat.lt_or_ge u start with front | back
    · exact isFree u (mem_range'_1.mpr (by omega))
    · exact longest.isFree u (mem_range'_1.mpr (by omega))
  · have far := outside after
    refine longest.longest start fun u between => ?_
    simp only [mem_range'_1] at between
    rcases Nat.lt_or_ge u (start + length) with front | back
    · exact longest.isFree u (mem_range'_1.mpr (by omega))
    · exact isFree u (mem_range'_1.mpr (by omega))

theorem length_le {first count : Nat} (isFree : ∀ v ∈ range' first count, free v) :
    count ≤ length := by
  by_contra more
  refine longest.longest first fun v listed => isFree v ?_
  simp only [mem_range'_1] at listed ⊢
  omega

omit longest in
/-- Runs inside it have no more numbers together. -/
theorem numbers_le {runs : List (Nat × Nat)} (distinct : (numbers runs).Nodup)
    (inside : ∀ run ∈ runs, range' run.1 run.2 ⊆ range' start length) :
    (numbers runs).length ≤ length := by
  have subset : numbers runs ⊆ range' start length := by
    intro v listed
    obtain ⟨run, among, here⟩ := mem_flatMap.mp listed
    exact inside run among here
  have few := (distinct.subperm subset).length_le
  rwa [length_range'] at few

/-- What `most + 1` free runs cover, it and `most` free runs outside it cover. -/
theorem cover (cover : Coverable free n (most + 1)) :
    Coverable (fun v => free v ∧ v ∉ range' start length) (n - length) most := by
  obtain ⟨runs, few, distinct, isFree, enough⟩ := cover
  let meets (run : Nat × Nat) : Bool := (range' run.1 run.2).any (· ∈ range' start length)
  have parts : (numbers runs).Perm
      (numbers (runs.filter meets) ++ numbers (runs.filter (!meets ·))) := by
    rw [numbers, numbers, numbers, ← flatMap_append]
    exact (filter_append_perm meets runs).symm.flatMap_right _
  obtain ⟨distinctInside, distinctOutside, _⟩ := nodup_append.mp (parts.nodup distinct)
  have runFree {run : Nat × Nat} (among : run ∈ runs) (v : Nat) (here : v ∈ range' run.1 run.2) :
      free v := isFree v (mem_flatMap.mpr ⟨run, among, here⟩)
  have short := numbers_le distinctInside fun run kept => by
    obtain ⟨among, met⟩ := mem_filter.mp kept
    obtain ⟨v, here, shared⟩ := any_eq_true.mp met
    exact longest.inside (runFree among) here (of_decide_eq_true shared)
  have outside : ∀ v ∈ numbers (runs.filter (!meets ·)), free v ∧ v ∉ range' start length := by
    intro v listed
    obtain ⟨run, kept, here⟩ := mem_flatMap.mp listed
    obtain ⟨among, apart⟩ := mem_filter.mp kept
    refine ⟨runFree among v here, fun shared => ?_⟩
    rw [Bool.not_eq_true', any_eq_false] at apart
    exact apart v here (decide_eq_true shared)
  have total := parts.length_eq
  rw [length_append] at total
  by_cases none : runs.filter meets = []
  · -- no run meets it, so that any of them can go for it
    rw [none, show (numbers []).length = 0 from rfl, Nat.zero_add] at total
    have fewer := length_filter_le (!meets ·) runs
    generalize runs.filter (!meets ·) = others at *
    cases others with
    | nil =>
      refine ⟨[], Nat.zero_le _, nodup_nil, forall_mem_nil _, ?_⟩
      rw [total] at enough
      exact (Nat.sub_le _ _).trans enough
    | cons run rest =>
      rw [length_cons] at fewer
      rw [numbers_cons] at distinctOutside outside total
      rw [length_append, length_range'] at total
      obtain ⟨inRun, inRest⟩ := forall_mem_append.mp outside
      have one := longest.length_le fun v here => (inRun v here).1
      exact ⟨rest, by omega, (nodup_append.mp distinctOutside).2.1, inRest, by omega⟩
  · have split := length_eq_length_filter_add meets (l := runs)
    have some := length_pos_of_ne_nil none
    exact ⟨runs.filter (!meets ·), by omega, distinctOutside, outside, by omega⟩

end Longest

/-- A free run and runs outside it. -/
theorem Coverable.add (isFree : ∀ v ∈ range' start length, free v)
    (rest : Coverable (fun v => free v ∧ v ∉ range' start length) n most) :
    Coverable free (n + length) (most + 1) := by
  obtain ⟨runs, few, distinct, outside, enough⟩ := rest
  have all := numbers_cons (start, length) runs
  refine ⟨(start, length) :: runs, Nat.succ_le_succ few, ?_, ?_, ?_⟩
  · rw [all, nodup_append]
    refine ⟨nodup_range', distinct, fun v here w there same => ?_⟩
    exact (outside w there).2 (same ▸ here)
  · rw [all]
    exact forall_mem_append.mpr ⟨isFree, fun v there => (outside v there).1⟩
  · rw [all, length_append, length_range']
    omega

end SavanXP.Library
