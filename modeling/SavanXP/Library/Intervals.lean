import Mathlib

/-!
# Lists of half-open intervals

A list of intervals is separated when every interval is nonempty and ends
strictly before the next one begins: the intervals are sorted, disjoint and do
not touch.  Putting one more interval into a separated list joins it with the
intervals it touches on either side.
-/

namespace SavanXP.Library

open List

variable {α : Type} [LinearOrder α]

/-- The values from `base` up to, and not including, `stop`. -/
structure HalfOpen (α : Type) where
  base : α
  stop : α
deriving DecidableEq

namespace HalfOpen

def Holds (interval : HalfOpen α) (v : α) : Prop :=
  interval.base ≤ v ∧ v < interval.stop

def Before (first second : HalfOpen α) : Prop := first.stop < second.base

/-- The first interval with its end moved up to that of the second. -/
def extend (first second : HalfOpen α) : HalfOpen α :=
  if first.stop < second.stop then { first with stop := second.stop } else first

theorem extend_base (first second : HalfOpen α) : (first.extend second).base = first.base := by
  unfold extend
  split <;> rfl

theorem extend_stop (first second : HalfOpen α) :
    (first.extend second).stop = max first.stop second.stop := by
  unfold extend
  split
  · next less => exact (max_eq_right less.le).symm
  · next more => exact (max_eq_left (not_lt.mp more)).symm

variable {first second : HalfOpen α}

theorem extend_stop_property {property : α → Prop}
    (left : property first.stop) (right : property second.stop) :
    property (first.extend second).stop := by
  rw [extend_stop]
  rcases max_choice first.stop second.stop with keeps | moves
  · rw [keeps]
    exact left
  · rw [moves]
    exact right

theorem extend_long (long : first.base < first.stop) :
    (first.extend second).base < (first.extend second).stop := by
  rw [extend_base, extend_stop]
  exact lt_max_of_lt_left long

/-- Joining intervals that meet, the second not starting first, loses and adds
nothing. -/
theorem holds_extend (ordered : first.base ≤ second.base)
    (meets : second.base ≤ first.stop) (v : α) :
    (first.extend second).Holds v ↔ first.Holds v ∨ second.Holds v := by
  rw [Holds, Holds, Holds, extend_base, extend_stop, lt_max_iff]
  constructor
  · rintro ⟨above, below | below⟩
    · exact .inl ⟨above, below⟩
    · rcases lt_or_ge v first.stop with inside | past
      · exact .inl ⟨above, inside⟩
      · exact .inr ⟨meets.trans past, below⟩
  · rintro (⟨above, below⟩ | ⟨above, below⟩)
    · exact ⟨above, .inl below⟩
    · exact ⟨ordered.trans above, .inr below⟩

end HalfOpen

open HalfOpen

/-! ## Lists -/

def Covered (intervals : List (HalfOpen α)) (v : α) : Prop :=
  ∃ interval ∈ intervals, interval.Holds v

omit [LinearOrder α] in
/-- Every end of every interval has the property. -/
def Ends (property : α → Prop) (intervals : List (HalfOpen α)) : Prop :=
  ∀ interval ∈ intervals, property interval.base ∧ property interval.stop

structure Separated (intervals : List (HalfOpen α)) : Prop where
  nonempty : ∀ interval ∈ intervals, interval.base < interval.stop
  apart : intervals.Pairwise Before

@[simp]
theorem covered_nil (v : α) : ¬ Covered [] v := by
  rintro ⟨_, inside, _⟩
  cases inside

theorem covered_cons (interval : HalfOpen α) (rest : List (HalfOpen α)) (v : α) :
    Covered (interval :: rest) v ↔ interval.Holds v ∨ Covered rest v := by
  simp only [Covered, mem_cons, exists_eq_or_imp]

theorem covered_append (first second : List (HalfOpen α)) (v : α) :
    Covered (first ++ second) v ↔ Covered first v ∨ Covered second v := by
  simp only [Covered, mem_append, or_and_right, exists_or]

omit [LinearOrder α] in
theorem ends_cons {property : α → Prop} {interval : HalfOpen α} {rest : List (HalfOpen α)} :
    Ends property (interval :: rest) ↔
      (property interval.base ∧ property interval.stop) ∧ Ends property rest :=
  forall_mem_cons

omit [LinearOrder α] in
theorem ends_append {property : α → Prop} {first second : List (HalfOpen α)} :
    Ends property (first ++ second) ↔ Ends property first ∧ Ends property second :=
  forall_mem_append

theorem Separated.nil : Separated ([] : List (HalfOpen α)) :=
  ⟨nofun, Pairwise.nil⟩

variable {interval : HalfOpen α} {rest : List (HalfOpen α)}

theorem separated_cons : Separated (interval :: rest) ↔
      interval.base < interval.stop ∧ (∀ next ∈ rest, interval.Before next) ∧ Separated rest := by
  constructor
  · rintro ⟨nonempty, apart⟩
    rw [forall_mem_cons] at nonempty
    rw [pairwise_cons] at apart
    exact ⟨nonempty.1, apart.1, nonempty.2, apart.2⟩
  · rintro ⟨long, before, nonempty, apart⟩
    exact ⟨forall_mem_cons.mpr ⟨long, nonempty⟩, pairwise_cons.mpr ⟨before, apart⟩⟩

theorem separated_append {first second : List (HalfOpen α)} : Separated (first ++ second) ↔
      Separated first ∧ Separated second ∧ ∀ left ∈ first, ∀ right ∈ second, left.Before right := by
  constructor
  · rintro ⟨nonempty, apart⟩
    rw [forall_mem_append] at nonempty
    rw [pairwise_append] at apart
    exact ⟨⟨nonempty.1, apart.1⟩, ⟨nonempty.2, apart.2.1⟩, apart.2.2⟩
  · rintro ⟨⟨firstLong, firstApart⟩, ⟨secondLong, secondApart⟩, across⟩
    exact ⟨forall_mem_append.mpr ⟨firstLong, secondLong⟩,
      pairwise_append.mpr ⟨firstApart, secondApart, across⟩⟩

/-! ## Joining with what follows -/

/-- The interval joined with every interval it reaches. -/
def absorb (interval : HalfOpen α) : List (HalfOpen α) → List (HalfOpen α)
  | [] => [interval]
  | next :: rest =>
    if next.base ≤ interval.stop then absorb (interval.extend next) rest
    else interval :: next :: rest

/-- Joining an interval to a separated list that starts no earlier. -/
structure Absorbed (interval : HalfOpen α) (rest result : List (HalfOpen α)) : Prop where
  separated : Separated result
  above : ∀ other ∈ result, interval.base ≤ other.base
  covered : ∀ v, Covered result v ↔ interval.Holds v ∨ Covered rest v
  ends : ∀ property : α → Prop, property interval.base → property interval.stop →
    Ends property rest → Ends property result

theorem absorb_absorbed (long : interval.base < interval.stop) (separated : Separated rest)
    (above : ∀ next ∈ rest, interval.base ≤ next.base) :
    Absorbed interval rest (absorb interval rest) := by
  induction rest generalizing interval with
  | nil =>
    refine ⟨separated_cons.mpr ⟨long, nofun, .nil⟩, ?_, ?_, ?_⟩
    · intro other inside
      rw [mem_singleton.mp inside]
    · exact fun v => covered_cons interval [] v
    · exact fun property base stop rest => ends_cons.mpr ⟨⟨base, stop⟩, rest⟩
  | cons next rest ih =>
    have ordered : interval.base ≤ next.base := above next mem_cons_self
    obtain ⟨nextLong, nextBefore, restSeparated⟩ := separated_cons.mp separated
    rw [absorb]
    split
    · next meets =>
      have restAbove : ∀ other ∈ rest, (interval.extend next).base ≤ other.base := by
        intro other inside
        rw [extend_base]
        exact above other (mem_cons_of_mem next inside)
      have joined := ih (extend_long long) restSeparated restAbove
      refine ⟨joined.separated, ?_, ?_, ?_⟩
      · intro other inside
        have := joined.above other inside
        rwa [extend_base] at this
      · intro v
        rw [joined.covered, holds_extend ordered meets, covered_cons, or_assoc]
      · intro property base stop ends
        obtain ⟨⟨_, nextStop⟩, restEnds⟩ := ends_cons.mp ends
        refine joined.ends property ?_ ?_ restEnds
        · rw [extend_base]
          exact base
        · exact extend_stop_property stop nextStop
    · next apart =>
      have beforeNext : interval.Before next := not_le.mp apart
      refine ⟨separated_cons.mpr ⟨long, ?_, separated⟩, ?_, ?_, ?_⟩
      · refine forall_mem_cons.mpr ⟨beforeNext, fun other inside => ?_⟩
        exact beforeNext.trans (nextLong.trans (nextBefore other inside))
      · exact forall_mem_cons.mpr ⟨le_refl _, above⟩
      · exact fun v => covered_cons interval (next :: rest) v
      · exact fun property base stop ends => ends_cons.mpr ⟨⟨base, stop⟩, ends⟩

/-! ## Joining with what precedes -/

/-- The interval joined with every interval that reaches it, the nearest one
first. -/
def absorbBack (interval : HalfOpen α) : List (HalfOpen α) → List (HalfOpen α) × HalfOpen α
  | [] => ([], interval)
  | prev :: rest =>
    if interval.base ≤ prev.stop then absorbBack (prev.extend interval) rest
    else (prev :: rest, interval)

/-- Joining an interval to a separated list that starts no later. -/
structure AbsorbedBack (interval : HalfOpen α) (rest : List (HalfOpen α))
    (kept : List (HalfOpen α)) (result : HalfOpen α) : Prop where
  long : result.base < result.stop
  below : result.base ≤ interval.base
  separated : Separated kept.reverse
  before : ∀ other ∈ kept, other.Before result
  covered : ∀ v,
    Covered kept.reverse v ∨ result.Holds v ↔ Covered rest.reverse v ∨ interval.Holds v
  ends : ∀ property : α → Prop, property interval.base → property interval.stop →
    Ends property rest.reverse → Ends property kept.reverse ∧ property result.base ∧
      property result.stop

theorem absorbBack_absorbedBack
    (long : interval.base < interval.stop) (separated : Separated rest.reverse)
    (below : ∀ prev ∈ rest, prev.base ≤ interval.base) :
    AbsorbedBack interval rest (absorbBack interval rest).1 (absorbBack interval rest).2 := by
  induction rest generalizing interval with
  | nil =>
    exact ⟨long, le_refl _, separated, nofun, fun _ => Iff.rfl,
      fun _ base stop ends => ⟨ends, base, stop⟩⟩
  | cons prev rest ih =>
    have ordered : prev.base ≤ interval.base := below prev mem_cons_self
    rw [reverse_cons] at separated
    obtain ⟨restSeparated, lastSeparated, across⟩ := separated_append.mp separated
    have previousLong : prev.base < prev.stop := (separated_cons.mp lastSeparated).1
    have restBefore : ∀ other ∈ rest, other.Before prev := fun other inside =>
      across other (mem_reverse.mpr inside) prev mem_cons_self
    rw [absorbBack]
    split
    · next meets =>
      have restBelow : ∀ other ∈ rest, other.base ≤ (prev.extend interval).base := by
        intro other inside
        have otherLong := restSeparated.nonempty other (mem_reverse.mpr inside)
        rw [extend_base]
        exact (otherLong.trans (restBefore other inside)).le
      have joined := ih (extend_long previousLong) restSeparated restBelow
      refine ⟨joined.long, ?_, joined.separated, joined.before, ?_, ?_⟩
      · refine joined.below.trans ?_
        rw [extend_base]
        exact ordered
      · intro v
        rw [joined.covered, holds_extend ordered meets, reverse_cons, covered_append,
          covered_cons, or_assoc]
        simp only [covered_nil, or_false]
      · intro property base stop ends
        rw [reverse_cons] at ends
        obtain ⟨restEnds, lastEnds⟩ := ends_append.mp ends
        obtain ⟨⟨previousBase, previousStop⟩, _⟩ := ends_cons.mp lastEnds
        refine joined.ends property ?_ (extend_stop_property previousStop stop) restEnds
        rw [extend_base]
        exact previousBase
    · next apart =>
      have beforeInterval : prev.Before interval := not_le.mp apart
      refine ⟨long, le_refl _, ?_, ?_, fun _ => Iff.rfl, fun _ base stop ends => ⟨ends, base, stop⟩⟩
      · rw [reverse_cons]
        exact separated
      · refine forall_mem_cons.mpr ⟨beforeInterval, fun other inside => ?_⟩
        exact (restBefore other inside).trans (previousLong.trans beforeInterval)

end SavanXP.Library
