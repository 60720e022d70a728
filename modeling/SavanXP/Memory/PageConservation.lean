import SavanXP.Memory.PhysicalMemory

/-!
# No page is lost or given out twice

Over any run of the page allocator the free regions stay sorted, aligned and
apart, allocations are disjoint from them and from each other, and free and
allocated memory together are the whole pages of the usable map entries.
-/

namespace SavanXP.Memory

open SavanXP.Library List

/-! ## Changing one place of the table -/

variable {old after : List FreeRegion} {region : FreeRegion}

theorem insertIdx_at : (old ++ after).insertIdx old.length region = old ++ region :: after := by
  induction old with
  | nil => rfl
  | cons first old ih =>
    rw [cons_append, length_cons, insertIdx_succ_cons, ih, cons_append]

theorem removeRegion_at : removeRegion (old ++ region :: after) old.length = old ++ after := by
  rw [removeRegion, eraseIdx_append_of_length_le (le_refl _), Nat.sub_self, eraseIdx_cons_zero]

theorem set_at {replacement : FreeRegion} :
    (old ++ region :: after).set old.length replacement = old ++ replacement :: after := by
  rw [set_append_right _ _ (le_refl _), Nat.sub_self, set_cons_zero]

theorem getElem?_at : (old ++ region :: after)[old.length]? = some region := by
  rw [getElem?_append_right (le_refl _), Nat.sub_self, getElem?_cons_zero]

theorem getElem?_next {next : FreeRegion} :
    (old ++ region :: next :: after)[old.length + 1]? = some next := by
  rw [getElem?_append_right (Nat.le_add_right _ 1), Nat.add_sub_cancel_left,
    getElem?_cons_succ, getElem?_cons_zero]

/-- Two neighbours replaced by their union. -/
theorem join_at {region next joined : FreeRegion} :
    removeRegion ((old ++ region :: next :: after).set old.length joined) (old.length + 1) =
      old ++ joined :: after := by
  have moved : old ++ joined :: next :: after = (old ++ [joined]) ++ next :: after := by
    rw [append_assoc, singleton_append]
  have length : old.length + 1 = (old ++ [joined]).length := by
    rw [length_append, length_singleton]
  rw [set_at, moved, length, removeRegion_at, append_assoc, singleton_append]

/-! ## Merging -/

theorem mergePrevious_eq (reversed : List FreeRegion) (region : FreeRegion)
    (after : List FreeRegion) :
    mergePrevious (reversed.reverse ++ region :: after) reversed.length =
      ((absorbBack region reversed).1.reverse ++ (absorbBack region reversed).2 :: after,
        (absorbBack region reversed).1.length) := by
  induction reversed generalizing region with
  | nil => rfl
  | cons prev reversed ih =>
    have split : (prev :: reversed).reverse ++ region :: after =
        reversed.reverse ++ prev :: region :: after := by
      rw [reverse_cons, append_assoc, singleton_append]
    have atPrevious : (reversed.reverse ++ prev :: region :: after)[reversed.length]? =
        some prev := by
      rw [← @length_reverse _ reversed]
      exact getElem?_at
    have atRegion : (reversed.reverse ++ prev :: region :: after)[reversed.length + 1]? =
        some region := by
      rw [← @length_reverse _ reversed]
      exact getElem?_next
    rw [split, length_cons, mergePrevious, atPrevious, atRegion, absorbBack]
    dsimp only
    split
    · have joined := @join_at reversed.reverse after prev region (prev.extend region)
      rw [length_reverse] at joined
      rw [joined]
      exact ih (prev.extend region)
    · rw [reverse_cons, append_assoc, singleton_append, length_cons]

theorem mergeNext_eq {rounds : Nat} (old : List FreeRegion) (region : FreeRegion)
    (after : List FreeRegion) (enough : after.length < rounds) :
    mergeNext old.length rounds (old ++ region :: after) = old ++ absorb region after := by
  induction rounds generalizing region after with
  | zero => exact absurd enough (Nat.not_lt_zero _)
  | succ rounds ih =>
    cases after with
    | nil =>
      have none : (old ++ [region])[old.length + 1]? = none := by
        rw [getElem?_eq_none_iff, length_append, length_singleton]
      rw [mergeNext, getElem?_at, none]
      rfl
    | cons next after =>
      rw [mergeNext, getElem?_at, getElem?_next, absorb]
      dsimp only
      split
      · rw [join_at]
        exact ih (region.extend next) after (Nat.lt_of_succ_lt_succ enough)
      · rfl

/-- What putting a region into the table does. -/
structure Added (regions : List FreeRegion) (base stop : Nat) (res : List FreeRegion) : Prop where
  separated : Separated res
  covered : ∀ a, Covered res a ↔
    Covered regions a ∨ (base ≤ a ∧ a < stop)
  ends : ∀ property : Nat → Prop, property base → property stop →
    Ends property regions → Ends property res

theorem mergeNeighbors_added
    (long : region.base < region.stop) (separated : Separated (old ++ after))
    (below : ∀ prev ∈ old, prev.base ≤ region.base)
    (above : ∀ next ∈ after, region.base ≤ next.base) : Added (old ++ after) region.base region.stop
      (mergeNeighbors (old ++ region :: after) old.length) := by
  obtain ⟨beforeSeparated, afterSeparated, _⟩ := separated_append.mp separated
  have back := @absorbBack_absorbedBack _ _ region old.reverse long
    (by rwa [reverse_reverse]) (fun prev ins => below prev (mem_reverse.mp ins))
  have found := mergePrevious_eq old.reverse region after
  rw [reverse_reverse, length_reverse] at found
  generalize absorbBack region old.reverse = joined at back found
  obtain ⟨kept, middle⟩ := joined
  have forward := absorb_absorbed back.long afterSeparated
    (fun next ins => back.below.trans (above next ins))
  have merged : mergeNeighbors (old ++ region :: after) old.length =
      kept.reverse ++ absorb middle after := by
    have ins : ¬ (old ++ region :: after).length ≤ old.length := by
      rw [length_append, length_cons]
      omega
    rw [mergeNeighbors, if_neg ins, found, ← @length_reverse _ kept]
    refine mergeNext_eq kept.reverse middle after ?_
    rw [length_append, length_cons]
    omega
  have backCovered := back.covered
  rw [reverse_reverse] at backCovered
  rw [merged]
  refine ⟨separated_append.mpr ⟨back.separated, forward.separated, ?_⟩, fun a => ?_, ?_⟩
  · intro left inLeft right inRight
    exact (back.before left (mem_reverse.mp inLeft)).trans_le (forward.above right inRight)
  · rw [covered_append, forward.covered, ← or_assoc, backCovered, covered_append, or_right_comm]
    rfl
  intro property base stop ends
  obtain ⟨beforeEnds, afterEnds⟩ := ends_append.mp ends
  obtain ⟨keptEnds, middleBase, middleStop⟩ :=
    back.ends property base stop (by rwa [reverse_reverse])
  exact ends_append.mpr ⟨keptEnds, forward.ends property middleBase middleStop afterEnds⟩

theorem addFreeRegion_added {regions : List FreeRegion} {base stop : Nat} {res : List FreeRegion}
    (separated : Separated regions) (added : addFreeRegion regions base stop = some res) :
    Added regions base stop res := by
  unfold addFreeRegion at added
  split at added
  · cases added
  next long =>
  unfold insertRegion at added
  dsimp only at added
  split at added
  · cases added
  rw [Option.map_some, Option.some.injEq] at added
  have parts := takeWhile_append_dropWhile (p := fun region : FreeRegion => region.base < base)
    (l := regions)
  generalize takenEq : regions.takeWhile (fun region : FreeRegion => region.base < base) = old
    at added parts
  generalize droppedEq : regions.dropWhile (fun region : FreeRegion => region.base < base) = after
    at parts
  subst parts
  rw [insertIdx_at] at added
  subst added
  refine @mergeNeighbors_added old after ⟨base, stop⟩ (Nat.lt_of_not_le long) separated ?_ ?_
  · intro prev ins
    rw [← takenEq] at ins
    have less := mem_takeWhile_imp ins
    exact Nat.le_of_lt (of_decide_eq_true less)
  · intro next ins
    obtain ⟨_, afterSeparated, _⟩ := separated_append.mp separated
    cases after with
    | nil => cases ins
    | cons first rest =>
      have firstAbove : base ≤ first.base := by
        have rem : (old ++ first :: rest).dropWhile (fun region => region.base < base) ≠ [] := by
          rw [droppedEq]
          exact cons_ne_nil _ _
        have stopped := head_dropWhile_not _ rem
        simp only [droppedEq, head_cons, decide_eq_false_iff_not] at stopped
        exact Nat.le_of_not_lt stopped
      rcases mem_cons.mp ins with rfl | t
      · exact firstAbove
      · obtain ⟨firstLong, firstBefore, _⟩ := separated_cons.mp afterSeparated
        exact firstAbove.trans (firstLong.trans (firstBefore next t)).le

/-! ## What a run keeps -/

/-- The addresses of an allocation: `pageCount` pages from its base. -/
def PageAllocation.Holds (alloc : PageAllocation) (a : Nat) : Prop :=
  alloc.physicalAddress ≤ a ∧
    a < alloc.physicalAddress + alloc.pageCount.toNat * pageSize

/-- The whole page of the address lies in a usable map entry. -/
def MemoryRegion.Offers (e : MemoryRegion) (a : Nat) : Prop :=
  e.type = .usable ∧ e.base.toNat ≤ a / pageSize * pageSize ∧
    (a / pageSize + 1) * pageSize ≤ e.base.toNat + e.length.toNat

/-- The initially usable memory, from 1 MiB on. -/
def Usable (memoryMap : List MemoryRegion) (a : Nat) : Prop :=
  minimumPhysicalAddress ≤ a ∧ ∃ e ∈ memoryMap, e.Offers a

structure Conserved (memoryMap : List MemoryRegion) (s : State) (live : List PageAllocation) :
    Prop where
  sorted : Separated s.regions
  aligned : Ends (pageSize ∣ ·) s.regions
  liveAligned : ∀ alloc ∈ live, pageSize ∣ alloc.physicalAddress
  liveNotFree : ∀ alloc ∈ live, ∀ a, alloc.Holds a →
    ¬ Covered s.regions a
  liveApart : live.Pairwise fun first second => ∀ a, first.Holds a → ¬ second.Holds a
  total : ∀ a, Covered s.regions a ∨
    (∃ alloc ∈ live, alloc.Holds a) ↔ Usable memoryMap a

/-- Neither the entry's rounded start nor its end leaves the address space. -/
def MemoryRegion.Fits (e : MemoryRegion) : Prop :=
  e.base.toNat + (pageSize - 1) < 2 ^ 64 ∧ e.base.toNat + e.length.toNat < 2 ^ 64

/-! ## Booting -/

/-- The table holds whole pages of the 64-bit address space. -/
structure Paged (regions : List FreeRegion) : Prop where
  separated : Separated regions
  aligned : Ends (pageSize ∣ ·) regions
  bounded : Ends (· < 2 ^ 64) regions

theorem Paged.added {regions res : List FreeRegion} {base stop : Nat} (paged : Paged regions)
    (added : Added regions base stop res) (alignedBase : pageSize ∣ base)
    (alignedStop : pageSize ∣ stop) (ordered : base < stop) (bounded : stop < 2 ^ 64) : Paged res :=
  ⟨added.separated, added.ends _ alignedBase alignedStop paged.aligned,
    added.ends _ (ordered.trans bounded) bounded paged.bounded⟩

/-- The pages between the rounded ends are those the entry offers. -/
theorem offers_iff {e : MemoryRegion} (fits : e.Fits) (usable : e.type = .usable)
    (a : Nat) : e.Offers a ↔ alignUp e.base.toNat pageSize ≤ a ∧
        a < alignDown (wrap (e.base.toNat + e.length.toNat)) pageSize := by
  obtain ⟨startFits, endFits⟩ := fits
  rw [alignUp, wrap_of_lt startFits, wrap_of_lt endFits]
  simp only [MemoryRegion.Offers, usable, true_and, alignDown, pageSize]
  omega

variable {s : State}

theorem addEntry_added {next : State} {e : MemoryRegion}
    (fits : e.type = .usable → e.Fits) (paged : Paged s.regions)
    (added : addEntry s e = some next) : Paged next.regions ∧ next.hhdmOffset = s.hhdmOffset ∧
      ∀ a, Covered next.regions a ↔
        Covered s.regions a ∨ (minimumPhysicalAddress ≤ a ∧ e.Offers a) := by
  unfold addEntry at added
  split at added
  · next o =>
    cases added
    refine ⟨paged, rfl, fun a => ?_⟩
    simp only [MemoryRegion.Offers, o, false_and, and_false, or_false]
  next usable =>
  rw [not_ne_iff] at usable
  have entryFits := fits usable
  dsimp only at added
  generalize startEq : (if alignUp e.base.toNat pageSize < minimumPhysicalAddress then
    minimumPhysicalAddress else alignUp e.base.toNat pageSize) = start at added
  generalize stopEq : alignDown (wrap (e.base.toNat + e.length.toNat)) pageSize = stop at added
  have pages : ∀ a, start ≤ a ∧ a < stop ↔ minimumPhysicalAddress ≤ a ∧ e.Offers a := by
    intro a
    rw [offers_iff entryFits usable, stopEq, ← and_assoc]
    refine and_congr_left fun _ => ?_
    rw [← startEq]
    split <;> omega
  split at added
  · next empty =>
    cases added
    refine ⟨paged, rfl, fun a => ?_⟩
    rw [← pages]
    exact (or_iff_left fun ins => by omega).symm
  next long =>
  obtain ⟨regions, found, rfl⟩ := Option.map_eq_some_iff.mp added
  have inserted := addFreeRegion_added paged.separated found
  refine ⟨paged.added inserted ?_ ?_ (Nat.lt_of_not_le long) ?_, rfl, fun a => ?_⟩
  · rw [← startEq]
    split
    · decide
    · exact Nat.dvd_mul_left _ _
  · rw [← stopEq]
    exact Nat.dvd_mul_left _ _
  · have small : wrap (e.base.toNat + e.length.toNat) < 2 ^ 64 := Nat.mod_lt _ (by decide)
    rw [← stopEq]
    exact (Nat.div_mul_le_self _ _).trans_lt small
  · rw [inserted.covered, pages]

theorem addEntries_added {entries : List MemoryRegion} {next : State}
    (fits : ∀ e ∈ entries, e.type = .usable → e.Fits) (paged : Paged s.regions)
    (added : entries.foldlM addEntry s = some next) :
    Paged next.regions ∧ next.hhdmOffset = s.hhdmOffset ∧
      ∀ a, Covered next.regions a ↔ Covered s.regions a ∨ Usable entries a := by
  induction entries generalizing s with
  | nil =>
    cases added
    refine ⟨paged, rfl, fun a => ?_⟩
    simp only [Usable, not_mem_nil, false_and, exists_false, and_false, or_false]
  | cons e entries ih =>
    obtain ⟨middle, first, rest⟩ := Option.bind_eq_some_iff.mp added
    rw [forall_mem_cons] at fits
    obtain ⟨middlePaged, middleOffset, middleCovered⟩ := addEntry_added fits.1 paged first
    obtain ⟨nextPaged, nextOffset, nextCovered⟩ := ih fits.2 middlePaged rest
    refine ⟨nextPaged, nextOffset.trans middleOffset, fun a => ?_⟩
    rw [nextCovered, middleCovered, or_assoc, Usable, Usable, ← and_or_left]
    simp only [mem_cons, exists_eq_or_imp]

variable {boot : BootInfo}

/-- After booting, the free regions are the usable memory. -/
theorem initializeMemory_paged (ready : (initializeMemory boot).ready = true)
    (fits : ∀ e ∈ boot.memoryMap, e.type = .usable → e.Fits) :
    Paged (initializeMemory boot).regions ∧ (initializeMemory boot).hhdmOffset =
      boot.hhdmOffset.toNat ∧
      ∀ a, Covered (initializeMemory boot).regions a ↔ Usable boot.memoryMap a := by
  unfold initializeMemory at ready ⊢
  split
  · next none =>
    rw [if_pos none] at ready
    cases ready
  next some =>
  rw [if_neg some] at ready
  split
  · next full =>
    rw [full] at ready
    cases ready
  next s taken =>
  have start : Paged ({ resetState with hhdmOffset := boot.hhdmOffset.toNat } : State).regions :=
    ⟨.nil, nofun, nofun⟩
  obtain ⟨paged, off, covered⟩ := addEntries_added fits start taken
  refine ⟨paged, off, fun a => ?_⟩
  rw [covered]
  exact or_iff_right (covered_nil a)

/-! ## Allocating -/

/-- What an allocation takes out of the table. -/
structure Taken (regions : List FreeRegion) (base byteCount : Nat) (res : List FreeRegion) :
    Prop where
  paged : Paged res
  aligned : pageSize ∣ base
  bounded : base + byteCount < 2 ^ 64
  notFree : ∀ a, base ≤ a ∧ a < base + byteCount → ¬ Covered res a
  covered : ∀ a, Covered regions a ↔
    Covered res a ∨ (base ≤ a ∧ a < base + byteCount)

/-- What is left of a region after its first bytes are taken. -/
def remainder (region : FreeRegion) (byteCount : Nat) : List FreeRegion :=
  if region.base + byteCount = region.stop then [] else [⟨region.base + byteCount, region.stop⟩]

theorem mem_remainder {rest : FreeRegion} {byteCount : Nat}
    (ins : rest ∈ remainder region byteCount) :
    rest = ⟨region.base + byteCount, region.stop⟩ ∧ region.base + byteCount ≠ region.stop := by
  unfold remainder at ins
  split at ins
  · cases ins
  · next part => exact ⟨mem_singleton.mp ins, part⟩

theorem covered_remainder (region : FreeRegion) (byteCount a : Nat) :
    Covered (remainder region byteCount) a ↔ region.base + byteCount ≤ a ∧ a < region.stop := by
  unfold remainder
  split
  · next whole =>
    exact ⟨fun covered => absurd covered (covered_nil a), fun ins => by omega⟩
  · rw [covered_cons]
    exact or_iff_left (covered_nil a)

theorem taken_front {byteCount : Nat} (paged : Paged (old ++ region :: after))
    (pages : pageSize ∣ byteCount) (fits : byteCount ≤ region.stop - region.base) :
    Taken (old ++ region :: after) region.base byteCount
      (old ++ (remainder region byteCount ++ after)) := by
  obtain ⟨separated, aligned, bounded⟩ := paged
  obtain ⟨beforeApart, restApart, across⟩ := separated_append.mp separated
  obtain ⟨long, beforeRest, afterApart⟩ := separated_cons.mp restApart
  obtain ⟨beforeAligned, restAligned⟩ := ends_append.mp aligned
  obtain ⟨⟨alignedBase, alignedStop⟩, afterAligned⟩ := ends_cons.mp restAligned
  obtain ⟨beforeBounded, restBounded⟩ := ends_append.mp bounded
  obtain ⟨⟨_, boundedStop⟩, afterBounded⟩ := ends_cons.mp restBounded
  have acrossRegion : ∀ left ∈ old, left.stop < region.base := fun left ins =>
    across left ins region mem_cons_self
  have restApart : Separated (remainder region byteCount ++ after) := by
    refine separated_append.mpr ⟨⟨fun rest ins => ?_, ?_⟩, afterApart, fun rest ins next => ?_⟩
    · obtain ⟨rfl, part⟩ := mem_remainder ins
      change region.base + byteCount < region.stop
      omega
    · unfold remainder
      split
      · exact .nil
      · exact pairwise_singleton _ _
    · obtain ⟨rfl, _⟩ := mem_remainder ins
      exact beforeRest next
  have restEnds : ∀ property : Nat → Prop, property (region.base + byteCount) →
      property region.stop → Ends property (remainder region byteCount) := by
    intro property base stop rest ins
    obtain ⟨rfl, _⟩ := mem_remainder ins
    exact ⟨base, stop⟩
  refine ⟨⟨separated_append.mpr ⟨beforeApart, restApart, ?_⟩, ?_, ?_⟩, alignedBase, ?_, ?_, ?_⟩
  · intro left inLeft right inRight
    rcases mem_append.mp inRight with ins | ins
    · obtain ⟨rfl, _⟩ := mem_remainder ins
      exact (acrossRegion left inLeft).trans_le (Nat.le_add_right _ _)
    · exact across left inLeft right (mem_cons_of_mem region ins)
  · exact ends_append.mpr ⟨beforeAligned, ends_append.mpr
      ⟨restEnds _ (Nat.dvd_add alignedBase pages) alignedStop, afterAligned⟩⟩
  · exact ends_append.mpr ⟨beforeBounded, ends_append.mpr
      ⟨restEnds _ (by omega) boundedStop, afterBounded⟩⟩
  · omega
  · rintro a ⟨above, below⟩ covered
    rw [covered_append, covered_append, covered_remainder] at covered
    rcases covered with ⟨left, ins, _, inLeft⟩ | ins | ⟨right, ins, inRight, _⟩
    · have := acrossRegion left ins
      omega
    · omega
    · have : region.stop < right.base := beforeRest right ins
      omega
  · intro a
    have inRegion : region.Holds a ↔
        (region.base + byteCount ≤ a ∧ a < region.stop) ∨
          (region.base ≤ a ∧ a < region.base + byteCount) := by
      unfold HalfOpen.Holds
      omega
    rw [covered_append, covered_cons, inRegion, covered_append, covered_append, covered_remainder]
    simp only [or_assoc, or_comm, or_left_comm]

/-- The two answers of the allocator. -/
theorem allocateContiguousPages_cases (s : State) (pageCount : UInt64) :
    allocateContiguousPages s pageCount = (none, s) ∨ ∃ old region after,
        s.regions = old ++ region :: after ∧ pageCount ≠ 0 ∧
        wrap (pageCount.toNat * pageSize) ≤ region.stop - region.base ∧
        ((allocateContiguousPages s pageCount).1 =
          some ⟨region.base, wrap (region.base + s.hhdmOffset), pageCount⟩) ∧
        (allocateContiguousPages s pageCount).2 = { s with
          regions := if wrap (region.base + wrap (pageCount.toNat * pageSize)) = region.stop then
              old ++ after
            else old ++
              { region with
                base := wrap (region.base + wrap (pageCount.toNat * pageSize)) } :: after } := by
  unfold allocateContiguousPages
  split
  · exact .inl rfl
  next proper =>
  dsimp only
  split
  · exact .inl rfl
  next i found =>
  obtain ⟨ins, long, _⟩ := findIdx?_eq_some_iff_getElem.mp found
  rw [getElem?_eq_getElem ins]
  dsimp only
  have parts : s.regions = s.regions.take i ++ s.regions[i] ::
      s.regions.drop (i + 1) := by
    rw [getElem_cons_drop, take_append_drop]
  have length : (s.regions.take i).length = i := by
    rw [length_take]
    omega
  refine .inr ⟨s.regions.take i, s.regions[i], s.regions.drop (i + 1), parts,
    fun zero => proper (.inr zero), of_decide_eq_true long, rfl, ?_⟩
  congr 1
  generalize s.regions.take i = old at parts length
  generalize s.regions.drop (i + 1) = after at parts
  generalize s.regions[i] = region at parts
  rw [parts, ← length, set_at, removeRegion_at]

/-! ## Runs -/

/-- The requests whose size in bytes is a 64-bit number. -/
def Sized (pageCount : UInt64) : Prop := pageCount.toNat * pageSize < 2 ^ 64

structure Sound (memoryMap : List MemoryRegion) (s : State) (live : List PageAllocation) :
    Prop where
  ready : s.ready = true
  paged : Paged s.regions
  liveProper : ∀ alloc ∈ live, pageSize ∣ alloc.physicalAddress ∧ alloc.pageCount ≠ 0 ∧
    alloc.physicalAddress + alloc.pageCount.toNat * pageSize < 2 ^ 64
  liveNotFree : ∀ alloc ∈ live, ∀ a, alloc.Holds a →
    ¬ Covered s.regions a
  liveApart : live.Pairwise fun first second => ∀ a, first.Holds a → ¬ second.Holds a
  total : ∀ a, Covered s.regions a ∨
    (∃ alloc ∈ live, alloc.Holds a) ↔ Usable memoryMap a

variable {memoryMap : List MemoryRegion} {live : List PageAllocation}

theorem Sound.conserved (ok : Sound memoryMap s live) : Conserved memoryMap s live :=
  ⟨ok.paged.separated, ok.paged.aligned, fun alloc ins => (ok.liveProper alloc ins).1,
    ok.liveNotFree, ok.liveApart, ok.total⟩

/-- An allocation of a sized request takes its bytes out of the table. -/
theorem allocateContiguousPages_taken {pageCount : UInt64} (paged : Paged s.regions)
    (sized : Sized pageCount) :
    allocateContiguousPages s pageCount = (none, s) ∨
      ∃ alloc regions, allocateContiguousPages s pageCount =
          (some alloc, { s with regions := regions }) ∧
        alloc.pageCount = pageCount ∧ pageCount ≠ 0 ∧
        alloc.virtualAddress = wrap (alloc.physicalAddress + s.hhdmOffset) ∧
        Taken s.regions alloc.physicalAddress (pageCount.toNat * pageSize) regions := by
  rcases allocateContiguousPages_cases s pageCount with
    refused | ⟨old, region, after, parts, proper, long, answer, next⟩
  · exact .inl refused
  rw [wrap_of_lt sized] at long next
  rw [parts] at paged
  have taken := taken_front paged (Nat.dvd_mul_left pageSize pageCount.toNat) long
  rw [wrap_of_lt taken.bounded] at next
  refine .inr ⟨_, old ++ (remainder region (pageCount.toNat * pageSize) ++ after),
    Prod.ext answer ?_, rfl, proper, rfl, ?_⟩
  · rw [next, remainder]
    split <;> rfl
  · rw [parts]
    exact taken

theorem Sound.allocate {pageCount : UInt64} (ok : Sound memoryMap s live)
    (sized : Sized pageCount) : Sound memoryMap (allocateContiguousPages s pageCount).2
      ((allocateContiguousPages s pageCount).1.toList ++ live) := by
  rcases allocateContiguousPages_taken ok.paged sized with
    refused | ⟨alloc, regions, granted, n, proper, _, taken⟩
  · rw [refused]
    exact ok
  rw [granted]
  subst n
  have wasFree : ∀ a, alloc.Holds a → Covered s.regions a :=
    fun a holds => (taken.covered a).mpr (.inr holds)
  refine ⟨ok.ready, taken.paged, ?_, ?_, ?_, fun a => ?_⟩
  · exact forall_mem_cons.mpr ⟨⟨taken.aligned, proper, taken.bounded⟩, ok.liveProper⟩
  · refine forall_mem_cons.mpr ⟨taken.notFree, fun o ins a holds covered => ?_⟩
    exact ok.liveNotFree o ins a holds ((taken.covered a).mpr (.inl covered))
  · refine pairwise_cons.mpr ⟨fun o ins a holds held => ?_, ok.liveApart⟩
    exact ok.liveNotFree o ins a held (wasFree a holds)
  · rw [← ok.total, taken.covered, Option.toList_some, singleton_append]
    simp only [mem_cons, exists_eq_or_imp, or_assoc]
    rfl

theorem Sound.long {alloc : PageAllocation} (ok : Sound memoryMap s live) (ins : alloc ∈ live) :
    0 < alloc.pageCount.toNat * pageSize := by
  obtain ⟨_, proper, _⟩ := ok.liveProper alloc ins
  have positive : alloc.pageCount.toNat ≠ 0 := fun zero => proper (UInt64.toNat_inj.mp zero)
  exact Nat.mul_pos (Nat.pos_of_ne_zero positive) (by decide)

/-- What a free of a live allocation asks of the table. -/
theorem Sound.freeAllocation_eq {alloc : PageAllocation} (ok : Sound memoryMap s live)
    (ins : alloc ∈ live) :
    freeAllocation s alloc = match addFreeRegion s.regions alloc.physicalAddress
        (alloc.physicalAddress + alloc.pageCount.toNat * pageSize) with
      | none => (false, s)
      | some regions => (true, { s with regions := regions }) := by
  obtain ⟨aligned, proper, bounded⟩ := ok.liveProper alloc ins
  have small : alloc.pageCount.toNat * pageSize < 2 ^ 64 := by omega
  unfold freeAllocation freePages
  rw [if_neg (by simp [ok.ready, proper, Nat.mod_eq_zero_of_dvd aligned])]
  dsimp only
  rw [wrap_of_lt small, wrap_of_lt bounded]
  exact if_neg (ok.long ins).ne'

theorem Sound.free {alloc : PageAllocation} (ok : Sound memoryMap s live)
    (ins : alloc ∈ live) : Sound memoryMap (freeAllocation s alloc).2
      (if (freeAllocation s alloc).1 then live.erase alloc else live) := by
  obtain ⟨aligned, _, bounded⟩ := ok.liveProper alloc ins
  rw [ok.freeAllocation_eq ins]
  cases found : addFreeRegion s.regions alloc.physicalAddress
      (alloc.physicalAddress + alloc.pageCount.toNat * pageSize) with
  | none => exact ok
  | some regions =>
  have added := addFreeRegion_added ok.paged.separated found
  rw [if_pos rfl]
  have order := perm_cons_erase ins
  have apart := (order.pairwise_iff fun disjoint a second first => disjoint a first second).mp
    ok.liveApart
  rw [pairwise_cons] at apart
  refine ⟨ok.ready, ?_, fun o rest => ok.liveProper o (mem_of_mem_erase rest), ?_,
    apart.2, fun a => ?_⟩
  · exact ok.paged.added added aligned
      (Nat.dvd_add aligned (Nat.dvd_mul_left pageSize _)) (Nat.lt_add_of_pos_right (ok.long ins))
      bounded
  · intro o rest a holds covered
    rcases (added.covered a).mp covered with free | back
    · exact ok.liveNotFree o (mem_of_mem_erase rest) a holds free
    · exact apart.1 o rest a back holds
  · rw [← ok.total, added.covered, or_assoc]
    simp only [order.mem_iff, mem_cons, exists_eq_or_imp]
    rfl

theorem Reachable.sound (ready : (initializeMemory boot).ready = true)
    (fits : ∀ e ∈ boot.memoryMap, e.type = .usable → e.Fits)
    (reachable : Reachable boot Sized s live) : Sound boot.memoryMap s live := by
  induction reachable with
  | start =>
    obtain ⟨paged, _, covered⟩ := initializeMemory_paged ready fits
    refine ⟨ready, paged, nofun, nofun, .nil, fun a => ?_⟩
    rw [covered]
    simp only [not_mem_nil, false_and, exists_false, or_false]
  | allocate pageCount _ sized ih => exact ih.allocate sized
  | free alloc _ ins ih => exact ih.free ins

theorem allocateContiguousPages_hhdmOffset (s : State) (pageCount : UInt64) :
    (allocateContiguousPages s pageCount).2.hhdmOffset = s.hhdmOffset := by
  rcases allocateContiguousPages_cases s pageCount with refused | ⟨_, _, _, _, _, _, _, next⟩
  · rw [refused]
  · rw [next]

theorem freeAllocation_hhdmOffset (s : State) (alloc : PageAllocation) :
    (freeAllocation s alloc).2.hhdmOffset = s.hhdmOffset := by
  unfold freeAllocation freePages
  split
  · rfl
  dsimp only
  split
  · rfl
  split <;> rfl

theorem Reachable.hhdmOffset {allowed : UInt64 → Prop}
    (ready : (initializeMemory boot).ready = true)
    (fits : ∀ e ∈ boot.memoryMap, e.type = .usable → e.Fits)
    (reachable : Reachable boot allowed s live) : s.hhdmOffset = boot.hhdmOffset.toNat := by
  induction reachable with
  | start => exact (initializeMemory_paged ready fits).2.1
  | allocate pageCount _ _ ih => exact (allocateContiguousPages_hhdmOffset _ _).trans ih
  | free alloc _ _ ih => exact (freeAllocation_hhdmOffset _ _).trans ih

/-- Once the allocator is up and as long as every request is a 64-bit number of
bytes, no page is lost, shared or given out twice. -/
theorem pages_conserved (boot : BootInfo) (ready : (initializeMemory boot).ready = true)
    (fits : ∀ entry ∈ boot.memoryMap, entry.type = .usable → entry.Fits)
    (state : State) (live : List PageAllocation) (reachable : Reachable boot Sized state live) :
    Conserved boot.memoryMap state live ∧ ∀ pageCount allocation next,
        allocateContiguousPages state pageCount = (some allocation, next) →
          allocation.pageCount = pageCount := by
  refine ⟨(reachable.sound ready fits).conserved, fun pageCount allocation next granted => ?_⟩
  rcases allocateContiguousPages_cases state pageCount with
    refused | ⟨before, region, after, _, _, _, answer, _⟩
  · rw [refused] at granted
    cases granted
  · rw [granted] at answer
    exact congrArg PageAllocation.pageCount (Option.some.inj answer)

/-- As long as the table is not full, freeing a live allocation gives its pages back. -/
theorem freeAllocation_gives_back (boot : BootInfo) (ready : (initializeMemory boot).ready = true)
    (fits : ∀ entry ∈ boot.memoryMap, entry.type = .usable → entry.Fits)
    (state : State) (live : List PageAllocation) (reachable : Reachable boot Sized state live)
    (allocation : PageAllocation) (isLive : allocation ∈ live)
    (room : state.regions.length < maxFreeRegions) :
    (freeAllocation state allocation).1 = true ∧
      ∀ a, Covered (freeAllocation state allocation).2.regions a ↔ Covered state.regions a ∨
        allocation.Holds a := by
  have sound := reachable.sound ready fits
  have long := sound.long isLive
  have place := (takeWhile_sublist (fun region : FreeRegion =>
    region.base < allocation.physicalAddress)
    (l := state.regions)).length_le
  rw [sound.freeAllocation_eq isLive]
  cases found : addFreeRegion state.regions allocation.physicalAddress
      (allocation.physicalAddress + allocation.pageCount.toNat * pageSize) with
  | none =>
    unfold addFreeRegion insertRegion at found
    rw [if_neg (by omega)] at found
    dsimp only at found
    rw [if_neg (by omega)] at found
    cases found
  | some regions => exact ⟨rfl, (addFreeRegion_added sound.paged.separated found).covered⟩

/-! ## One megabyte of memory -/

/-- A machine with one usable megabyte above the first. -/
def smallBoot : BootInfo where
  hhdmOffset := 0xffff800000000000
  memoryMap := [⟨0x100000, 0x100000, .usable⟩]

theorem smallBoot_fits : ∀ e ∈ smallBoot.memoryMap, e.type = .usable → e.Fits := by
  intro e ins _
  rw [mem_singleton.mp ins]
  exact ⟨by decide, by decide⟩

theorem pages_conserved_small :
    Conserved smallBoot.memoryMap (allocateContiguousPages (initializeMemory smallBoot) 16).2
      (allocateContiguousPages (initializeMemory smallBoot) 16).1.toList :=
  (pages_conserved smallBoot rfl smallBoot_fits
    _ _ (.allocate 16 .start (by unfold Sized pageSize; decide))).1

/-- A request for `2 ^ 52` pages is granted: its size in bytes is taken to be
zero, so all of its pages stay free. -/
theorem allocateContiguousPages_overflow :
    ∃ state live, Reachable smallBoot (fun _ => True) state live ∧
      ¬ Conserved smallBoot.memoryMap state live := by
  refine ⟨_, _, .allocate 0x10000000000000 .start trivial, fun conserved => ?_⟩
  have held : PageAllocation.Holds ⟨0x100000, 0xffff800000100000, 0x10000000000000⟩ 0x100000 := by
    unfold PageAllocation.Holds pageSize
    decide +kernel
  refine conserved.liveNotFree ⟨0x100000, 0xffff800000100000, 0x10000000000000⟩ ?_ 0x100000 held ?_
  · decide +kernel
  · exact ⟨⟨0x100000, 0x200000⟩, by decide +kernel, by decide, by decide⟩

theorem freeAllocation_gives_back_small :
    (freeAllocation (allocateContiguousPages (initializeMemory smallBoot) 16).2
      ⟨0x100000, 0xffff800000100000, 16⟩).1 = true :=
  (freeAllocation_gives_back smallBoot rfl smallBoot_fits _ _
    (.allocate 16 .start (by unfold Sized pageSize; decide)) _ (by decide +kernel)
      (by decide +kernel)).1

/-- 4097 usable pages above the first megabyte. -/
def pagesBoot : BootInfo where
  hhdmOffset := 0xffff800000000000
  memoryMap := [⟨0x100000, 0x1001000, .usable⟩]

/-- The allocation of one of these pages. -/
def pageAt (i : Nat) : PageAllocation :=
  ⟨0x100000 + i * pageSize, wrap (0x100000 + i * pageSize + 0xffff800000000000), 1⟩

/-- The pages from the `n`th on are free. -/
def pagesFrom (n : Nat) : State :=
  { initializeMemory pagesBoot with regions := [⟨0x100000 + n * pageSize, 0x1101000⟩] }

theorem pageAt_bytes (i : Nat) : (pageAt i).pageCount.toNat * pageSize = pageSize := Nat.one_mul _

theorem allocate_page {n : Nat} (few : n < 4096) :
    allocateContiguousPages (pagesFrom n) 1 = (some (pageAt n), pagesFrom (n + 1)) := by
  have up : (initializeMemory pagesBoot).ready = true := by decide +kernel
  have offset : (initializeMemory pagesBoot).hhdmOffset = 0xffff800000000000 := by decide +kernel
  have one : wrap pageSize = pageSize := rfl
  have moved : wrap (0x100000 + n * pageSize + pageSize) = 0x100000 + (n + 1) * pageSize := by
    unfold wrap pageSize
    omega
  have room : pageSize ≤ 0x1101000 - (0x100000 + n * pageSize) ∧
      0x100000 + (n + 1) * pageSize ≠ 0x1101000 := by
    unfold pageSize
    omega
  unfold allocateContiguousPages pagesFrom
  simp [up, offset, one, moved, room, pageAt]

theorem pages_taken {n : Nat} (few : n ≤ 4096) :
    Reachable pagesBoot Sized (pagesFrom n) ((range n).map pageAt).reverse := by
  induction n with
  | zero =>
    have whole : (initializeMemory pagesBoot).regions = [⟨0x100000, 0x1101000⟩] := by decide +kernel
    rw [pagesFrom, Nat.zero_mul, Nat.add_zero, ← whole]
    exact .start
  | succ n ih =>
    have next := (ih (Nat.le_of_succ_le few)).allocate 1 (by unfold Sized pageSize; decide)
    rw [allocate_page few] at next
    rw [range_succ, map_append, reverse_append]
    exact next

theorem addFreeRegion_front {first : FreeRegion} {rest : List FreeRegion} {base stop : Nat}
    (long : base < stop) (before : stop < first.base) (room : rest.length + 1 < maxFreeRegions) :
    addFreeRegion (first :: rest) base stop = some (⟨base, stop⟩ :: first :: rest) := by
  have behind : ¬ first.base < base := by omega
  have few : rest.length + 1 ≠ maxFreeRegions := by omega
  unfold addFreeRegion insertRegion
  simp [long, behind, few, mergeNeighbors, mergePrevious, mergeNext, before]

theorem pagesBoot_sound {s : State} {live : List PageAllocation}
    (reachable : Reachable pagesBoot Sized s live) : Sound pagesBoot.memoryMap s live :=
  reachable.sound (by decide +kernel) fun entry inside _ => by
    rw [mem_singleton.mp inside]
    exact ⟨by decide, by decide⟩

/-- Every second page goes back, from the last one on. -/
theorem pages_freed {k : Nat} (few : k ≤ 2047) : ∃ s live first rest,
    Reachable pagesBoot Sized s live ∧
    s.regions = first :: rest ∧ rest.length = k ∧
      first.base = 0x100000 + (4096 - 2 * k) * pageSize ∧
    ∀ i < 4096 - 2 * k, pageAt i ∈ live := by
  induction k with
  | zero =>
    exact ⟨_, _, _, _, pages_taken (le_refl _), rfl, rfl, rfl,
      fun i few => by simpa using ⟨i, few, rfl⟩⟩
  | succ k ih =>
    obtain ⟨s, live, first, rest, reachable, regions, length, base, held⟩ :=
      ih (Nat.le_of_succ_le few)
    have isLive := held (4096 - 2 * (k + 1)) (by omega)
    have freed := (pagesBoot_sound reachable).freeAllocation_eq isLive
    have front : (pageAt (4096 - 2 * (k + 1))).physicalAddress + pageSize < first.base := by
      rw [base]
      dsimp only [pageAt, pageSize]
      omega
    rw [pageAt_bytes, regions, addFreeRegion_front (Nat.lt_add_of_pos_right (by decide)) front
      (by unfold maxFreeRegions; omega)] at freed
    have next := reachable.free _ isLive
    rw [freed] at next
    refine ⟨_, _, _, _, next, rfl, by rw [length_cons, length], rfl, fun i few => ?_⟩
    refine (mem_erase_of_ne fun same => ?_).mpr (held i (by omega))
    have place := congrArg PageAllocation.physicalAddress same
    dsimp only [pageAt, pageSize] at place
    omega

/-- With 2048 regions free, the page right before the first of them is not taken back
although it would only make that region longer. -/
theorem freeAllocation_loses_page : ∃ state live allocation, Reachable pagesBoot Sized state live ∧
    allocation ∈ live ∧ freeAllocation state allocation = (false, state) ∧
    ∃ merged : List FreeRegion, merged.length ≤ maxFreeRegions ∧ Separated merged ∧
      ∀ a, Covered merged a ↔ Covered state.regions a ∨ allocation.Holds a := by
  obtain ⟨state, live, first, rest, reachable, regions, length, base, held⟩ :=
    pages_freed (le_refl 2047)
  have sound := pagesBoot_sound reachable
  have freed := sound.freeAllocation_eq (held 1 (by decide))
  have full : addFreeRegion state.regions (pageAt 1).physicalAddress
      ((pageAt 1).physicalAddress + (pageAt 1).pageCount.toNat * pageSize) = none := by
    unfold addFreeRegion insertRegion
    simp [regions, length, maxFreeRegions]
  rw [full] at freed
  have separated := sound.paged.separated
  rw [regions, separated_cons] at separated
  refine ⟨state, live, pageAt 1, reachable, held 1 (by decide), freed,
    ⟨(pageAt 1).physicalAddress, first.stop⟩ :: rest, by rw [length_cons, length]; rfl,
    separated_cons.mpr ⟨?_, separated.2⟩, fun a => ?_⟩
  · rw [base] at separated
    exact Nat.lt_trans (show (pageAt 1).physicalAddress < _ by decide) separated.1
  · rw [regions, covered_cons, covered_cons, or_right_comm]
    refine or_congr_left ?_
    have long := separated.1
    unfold HalfOpen.Holds PageAllocation.Holds
    rw [pageAt_bytes]
    dsimp only [pageAt, pageSize] at base ⊢
    omega

end SavanXP.Memory
