import SavanXP.Memory.HeapArenas

/-!
# Runs of the heap

A run takes and returns memory in any order, while other parts of the kernel
take and return pages.  On every state of a run the blocks tile their arenas,
and once everything has been returned one empty arena is left.
-/

namespace SavanXP.Heap

open SavanXP.Library SavanXP.Memory List

/-! ## Marking a block free -/

def Block.freed (b : Block) : Block := { b with free := true }

theorem Block.freed_address (b : Block) : b.freed.address = b.address := rfl

def markFree (s : State) (b : Nat) : State :=
  s.setBlock b fun hdr => { hdr with free := true }

variable {front back : List Block} {b : Block}

theorem HoldsArena.markFree {s : State} {view : ArenaView}
    (holds : HoldsArena s view) (blocks : view.blocks = front ++ ([b] ++ back)) :
    Rewritten s (markFree s b.address) view (front ++ ([b.freed] ++ back)) := by
  have between := holds.between blocks
  have here : (Heap.markFree s b.address).blocks b.address =
      { s.blocks b.address with free := true } :=
    (setBlock_blocks _ _ _ _).trans (if_pos rfl)
  refine holds.rewrite blocks (cons_ne_nil _ _) (cons_ne_nil _ _) (fun _ _ tiles => tiles) ?_
    ⟨?_, ?_, trivial⟩ (forall_mem_cons.mpr ⟨?_, nofun⟩) rfl rfl
  · rintro start stop ⟨rfl, rfl⟩ o away
    have ne : o ≠ b.address := by
      simp only [Block.stop, headerSize] at away
      omega
    refine (setBlock_blocks _ _ _ _).trans ((if_neg ne).trans ?_)
    split
    · next isHead =>
      rw [head?_map] at isHead
      obtain ⟨next, isNext, rfl⟩ := Option.map_eq_some_iff.mp isHead
      obtain ⟨rest, rfl⟩ := head?_eq_some_iff.mp isNext
      -- the block after it already names this one
      have back_eq := (@HoldsArena.between view (front ++ [b]) rest s next holds
        (by rw [blocks]; simp)).previous_eq
      simp only [map_append, map_cons, map_nil, getLast?_concat] at back_eq
      simp only [map_cons, map_nil, getLast?_singleton, Block.freed, ← back_eq]
    · rfl
  · exact (congrArg BlockHeader.previous here).trans between.previous_eq
  · exact (congrArg BlockHeader.next here).trans between.next_eq
  · exact ⟨(congrArg BlockHeader.size here).trans between.stored.size,
      congrArg BlockHeader.free here,
      (congrArg BlockHeader.arena here).trans between.stored.arena,
      (congrArg BlockHeader.magic here).trans between.stored.magic⟩

/-! ## Freeing in one arena -/

/-- The allocated blocks. -/
def usedBlocks (blocks : List Block) : List Block := blocks.filter fun b => !b.free

@[simp]
theorem usedBlocks_append (first second : List Block) :
    usedBlocks (first ++ second) = usedBlocks first ++ usedBlocks second :=
  filter_append ..

theorem usedBlocks_cons_free (isFree : b.free = true) (blocks : List Block) :
    usedBlocks (b :: blocks) = usedBlocks blocks := by
  simp [usedBlocks, isFree]

theorem usedBlocks_cons_used (isUsed : b.free = false) (blocks : List Block) :
    usedBlocks (b :: blocks) = b :: usedBlocks blocks := by
  simp [usedBlocks, isUsed]

/-- A free block joined with what follows it. -/
theorem mergeParts_shape {back : List Block} (isFree : b.free = true)
    (settled : back.IsChain Apart) :
    ∃ joined rest, mergeParts b back = joined :: rest ∧ joined.free = true ∧
      joined.address = b.address ∧ (joined :: rest).IsChain Apart ∧
      usedBlocks rest = usedBlocks back := by
  cases back with
  | nil => exact ⟨b, [], rfl, isFree, rfl, isChain_singleton _, rfl⟩
  | cons next back =>
    obtain ⟨seam, rest⟩ := isChain_cons.mp settled
    rw [mergeParts]
    split
    · next nextFree =>
      refine ⟨b.join next, back, rfl, isFree, rfl, isChain_cons.mpr ⟨?_, rest⟩,
        (usedBlocks_cons_free nextFree back).symm⟩
      intro following isHead both
      exact seam following isHead ⟨nextFree, both.2⟩
    · next nextUsed =>
      refine ⟨b, next :: back, rfl, isFree, rfl, isChain_cons_cons.mpr ⟨?_, settled⟩, rfl⟩
      exact fun both => nextUsed both.2

/-- What freeing an allocated block leaves of its arena. -/
structure Coalesced (s : State) (view : ArenaView) (front back : List Block) (merged : Nat × State)
    (blocks : List Block) : Prop where
  rewritten : Rewritten s merged.2 view blocks
  settled : blocks.IsChain Apart
  used : usedBlocks blocks = usedBlocks front ++ usedBlocks back
  arena : (merged.2.blocks merged.1).arena = some view.address

theorem HoldsArena.coalesce {s : State} {view : ArenaView}
    (holds : HoldsArena s view) (blocks : view.blocks = front ++ ([b] ++ back))
    (settled : view.blocks.IsChain Apart) : ∃ blocks', Coalesced s view front back
      (mergeWithPrevious (mergeWithNext (Heap.markFree s b.address) b.address) b.address)
      blocks' := by
  rw [blocks] at settled
  obtain ⟨frontSettled, rest, seam⟩ := isChain_append.mp settled
  have backSettled := (isChain_append.mp rest).2.1
  have marked := holds.markFree blocks
  have forward := @HoldsArena.merge _ front back _ b.freed marked.holds rfl rfl backSettled
  have both := marked.trans forward
  rw [Block.freed_address] at both
  generalize mergeWithNext (Heap.markFree s b.address) b.address = s' at *
  obtain ⟨joined, t, shape, joinedFree, joinedAddress, laterSettled, laterUsed⟩ :=
    @mergeParts_shape b.freed back rfl backSettled
  rw [shape] at both
  have between := @HoldsArena.between _ front t _ joined both.holds rfl
  have previous_eq := between.previous_eq
  have arena_eq := between.stored.arena
  rw [joinedAddress] at previous_eq arena_eq
  have kept (used : ∀ last ∈ front.getLast?, last.free = false) :
      Coalesced s view front back (b.address, s') (front ++ (joined :: t)) := by
    refine ⟨both, isChain_append.mpr ⟨frontSettled, laterSettled, ?_⟩, ?_, arena_eq⟩
    · intro last isLast first _ bothFree
      rw [used last isLast] at bothFree
      exact absurd bothFree.1 nofun
    · rw [usedBlocks_append, usedBlocks_cons_free joinedFree, laterUsed]
  unfold mergeWithPrevious
  rw [show (s'.blocks b.address).previous = _ from previous_eq]
  rcases eq_nil_or_concat front with rfl | ⟨front, prev, rfl⟩
  · exact ⟨_, kept nofun⟩
  rw [concat_eq_append] at *
  have isLast : ((front ++ [prev]).map Block.address).getLast? = some prev.address := by simp
  have storedPrevious := both.holds.stored prev (by simp [ArenaView.withBlocks])
  rw [isLast]
  dsimp only
  rw [storedPrevious.free]
  split
  · next previousFree =>
    have listed : (view.withBlocks (front ++ [prev] ++ (joined :: t))).blocks =
        front ++ ([prev] ++ (joined :: t)) := append_assoc ..
    have backward := both.holds.merge listed previousFree laterSettled
    obtain ⟨whole, rest, wholeShape, wholeFree, wholeAddress, restSettled, restUsed⟩ :=
      mergeParts_shape previousFree laterSettled
    obtain ⟨frontSettled, _, frontSeam⟩ := isChain_append.mp frontSettled
    rw [wholeShape] at backward
    refine ⟨_, both.trans backward, isChain_append.mpr ⟨frontSettled, restSettled, ?_⟩, ?_, ?_⟩
    · intro last isLast first _ bothFree
      exact frontSeam last isLast prev rfl ⟨bothFree.1, previousFree⟩
    · rw [usedBlocks_append, usedBlocks_append, usedBlocks_cons_free wholeFree, restUsed,
        usedBlocks_cons_free joinedFree, laterUsed, usedBlocks_cons_free previousFree]
      exact congrArg (· ++ _) (append_nil _).symm
    · have stored := (backward.holds.stored whole (by simp [ArenaView.withBlocks])).arena
      rw [wholeAddress] at stored
      exact stored
  · next previousUsed =>
    refine ⟨_, kept fun last isLast => ?_⟩
    rw [getLast?_concat] at isLast
    rw [← Option.some.inj isLast]
    exact Bool.not_eq_true _ |>.mp previousUsed

/-! ## The pages of the arenas -/

theorem Sound.perm {memoryMap : List MemoryRegion} {memory : Memory.State}
    {live live' : List PageAllocation}
    (ok : Sound memoryMap memory live) (perm : live.Perm live') : Sound memoryMap memory live' := by
  refine ⟨ok.ready, ok.paged, fun alloc ins => ok.liveProper alloc (perm.mem_iff.mpr ins),
    fun alloc ins => ok.liveNotFree alloc (perm.mem_iff.mpr ins), ?_, fun a => ?_⟩
  · refine (perm.pairwise_iff ?_).mp ok.liveApart
    exact fun disjoint a second first => disjoint a first second
  · rw [← ok.total]
    simp only [perm.mem_iff]

/-- The kernel maps all usable memory at an offset, with spare addresses above. -/
structure Mapped (memoryMap : List MemoryRegion) (hhdmOffset spare : Nat) : Prop where
  aligned : pageSize ∣ hhdmOffset
  bounded : ∀ a, Usable memoryMap a → a + hhdmOffset + spare < 2 ^ 64
  some_pages : 2 * pageSize ≤ spare ∧ spare < 2 ^ 64

/-- The pages of the arenas, those others hold and those the page allocator
refused to take back are all different. -/
def Backed (memoryMap : List MemoryRegion) (memory : Memory.State) (views : List ArenaView)
    (others : List PageAllocation) : Prop :=
  ∃ leaked, Sound memoryMap memory (views.map ArenaView.allocation ++ (others ++ leaked))

variable {alloc : PageAllocation} {spare : Nat}

/-- The pages of a live allocation, seen through the direct map. -/
theorem Sound.mapped {memoryMap : List MemoryRegion} {memory : Memory.State}
    {live : List PageAllocation}
    {hhdmOffset : Nat} (ok : Sound memoryMap memory live)
    (mapped : Mapped memoryMap hhdmOffset spare)
    (ins : alloc ∈ live) :
    pageSize ∣ alloc.physicalAddress + hhdmOffset ∧ pageSize ≤ alloc.pageCount.toNat * pageSize ∧
      2 * pageSize ≤ alloc.physicalAddress + hhdmOffset ∧
      alloc.physicalAddress + hhdmOffset + alloc.pageCount.toNat * pageSize + spare ≤ 2 ^ 64 := by
  have long := Nat.le_of_dvd (ok.long ins) (Nat.dvd_mul_left pageSize _)
  refine ⟨Nat.dvd_add (ok.liveProper alloc ins).1 mapped.aligned, long, ?_, ?_⟩
  · have first : alloc.Holds alloc.physicalAddress := by
      unfold PageAllocation.Holds pageSize at *
      omega
    have above : minimumPhysicalAddress ≤ alloc.physicalAddress :=
      ((ok.total _).mp (.inr ⟨alloc, ins, first⟩)).1
    unfold minimumPhysicalAddress at above
    unfold pageSize
    omega
  have last : alloc.Holds (alloc.physicalAddress + (alloc.pageCount.toNat * pageSize - 1)) := by
    unfold PageAllocation.Holds pageSize at *
    omega
  have bound := mapped.bounded _ ((ok.total _).mp (.inr ⟨alloc, ins, last⟩))
  unfold pageSize at long ⊢
  unfold pageSize at bound
  omega

/-- Allocations without a common byte lie one before the other. -/
theorem apart_ranges {first second : PageAllocation} (apart : ∀ a, first.Holds a → ¬ second.Holds a)
    (firstLong : 0 < first.pageCount.toNat * pageSize)
    (secondLong : 0 < second.pageCount.toNat * pageSize) :
    first.physicalAddress + first.pageCount.toNat * pageSize ≤ second.physicalAddress ∨
      second.physicalAddress + second.pageCount.toNat * pageSize ≤ first.physicalAddress := by
  have noFirst := apart first.physicalAddress
  have noSecond := apart second.physicalAddress
  unfold PageAllocation.Holds at noFirst noSecond
  omega

/-! ## The invariant -/

def usedOf (views : List ArenaView) : List Block := usedBlocks (views.flatMap ArenaView.blocks)

@[simp]
theorem usedOf_append (first second : List ArenaView) :
    usedOf (first ++ second) = usedOf first ++ usedOf second := by
  simp [usedOf]

@[simp]
theorem usedOf_cons (view : ArenaView) (views : List ArenaView) :
    usedOf (view :: views) = usedBlocks view.blocks ++ usedOf views := by
  simp [usedOf]

theorem mem_usedOf {views : List ArenaView} :
    b ∈ usedOf views ↔ ∃ view ∈ views, b ∈ view.blocks ∧ b.free = false := by
  rw [usedOf, usedBlocks, mem_filter, mem_flatMap, Bool.not_eq_true']
  exact ⟨fun ⟨⟨view, ins, mem⟩, busy⟩ => ⟨view, ins, mem, busy⟩,
    fun ⟨view, ins, mem, busy⟩ => ⟨⟨view, ins, mem⟩, busy⟩⟩

/-- The address `allocate` returns for a block. -/
def Block.payload (b : Block) : Nat := b.address + headerSize

structure Consistent (memoryMap : List MemoryRegion) (hhdmOffset : Nat) (s : State)
    (views : List ArenaView) (live : List Nat) (others : List PageAllocation) : Prop where
  holds : Holds s views
  used : s.usedBytes = ((usedOf views).map Block.size).sum
  live : live.Perm ((usedOf views).map Block.payload)
  offset : s.memory.hhdmOffset = hhdmOffset
  placed : ∀ view ∈ views, view.address = view.allocation.physicalAddress + hhdmOffset
  backed : Backed memoryMap s.memory views others

section Steps

variable {memoryMap : List MemoryRegion} {hhdmOffset : Nat} {s : State}
  {views old after : List ArenaView}
  {view : ArenaView} {live : List Nat} {others : List PageAllocation}

/-- An arena is at least a page long, page aligned, and far from the end of the
address space. -/
theorem Consistent.mapped (consistent : Consistent memoryMap hhdmOffset s views live others)
    (mapped : Mapped memoryMap hhdmOffset spare) (ins : view ∈ views) :
    pageSize ∣ view.address ∧ pageSize ≤ view.capacity ∧ 2 * pageSize ≤ view.address ∧
      view.stop + spare ≤ 2 ^ 64 := by
  obtain ⟨leaked, ok⟩ := consistent.backed
  have facts := Sound.mapped ok mapped (mem_append_left _ (mem_map_of_mem ins))
  rw [← consistent.placed view ins] at facts
  exact facts

/-- The heap with another count of used bytes. -/
def recount (s : State) (usedBytes : Nat) : State := { s with usedBytes := usedBytes }

theorem Rewritten.recount {s' : State} {blocks : List Block}
    (rewritten : Rewritten s s' view blocks)
    (usedBytes : Nat) :
    Rewritten (recount s usedBytes) (recount s' usedBytes) view blocks := by
  refine ⟨rewritten.holds.frame (fun _ _ => rfl) rfl rfl, rewritten.outside, rewritten.arenas, ?_⟩
  exact congrArg (fun globals => { globals with usedBytes := usedBytes }) rewritten.globals

/-- Rewriting the blocks of one arena, with the books kept. -/
theorem Consistent.rewrite {s' : State} {usedBytes : Nat} {blocks : List Block} {live' : List Nat}
    (consistent : Consistent memoryMap hhdmOffset s (old ++ view :: after) live others)
    (rewritten : Rewritten (recount s usedBytes) s' view blocks) (settled : blocks.IsChain Apart)
    (used : usedBytes = ((usedOf (old ++ view.withBlocks blocks :: after)).map Block.size).sum)
    (isLive : live'.Perm ((usedOf (old ++ view.withBlocks blocks :: after)).map Block.payload)) :
    Consistent memoryMap hhdmOffset s' (old ++ view.withBlocks blocks :: after) live' others := by
  have holds : Holds (recount s usedBytes) (old ++ view :: after) :=
    consistent.holds.congr rfl rfl rfl rfl
  have memory : s'.memory = s.memory := congrArg Globals.memory rewritten.globals
  refine ⟨holds.update rewritten settled, ?_, isLive, ?_, ?_, ?_⟩
  · exact (congrArg Globals.usedBytes rewritten.globals).trans used
  · rw [memory]
    exact consistent.offset
  · have places := forall_mem_append.mp consistent.placed
    have t := forall_mem_cons.mp places.2
    exact forall_mem_append.mpr ⟨places.1, forall_mem_cons.mpr ⟨t.1, t.2⟩⟩
  · obtain ⟨leaked, ok⟩ := consistent.backed
    rw [memory]
    refine ⟨leaked, ?_⟩
    simp only [map_append, map_cons] at ok ⊢
    exact ok

variable {lay : AllocationLayout}

/-! ## Allocating -/

theorem cutParts_used {size : Nat} (placed : Placed b size lay) :
    ∃ taken, usedBlocks (cutParts b size lay) = [taken] ∧ taken ∈ cutParts b size lay ∧
      taken.address = lay.headerAddress ∧ taken.free = false ∧ size ≤ taken.size := by
  have := placed.trailing
  unfold cutParts leadingPart allocatedPart
  split <;> split <;> simp [usedBlocks]
  all_goals omega

/-- An allocated block holds the request that was given its payload. -/
def Serves (views : List ArenaView) (size align a : Nat) : Prop :=
  ∃ view ∈ views, ∃ b ∈ view.blocks, b.free = false ∧ b.payload = a ∧ size ≤ b.size ∧ align ∣ a

variable {size align : Nat}

theorem Consistent.take
    (consistent : Consistent memoryMap hhdmOffset s (old ++ view :: after) live others)
    (mapped : Mapped memoryMap hhdmOffset spare) (req : Request spare size align)
    (blocks : view.blocks = front ++ ([b] ++ back))
    (found : computeLayout (s.blocks b.address) b.address size align = some lay) :
    ∃ blocks', ¬ (view.withBlocks blocks').Idle ∧
      Serves (old ++ view.withBlocks blocks' :: after) size align
        (takeBlock s b.address lay size).1 ∧
      Consistent memoryMap hhdmOffset (takeBlock s b.address lay size).2
        (old ++ view.withBlocks blocks' :: after)
        ((takeBlock s b.address lay size).1 :: live) others := by
  have ins : view ∈ old ++ view :: after := mem_append_right _ mem_cons_self
  have holds := consistent.holds
  have held := holds.arenas view ins
  have mem : b ∈ view.blocks := by rw [blocks]; simp
  have stored := held.stored b mem
  obtain ⟨_, _, _, room⟩ := consistent.mapped mapped ins
  obtain ⟨_, below⟩ := held.inside mem
  have reaches : Reaches b size align := by
    have := req.sum
    unfold pageSize at this
    refine ⟨req.alignment.positive, ?_, by omega⟩
    simp only [Block.stop, headerSize] at below
    omega
  obtain ⟨isFree, placed, aligned⟩ := computeLayout_placed stored reaches found
  have rewritten := held.commit blocks placed
  have settled := holds.settled view ins
  rw [blocks] at settled
  obtain ⟨taken, takenUsed, takenMember, takenAddress, takenBusy, enough⟩ := cutParts_used placed
  have takenInside : taken ∈ (view.withBlocks (front ++ (cutParts b size lay ++ back))).blocks :=
    mem_append_right _ (mem_append_left _ takenMember)
  have takenSize := (rewritten.holds.stored taken takenInside).size
  rw [takenAddress] at takenSize
  unfold takeBlock
  dsimp only
  rw [commitAllocation_allocated placed, takenSize]
  have perm : (usedOf (old ++ view.withBlocks
    (front ++ (cutParts b size lay ++ back)) :: after)).Perm
      (taken :: usedOf (old ++ view :: after)) := by
    have now : usedBlocks (view.withBlocks (front ++ (cutParts b size lay ++ back))).blocks =
        usedBlocks front ++ taken :: usedBlocks back := by
      simp [ArenaView.withBlocks, takenUsed]
    have then_eq : usedBlocks view.blocks = usedBlocks front ++ usedBlocks back := by
      rw [blocks, usedBlocks_append, usedBlocks_append, usedBlocks_cons_free isFree]
      rfl
    simp only [usedOf_append, usedOf_cons, now, then_eq]
    exact ((perm_middle.append_right _).append_left _).trans perm_middle
  have ready := settled_replace settled isFree (cutParts_settled b size lay)
  refine ⟨front ++ (cutParts b size lay ++ back), fun idle => ?_,
    ⟨_, mem_append_right _ mem_cons_self, taken, takenInside, takenBusy, ?_, enough, aligned⟩,
    consistent.rewrite (rewritten.recount _) ready ?_ ?_⟩
  · have := idle taken takenInside
    rw [takenBusy] at this
    cases this
  · rw [Block.payload, takenAddress]
  · rw [(perm.map Block.size).sum_nat, map_cons, sum_cons,
      show (commitAllocation s b.address lay size).1.usedBytes = s.usedBytes from
        congrArg Globals.usedBytes rewritten.globals, consistent.used, Nat.add_comm]
  · refine Perm.trans ?_ (perm.map Block.payload).symm
    rw [map_cons, Block.payload, takenAddress]
    exact consistent.live.cons _

/-- The requests that can be rounded and added to an address of the heap. -/
def Bounded (spare size align : Nat) : Prop :=
  size + 3 * align + 2 * pageSize ≤ spare

theorem Bounded.request (bounded : Bounded spare size align) (small : spare < 2 ^ 64) :
    size ≤ alignUp size minimumAlignment ∧
      Request spare (alignUp size minimumAlignment) (normalizeAlignment align) := by
  have normal := normalizeAlignment_le align
  unfold Bounded pageSize at bounded
  have rounded := @alignUp_bounds size minimumAlignment (by decide)
    (by unfold minimumAlignment; omega)
  refine ⟨rounded.1, ?_, normalizeAlignment_alignment align⟩
  unfold minimumAlignment pageSize at *
  omega

/-- The arenas without allocated blocks. -/
def idleArenas (views : List ArenaView) : Nat := views.countP fun view => view.blocks.all Block.free

theorem idleArenas_around (old after : List ArenaView) (view : ArenaView) :
    idleArenas (old ++ view :: after) = idleArenas (old ++ after) + idleArenas [view] := by
  simp only [idleArenas, countP_append, countP_cons, countP_nil]
  omega

theorem idleArenas_busy {view : ArenaView} (busy : ¬ view.Idle) : idleArenas [view] = 0 := by
  rw [idleArenas, countP_eq_zero]
  intro o mem isIdle
  obtain rfl := mem_singleton.mp mem
  exact busy (all_eq_true.mp isIdle)

section Fresh

variable (opened : Consistent memoryMap hhdmOffset s (freshView alloc :: views) live others)
  (mapped : Mapped memoryMap hhdmOffset spare) (covers : Covers size align)
  (proper : Alignment align) (low : align + pageSize ≤ spare)
  (n : alloc.pageCount.toNat = arenaPages size align)
include opened mapped covers proper low n

/-- An arena has room for the request it was made for exactly when that is roomy. -/
theorem Consistent.fresh_fits :
    (computeLayout (s.blocks (arenaPayloadStart alloc.virtualAddress))
      (arenaPayloadStart alloc.virtualAddress) size align).isSome ↔ Roomy size align := by
  have stored := (opened.holds.arenas _ mem_cons_self).stored _ mem_cons_self
  obtain ⟨aligned, _, above, bound⟩ := opened.mapped mapped mem_cons_self
  refine computeLayout_fresh covers proper aligned above ?_ stored.free
    (by rw [← n]; exact stored.size)
  rw [← n]
  simp only [freshView, ArenaView.stop, ArenaView.capacity] at bound
  omega

theorem Consistent.fresh (roomy : Roomy size align) : ∃ lay,
    computeLayout (s.blocks (arenaPayloadStart alloc.virtualAddress))
      (arenaPayloadStart alloc.virtualAddress) size align = some lay ∧
    findAllocatedBlock s size align = some (arenaPayloadStart alloc.virtualAddress, lay) := by
  obtain ⟨lay, fits⟩ := Option.isSome_iff_exists.mp
    ((opened.fresh_fits mapped covers proper low n).mpr roomy)
  exact ⟨lay, fits, opened.holds.finds rfl fits⟩

/-- Where nothing had fitted, the search finds room in the new arena or none. -/
theorem Consistent.fresh_finds {old : State} (holds : Holds old views)
    (unfit : findAllocatedBlock old size align = none) :
    (findAllocatedBlock s size align).isSome ↔ Roomy size align := by
  constructor
  · intro found
    by_contra cramped
    have fresh : computeLayout (s.blocks (arenaPayloadStart alloc.virtualAddress))
        (arenaPayloadStart alloc.virtualAddress) size align = none := by
      rw [← Option.not_isSome_iff_eq_none, opened.fresh_fits mapped covers proper low n]
      exact cramped
    have nothing : findAllocatedBlock s size align = none := by
      refine opened.holds.unfit_iff.mpr (forall_mem_cons.mpr ⟨?_, fun view ins b mem => ?_⟩)
      · exact forall_mem_cons.mpr ⟨fresh, forall_mem_nil _⟩
      · have now := (opened.holds.arenas view (mem_cons_of_mem _ ins)).stored b mem
        rw [((holds.arenas view ins).stored b mem).computeLayout now]
        exact holds.unfit_iff.mp unfit view ins b mem
    rw [nothing] at found
    cases found
  · intro roomy
    obtain ⟨lay, _, finds⟩ := opened.fresh mapped covers proper low n roomy
    rw [finds]
    rfl

end Fresh

theorem openArena_globals (s : State) (alloc : PageAllocation) :
    (openArena s alloc).globals =
      { s.globals with
        firstArena := some alloc.virtualAddress
        arenaCount := s.arenaCount + 1 } := by
  unfold openArena
  cases s.firstArena <;> rfl

section

variable (consistent : Consistent memoryMap hhdmOffset s views live others)
include consistent

/-- The heap after the page allocator has been used by others. -/
theorem Consistent.memory {memory : Memory.State} {others' : List PageAllocation}
    (offset : memory.hhdmOffset = hhdmOffset) (backed : Backed memoryMap memory views others') :
    Consistent memoryMap hhdmOffset { s with memory := memory } views live others' :=
  { consistent with holds := consistent.holds.congr rfl rfl rfl rfl, offset, backed }

variable (mapped : Mapped memoryMap hhdmOffset spare)
include mapped

/-- An arena over pages that nobody else holds. -/
theorem Consistent.open {memory : Memory.State} {leaked : List PageAllocation}
    (offset : memory.hhdmOffset = hhdmOffset)
    (isVirtual : alloc.virtualAddress = wrap (alloc.physicalAddress + hhdmOffset))
    (ok : Sound memoryMap memory
      (alloc :: (views.map ArenaView.allocation ++ (others ++ leaked)))) :
    Consistent memoryMap hhdmOffset (openArena { s with memory := memory } alloc)
      (freshView alloc :: views) live others := by
  obtain ⟨_, long, _, bound⟩ := Sound.mapped ok mapped mem_cons_self
  have page : 0 < pageSize := by decide
  rw [wrap_of_lt (by omega)] at isVirtual
  have apart : ∀ view ∈ views, Disjoint (freshView alloc) view := by
    intro view ins
    have mem := mem_append_left (others ++ leaked) (mem_map_of_mem (f := ArenaView.allocation) ins)
    obtain ⟨_, viewLong, _⟩ := Sound.mapped ok mapped (mem_cons_of_mem alloc mem)
    have ranges := apart_ranges ((pairwise_cons.mp ok.liveApart).1 view.allocation mem)
      (page.trans_le long) (page.trans_le viewLong)
    have place := consistent.placed view ins
    simp only [Disjoint, freshView, ArenaView.stop, ArenaView.capacity, isVirtual, place]
    omega
  have globals := openArena_globals { s with memory := memory } alloc
  have kept : (openArena { s with memory := memory } alloc).memory = memory :=
    congrArg Globals.memory globals
  refine ⟨?_, ?_, ?_, ?_, ?_, leaked, ?_⟩
  · have held : Holds { s with memory := memory } views := consistent.holds.congr rfl rfl rfl rfl
    exact held.openArena (le_trans (show 96 ≤ pageSize by decide) long) apart
  · exact (congrArg Globals.usedBytes globals).trans consistent.used
  · exact consistent.live
  · rw [kept]
    exact offset
  · exact forall_mem_cons.mpr ⟨isVirtual, consistent.placed⟩
  · rw [kept]
    exact ok

theorem Consistent.acquire (size align : Nat) :
    acquireArena s size align = (false, s) ∨ ∃ alloc, (acquireArena s size align).1 = true ∧
        alloc.pageCount.toNat = arenaPages size align ∧ arenaPages size align ≠ 0 ∧
        Consistent memoryMap hhdmOffset (acquireArena s size align).2
          (freshView alloc :: views) live others := by
  have few := arenaPages_bytes size align
  have n : (UInt64.ofNat (arenaPages size align)).toNat = arenaPages size align := by
    refine UInt64.toNat_ofNat_of_lt ?_
    unfold pageSize at few
    exact Nat.lt_of_le_of_lt (Nat.le_mul_of_pos_right _ (by decide)) few
  have sized : Sized (UInt64.ofNat (arenaPages size align)) := by
    unfold Sized
    rwa [n]
  obtain ⟨leaked, ok⟩ := consistent.backed
  have allocated := ok.allocate sized
  unfold acquireArena
  dsimp only
  rcases allocateContiguousPages_taken ok.paged sized with
    refused | ⟨alloc, regions, granted, isCount, positive, isVirtual, _⟩
  · rw [refused]
    exact .inl rfl
  rw [granted] at allocated ⊢
  rw [consistent.offset] at isVirtual
  refine .inr ⟨alloc, rfl, isCount ▸ n, fun none => positive ?_,
    consistent.open mapped consistent.offset isVirtual allocated⟩
  rw [none]
  rfl

/-- Taking the block that the search found. -/
theorem Consistent.search {b : Nat} (req : Request spare size align)
    (found : findAllocatedBlock s size align = some (b, lay)) :
    ∃ views', views'.length = views.length ∧ idleArenas views' ≤ idleArenas views ∧
      Serves views' size align (takeBlock s b lay size).1 ∧
      Consistent memoryMap hhdmOffset (takeBlock s b lay size).2 views'
        ((takeBlock s b lay size).1 :: live) others := by
  obtain ⟨view, ins, taken, mem, rfl, fits⟩ := consistent.holds.found found
  obtain ⟨old, after, rfl⟩ := append_of_mem ins
  obtain ⟨front, back, parts⟩ := append_of_mem mem
  obtain ⟨blocks', busy, res⟩ := consistent.take mapped req parts fits
  refine ⟨_, by simp, ?_, res⟩
  rw [idleArenas_around, idleArenas_around, idleArenas_busy busy]
  exact Nat.le_add_right _ _

/-- Whatever the request, the arenas taken for it stay in the list; a roomy one needs
at most one arena more. -/
theorem Consistent.allocateLoop {rounds : Nat} (req : Request spare size align) :
    ∃ views', views.length ≤ views'.length ∧
      (∀ a, (allocateLoop size align rounds s).1 = some a → Serves views' size align a) ∧
      (2 ≤ rounds → Roomy size align →
        idleArenas views' ≤ idleArenas views ∧ views'.length ≤ views.length + 1) ∧
      Consistent memoryMap hhdmOffset (allocateLoop size align rounds s).2 views'
        ((allocateLoop size align rounds s).1.toList ++ live) others := by
  induction rounds generalizing s views with
  | zero => exact ⟨views, le_refl _, nofun, nofun, consistent⟩
  | succ rounds ih =>
    rw [allocateLoop]
    split
    · next b lay found =>
      obtain ⟨views', long, idle, serves, res⟩ := consistent.search mapped req found
      exact ⟨views', long.ge, fun a isAddress => Option.some.inj isAddress ▸ serves,
        fun _ _ => ⟨idle, by omega⟩, res⟩
    rcases consistent.acquire mapped size align with refused | ⟨alloc, acquired, n, _, opened⟩
    · rw [refused]
      exact ⟨views, le_refl _, nofun, fun _ _ => ⟨le_refl _, Nat.le_succ _⟩, consistent⟩
    dsimp only
    rw [acquired, if_neg nofun]
    by_cases served : 2 ≤ rounds + 1 ∧ Roomy size align
    · -- the next round takes its block from the new arena
      obtain ⟨rounds, rfl⟩ := Nat.exists_eq_succ_of_ne_zero (show rounds ≠ 0 by omega)
      have sum := req.sum
      have spare_lt := mapped.some_pages.2
      have covers : Covers size align := arenaPages_enough (by omega)
      obtain ⟨lay, fits, finds⟩ :=
        opened.fresh mapped covers req.alignment (by omega) n served.2
      rw [allocateLoop, finds]
      obtain ⟨blocks', busy, serves, res⟩ := @Consistent.take [] [] _ _ _ _ _ [] views
        (freshView alloc)
        _ _ _ _ _ opened mapped req rfl fits
      refine ⟨_, by simp, fun a isAddress => Option.some.inj isAddress ▸ serves,
        fun _ _ => ⟨?_, by simp⟩, res⟩
      rw [idleArenas_around, idleArenas_busy busy]
      exact le_refl _
    · obtain ⟨views', long, serves, _, res⟩ := ih opened
      exact ⟨views', Nat.le_of_succ_le long, serves,
        fun many roomy => absurd ⟨many, roomy⟩ served, res⟩

omit consistent mapped in
theorem takeBlock_arenaCount (s : State) (b : Nat) (lay : AllocationLayout) (size : Nat) :
    (takeBlock s b lay size).2.arenaCount = s.arenaCount :=
  congrArg Globals.arenaCount (@commitAllocation_globals s ⟨b, 0, true⟩ size lay)

omit consistent mapped in
/-- A search that fails, a new arena, and a search that finds room. -/
theorem allocateLoop_second {rounds : Nat} {acquired : State} {b : Nat}
    (unfit : findAllocatedBlock s size align = none)
    (taken : acquireArena s size align = (true, acquired))
    (found : findAllocatedBlock acquired size align = some (b, lay)) :
    allocateLoop size align (rounds + 2) s =
      (some (takeBlock acquired b lay size).1, (takeBlock acquired b lay size).2) := by
  rw [Heap.allocateLoop, unfit, taken]
  dsimp only
  rw [if_neg nofun, Heap.allocateLoop, found]

theorem Consistent.allocate (bounded : Bounded spare size align) :
    ∃ views', views.length ≤ views'.length ∧ (∀ a, (allocate s size align).1 = some a →
        Serves views' (alignUp size minimumAlignment) (normalizeAlignment align) a) ∧
      (Roomy (alignUp size minimumAlignment) (normalizeAlignment align) →
        idleArenas views' ≤ idleArenas views ∧ views'.length ≤ views.length + 1) ∧
      Consistent memoryMap hhdmOffset (allocate s size align).2 views'
        ((Heap.allocate s size align).1.toList ++ live) others := by
  unfold Heap.allocate
  split
  · exact ⟨views, le_refl _, nofun, fun _ => ⟨le_refl _, Nat.le_succ _⟩, consistent⟩
  obtain ⟨views', long, serves, few, res⟩ := consistent.allocateLoop mapped
    (bounded.request mapped.some_pages.2).2
  exact ⟨views', long, serves, few (Nat.le_add_left ..), res⟩

end

/-! ## Freeing -/

variable {tidy : Prop}

theorem HoldsArena.blockIsValid (holds : HoldsArena s view) (mem : b ∈ view.blocks) :
    blockIsValid s b.address = true := by
  have stored := holds.stored b mem
  obtain ⟨low, high⟩ := holds.inside mem
  unfold Heap.blockIsValid
  rw [stored.magic, stored.arena, stored.size]
  dsimp only
  rw [Arena.capacity, holds.allocation]
  exact Bool.and_eq_true_iff.mpr ⟨decide_eq_true rfl, decide_eq_true ⟨low, high⟩⟩

/-- The pages of an arena that goes back are free or nobody's. -/
theorem Backed.release {memory : Memory.State}
    (backed : Backed memoryMap memory (old ++ view :: after) others) :
    Backed memoryMap (freeAllocation memory view.allocation).2 (old ++ after) others := by
  obtain ⟨leaked, ok⟩ := backed
  have front : ((old ++ view :: after).map ArenaView.allocation ++ (others ++ leaked)).Perm
      (view.allocation :: ((old ++ after).map ArenaView.allocation ++ (others ++ leaked))) := by
    rw [map_append, map_cons, map_append]
    exact perm_middle.append_right _
  have freed := (Sound.perm ok front).free mem_cons_self
  rw [erase_cons_head] at freed
  split at freed
  · exact ⟨leaked, freed⟩
  · refine ⟨view.allocation :: leaked, Sound.perm freed ?_⟩
    exact perm_middle.symm.trans (perm_middle.symm.append_left _)

/-- Pages that others give back are free or stay theirs. -/
theorem Backed.returnPages {memory : Memory.State}
    (backed : Backed memoryMap memory views others) (ins : alloc ∈ others) :
    Backed memoryMap (freeAllocation memory alloc).2 views
      (if (freeAllocation memory alloc).1 then others.erase alloc else others) := by
  obtain ⟨leaked, ok⟩ := backed
  have front : (views.map ArenaView.allocation ++ (others ++ leaked)).Perm
      (alloc :: (views.map ArenaView.allocation ++ (others.erase alloc ++ leaked))) := by
    refine Perm.trans ?_ perm_middle
    exact ((perm_cons_erase ins).append_right leaked).append_left _
  have freed := (Sound.perm ok front).free mem_cons_self
  rw [erase_cons_head] at freed
  split at freed <;> rename_i returned <;> refine ⟨leaked, ?_⟩
  · rwa [if_pos returned]
  · rw [if_neg returned]
    exact Sound.perm freed front.symm

/-- An idle arena goes back to the page allocator, unless it is the last one. -/
theorem Consistent.release
    (consistent : Consistent memoryMap hhdmOffset s (old ++ view :: after) live others)
    (mapped : Mapped memoryMap hhdmOffset spare) (idle : tidy → idleArenas (old ++ after) ≤ 1) :
    ∃ views', (tidy → idleArenas views' ≤ 1) ∧ views' ≠ [] ∧
      Consistent memoryMap hhdmOffset (releaseArena s (some view.address)) views' live others := by
  have ins : view ∈ old ++ view :: after := mem_append_right _ mem_cons_self
  have holds := consistent.holds
  obtain ⟨_, long, _⟩ := consistent.mapped mapped ins
  have fullyFree := holds.arenaIsFullyFree_iff ins (le_trans (show 96 ≤ pageSize by decide) long)
  by_cases kept : s.arenaCount ≤ 1 ∨ arenaIsFullyFree s view.address = false
  · rw [releaseArena_kept kept]
    refine ⟨_, fun isTidy => ?_, by simp, consistent⟩
    rw [idleArenas_around]
    rcases kept with alone | busy
    · rw [holds.count, length_append, length_cons] at alone
      have beforeNil : old = [] := length_eq_zero_iff.mp (by omega)
      have afterNil : after = [] := length_eq_zero_iff.mp (by omega)
      rw [beforeNil, afterNil]
      exact Nat.add_le_add le_rfl countP_le_length
    · rw [idleArenas_busy fun isIdle => ?_]
      · exact idle isTidy
      · rw [fullyFree.mpr isIdle] at busy
        cases busy
  · have returned := holds.release kept
    have globals := releaseArena_globals kept
    have alloc := (holds.arenas view ins).allocation
    rw [alloc] at globals
    have memory : (releaseArena s (some view.address)).memory =
        (freeAllocation s.memory view.allocation).2 := congrArg Globals.memory globals
    rw [not_or, Bool.not_eq_false] at kept
    have isIdle := fullyFree.mp kept.2
    have noUsed : usedOf (old ++ after) = usedOf (old ++ view :: after) := by
      have none : usedBlocks view.blocks = [] := filter_eq_nil_iff.mpr fun b mem => by
        simp [isIdle b mem]
      simp [none]
    refine ⟨old ++ after, idle, ?_, returned, ?_, ?_, ?_, ?_, ?_⟩
    · intro none
      have n := holds.count
      rw [length_append, length_cons] at n
      have := congrArg length none
      rw [length_append, length_nil] at this
      omega
    · rw [noUsed]
      exact (congrArg Globals.usedBytes globals).trans consistent.used
    · rw [noUsed]
      exact consistent.live
    · rw [memory, freeAllocation_hhdmOffset]
      exact consistent.offset
    · have places := forall_mem_append.mp consistent.placed
      exact forall_mem_append.mpr ⟨places.1, (forall_mem_cons.mp places.2).2⟩
    · rw [memory]
      exact consistent.backed.release

theorem Consistent.free {a : Nat} (consistent : Consistent memoryMap hhdmOffset s views live others)
    (idle : tidy → idleArenas views ≤ 1) (mapped : Mapped memoryMap hhdmOffset spare)
    (isLive : a ∈ live) :
    ∃ s' views', free s a = some s' ∧ (tidy → idleArenas views' ≤ 1) ∧ views' ≠ [] ∧
      Consistent memoryMap hhdmOffset s' views' (live.erase a) others := by
  obtain ⟨b, isUsed, rfl⟩ := mem_map.mp (consistent.live.mem_iff.mp isLive)
  obtain ⟨view, ins, mem, busy⟩ := mem_usedOf.mp isUsed
  obtain ⟨old, after, rfl⟩ := append_of_mem ins
  obtain ⟨front, back, parts⟩ := append_of_mem mem
  have held := consistent.holds.arenas view ins
  have stored := held.stored b mem
  have start : b.payload - headerSize = b.address := Nat.add_sub_cancel ..
  have viewBusy : ¬ view.Idle := fun isIdle => by
    have := isIdle b mem
    rw [busy] at this
    cases this
  rw [idleArenas_around, idleArenas_busy viewBusy] at idle
  have counted : HoldsArena (recount s (s.usedBytes - b.size)) view :=
    held.frame (fun _ _ => rfl) rfl rfl
  obtain ⟨blocks, coalesced⟩ := counted.coalesce parts (consistent.holds.settled view ins)
  have perm : (usedOf (old ++ view :: after)).Perm
      (b :: usedOf (old ++ view.withBlocks blocks :: after)) := by
    have then_eq : usedBlocks view.blocks = usedBlocks front ++ b :: usedBlocks back := by
      rw [parts, usedBlocks_append, usedBlocks_cons_used busy]
    have now : usedBlocks (view.withBlocks blocks).blocks = usedBlocks front ++ usedBlocks back :=
      coalesced.used
    simp only [usedOf_append, usedOf_cons, now, then_eq]
    exact ((perm_middle.append_right _).append_left _).trans perm_middle
  have total : s.usedBytes = b.size +
      ((usedOf (old ++ view.withBlocks blocks :: after)).map Block.size).sum := by
    rw [consistent.used, (perm.map Block.size).sum_nat, map_cons, sum_cons]
  have erased := (consistent.live.trans (perm.map Block.payload)).erase b.payload
  rw [map_cons, erase_cons_head] at erased
  have rewritten := consistent.rewrite coalesced.rewritten coalesced.settled (by omega) erased
  obtain ⟨views', quiet, some, res⟩ := rewritten.release mapped idle
  refine ⟨_, views', ?_, quiet, some, res⟩
  have valid : ¬ (blockIsValid s b.address = false ∨ (s.blocks b.address).free = true) := by
    rw [held.blockIsValid mem, stored.free, busy]
    exact fun either => either.elim nofun nofun
  unfold free
  dsimp only
  rw [start, if_neg valid, stored.size, if_pos (by omega)]
  exact congrArg (fun arena => Option.some (releaseArena _ arena)) coalesced.arena

end Steps

/-! ## Runs -/

/-- The states after the heap came up and was called any number of times, with
the addresses not yet freed and the pages that others hold. -/
inductive Reachable (boot : BootInfo) (allowed : Nat → Nat → Prop) :
    State → List Nat → List PageAllocation → Prop
  | start {memory : Memory.State} {others : List PageAllocation} (blocks : Nat → BlockHeader)
      (arenas : Nat → Arena) : Memory.Reachable boot Sized memory others →
      (initializeHeap blocks arenas memory).ready = true →
      Reachable boot allowed (initializeHeap blocks arenas memory) [] others
  | allocate {s : State} {live : List Nat} {others : List PageAllocation} (size align : Nat) :
      Reachable boot allowed s live others → allowed size align →
      Reachable boot allowed (allocate s size align).2
        ((allocate s size align).1.toList ++ live) others
  | free {s s' : State} {live : List Nat} {others : List PageAllocation} (a : Nat) :
      Reachable boot allowed s live others → a ∈ live → free s a = some s' →
      Reachable boot allowed s' (live.erase a) others
  | takePages {s : State} {live : List Nat} {others : List PageAllocation} (pageCount : UInt64) :
      Reachable boot allowed s live others → Sized pageCount →
      Reachable boot allowed
        { s with memory := (allocateContiguousPages s.memory pageCount).2 } live
        ((allocateContiguousPages s.memory pageCount).1.toList ++ others)
  | returnPages {s : State} {live : List Nat} {others : List PageAllocation}
      (alloc : PageAllocation) :
      Reachable boot allowed s live others → alloc ∈ others →
      Reachable boot allowed { s with memory := (freeAllocation s.memory alloc).2 } live
        (if (freeAllocation s.memory alloc).1 then others.erase alloc else others)

/-- The requests the heap can serve from the arena it would take for them. -/
def Servable (spare size align : Nat) : Prop :=
  Bounded spare size align ∧ Roomy (alignUp size minimumAlignment) (normalizeAlignment align)

/-- The blocks tile their arenas without free neighbours, the allocated ones are
those that were handed out, each of them can be freed, the count of used bytes
is their total, and once every address has been freed one arena is left, which
is one free block. -/
def Tiled (s : State) (live : List Nat) : Prop :=
  ∃ views, Holds s views ∧ s.usedBytes = ((usedOf views).map Block.size).sum ∧
    live.Perm ((usedOf views).map Block.payload) ∧ (∀ a ∈ live, (free s a).isSome) ∧
    (live = [] → ∃ view, views = [view] ∧
      view.blocks = [⟨arenaPayloadStart view.address, view.capacity - 96, true⟩])

theorem initializeHeap_consistent {boot : BootInfo} {spare : Nat} {memory : Memory.State}
    {others : List PageAllocation}
    {blocks : Nat → BlockHeader} {arenas : Nat → Arena} (ok : Sound boot.memoryMap memory others)
    (offset : memory.hhdmOffset = boot.hhdmOffset.toNat)
    (mapped : Mapped boot.memoryMap boot.hhdmOffset.toNat spare)
    (ready : (initializeHeap blocks arenas memory).ready = true) :
    ∃ views, idleArenas views ≤ 1 ∧ views ≠ [] ∧
      Consistent boot.memoryMap boot.hhdmOffset.toNat (initializeHeap blocks arenas memory) views
        [] others := by
  have empty : Consistent boot.memoryMap boot.hhdmOffset.toNat
    ⟨blocks, arenas, none, 0, 0, false, memory⟩ []
      [] others :=
    ⟨⟨rfl, trivial, rfl, nofun, nofun, .nil⟩, rfl, .nil, offset, nofun, [], by simpa using ok⟩
  rcases empty.acquire mapped minimumAlignment minimumAlignment with
    refused | ⟨alloc, _, _, _, opened⟩
  · rw [initializeHeap, refused] at ready
    cases ready
  · refine ⟨[freshView alloc], countP_le_length, cons_ne_nil _ _, ?_⟩
    exact { opened with holds := opened.holds.congr rfl rfl rfl rfl }

section Runs

variable {boot : BootInfo} {spare : Nat} (ready : (initializeMemory boot).ready = true)
  (fits : ∀ e ∈ boot.memoryMap, e.type = .usable → e.Fits)
  (mapped : Mapped boot.memoryMap boot.hhdmOffset.toNat spare)

include ready fits mapped

theorem Reachable.consistent {allowed : Nat → Nat → Prop} {tidy : Prop}
    (bounded : ∀ size align, allowed size align → Bounded spare size align)
    (roomy : tidy → ∀ size align, allowed size align →
      Roomy (alignUp size minimumAlignment) (normalizeAlignment align))
    {s : State} {live : List Nat} {others : List PageAllocation}
    (reachable : Reachable boot allowed s live others) :
    ∃ views, (tidy → idleArenas views ≤ 1) ∧ views ≠ [] ∧
      Consistent boot.memoryMap boot.hhdmOffset.toNat s views live others := by
  induction reachable with
  | start blocks arenas pages up =>
    obtain ⟨views, idle, facts⟩ := @initializeHeap_consistent _ _ _ _ blocks arenas
      (pages.sound ready fits) (pages.hhdmOffset ready fits) mapped up
    exact ⟨views, fun _ => idle, facts⟩
  | allocate size align _ allowed ih =>
    obtain ⟨views, idle, some, consistent⟩ := ih
    obtain ⟨views', long, _, few, res⟩ := consistent.allocate mapped (bounded _ _ allowed)
    -- Only a roomy request is known to leave no idle arena behind.
    exact ⟨views', fun isTidy => (few (roomy isTidy _ _ allowed)).1.trans (idle isTidy),
      ne_nil_of_length_pos ((length_pos_of_ne_nil some).trans_le long), res⟩
  | free a _ isLive freed ih =>
    obtain ⟨views, idle, _, consistent⟩ := ih
    obtain ⟨s', views', res, facts⟩ := consistent.free idle mapped isLive
    rw [freed] at res
    obtain rfl := Option.some.inj res
    exact ⟨views', facts⟩
  | takePages pageCount _ sized ih =>
    obtain ⟨views, idle, some, consistent⟩ := ih
    refine ⟨views, idle, some, consistent.memory ?_ ?_⟩
    · rw [allocateContiguousPages_hhdmOffset]
      exact consistent.offset
    obtain ⟨leaked, ok⟩ := consistent.backed
    refine ⟨leaked, Sound.perm (ok.allocate sized) ?_⟩
    rw [append_assoc]
    exact perm_append_comm_assoc _ _ _
  | returnPages alloc _ ins ih =>
    obtain ⟨views, idle, some, consistent⟩ := ih
    refine ⟨views, idle, some, consistent.memory ?_ ?_⟩
    · rw [freeAllocation_hhdmOffset]
      exact consistent.offset
    · exact consistent.backed.returnPages ins

/-- As long as every request fits into the arena it would take, the heap stays
tiled. -/
theorem heap_tiled (state : State) (live : List Nat) (others : List PageAllocation)
    (reachable : Reachable boot (Servable spare) state live others) : Tiled state live := by
  obtain ⟨views, idle, some, consistent⟩ := @Reachable.consistent _ _ ready fits mapped _ True
    (fun _ _ servable => servable.1) (fun _ _ _ servable => servable.2) _ _ _ reachable
  have idle := idle trivial
  refine ⟨views, consistent.holds, consistent.used, consistent.live,
    fun address inside => ?_, fun none => ?_⟩
  · obtain ⟨state', _, freed, _⟩ :=
      @Consistent.free _ _ _ _ _ _ _ False _ consistent nofun mapped inside
    rw [freed]
    rfl
  · have allIdle : ∀ view ∈ views, view.Idle := by
      intro view inside block member
      by_contra busy
      have isUsed : block ∈ usedOf views := mem_usedOf.mpr
        ⟨view, inside, member, by simpa using busy⟩
      have isLive := consistent.live.mem_iff.mpr (mem_map_of_mem (f := Block.payload) isUsed)
      rw [none] at isLive
      cases isLive
    have count : idleArenas views = views.length :=
      countP_eq_length.mpr fun view inside => all_eq_true.mpr (allIdle view inside)
    have positive := length_pos_of_ne_nil some
    obtain ⟨view, rfl⟩ := length_eq_one_iff.mp (show views.length = 1 by omega)
    obtain ⟨_, long, _⟩ := consistent.mapped mapped mem_cons_self
    exact ⟨view, rfl, consistent.holds.idle_blocks mem_cons_self
      (le_trans (show 96 ≤ pageSize by decide) long) (allIdle view mem_cons_self)⟩

/-- The payload of a request lies in one arena after its header, is aligned, and
shares no byte with another block, its header included, or with its own header. -/
def Granted (s : State) (live : List Nat) (size align a : Nat) : Prop :=
  ∃ views, Holds s views ∧ live.Perm ((usedOf views).map Block.payload) ∧
    ∃ view ∈ views, ∃ b ∈ view.blocks, b.payload = a ∧ b.free = false ∧
      arenaPayloadStart view.address ≤ b.address ∧ a + size ≤ view.stop ∧
      (isPowerOfTwo align → minimumAlignment ≤ align → align ∣ a) ∧
      ∀ other ∈ views, ∀ o ∈ other.blocks, o ≠ b → o.stop ≤ b.address ∨ a + size ≤ o.address

/-- As long as no request overflows, an address that `allocate` returns has the
bytes that were asked for. -/
theorem allocate_granted (state : State) (live : List Nat) (others : List PageAllocation)
    (reachable : Reachable boot (Bounded spare) state live others) (size align address : Nat)
    (bounded : Bounded spare size align) (returned : (allocate state size align).1 = some address) :
    Granted (allocate state size align).2 (address :: live) size align address := by
  obtain ⟨_, _, _, consistent⟩ := @Reachable.consistent _ _ ready fits mapped _ False
    (fun _ _ bounded => bounded) nofun _ _ _ reachable
  obtain ⟨views, _, serves, _, after⟩ := consistent.allocate mapped bounded
  obtain ⟨view, inside, block, member, busy, isPayload, enough, aligned⟩ := serves address returned
  rw [returned] at after
  have covers : address + size ≤ block.stop := by
    have rounded := (bounded.request mapped.some_pages.2).1
    rw [← isPayload, Block.payload, Block.stop]
    omega
  have place := (after.holds.arenas view inside).inside member
  refine ⟨views, after.holds, after.live, view, inside, block, member, isPayload, busy, place.1,
    covers.trans place.2, fun power least => ?_, fun other among o ofOther different => ?_⟩
  · rw [normalizeAlignment, if_neg (by simp [power, Nat.not_lt.mpr least])] at aligned
    exact aligned
  · exact (after.holds.apart_blocks inside member among ofOther different).imp id covers.trans

/-- When no block fits and a new arena is taken, that one is enough exactly when
the request is roomy. -/
theorem acquireArena_suffices (state acquired : State) (live : List Nat)
    (others : List PageAllocation) (reachable : Reachable boot (Bounded spare) state live others)
    (size align : Nat) (low : align ≤ pageSize)
    (unfit : findAllocatedBlock state (alignUp size minimumAlignment) (normalizeAlignment align) =
      none)
    (taken : acquireArena state (alignUp size minimumAlignment) (normalizeAlignment align) =
      (true, acquired)) :
    (findAllocatedBlock acquired (alignUp size minimumAlignment)
      (normalizeAlignment align)).isSome ∧
      (allocate state size align).2.arenaCount ≤ state.arenaCount + 1 ↔
    Roomy (alignUp size minimumAlignment) (normalizeAlignment align) := by
  obtain ⟨views, _, _, consistent⟩ := @Reachable.consistent _ _ ready fits mapped _ False
    (fun _ _ bounded => bounded) nofun _ _ _ reachable
  have rounded : alignUp size minimumAlignment < 2 ^ 64 := alignUp_lt size minimumAlignment
  have normal : normalizeAlignment align ≤ pageSize :=
    (normalizeAlignment_le align).trans (max_le low (by decide))
  rcases consistent.acquire mapped (alignUp size minimumAlignment) (normalizeAlignment align) with
    refused | ⟨alloc, _, n, positive, opened⟩
  · rw [refused] at taken
    cases taken
  rw [taken] at opened
  have finds := opened.fresh_finds mapped (arenaPages_covers rounded normal positive)
    (normalizeAlignment_alignment align) (by have := mapped.some_pages; omega) n
    consistent.holds unfit
  rw [← finds]
  refine and_iff_left_of_imp fun found => ?_
  obtain ⟨⟨block, layout⟩, res⟩ := Option.isSome_iff_exists.mp found
  have count : acquired.arenaCount = state.arenaCount + 1 := by
    rw [opened.holds.count, consistent.holds.count]
    rfl
  unfold allocate
  split
  · exact Nat.le_succ _
  · rw [allocateLoop_second unfit taken res, takeBlock_arenaCount, count]

end Runs

/-! ## One megabyte of memory -/

def blankBlock : BlockHeader := ⟨0, none, none, none, 0, false⟩

def blankArena : Arena := ⟨⟨0, 0, 0⟩, none, none, none⟩

/-- The heap of the small machine. -/
def smallHeap : State := initializeHeap (fun _ => blankBlock) (fun _ => blankArena)
    (initializeMemory smallBoot)

theorem smallBoot_mapped : Mapped smallBoot.memoryMap smallBoot.hhdmOffset.toNat (2 ^ 46) := by
  refine ⟨by decide, ?_, by decide⟩
  rintro a ⟨_, e, ins, _, _, below⟩
  rw [mem_singleton.mp ins] at below
  have offset : smallBoot.hhdmOffset.toNat = 0xffff800000000000 := rfl
  have limit : (0x100000 : UInt64).toNat = 0x100000 := rfl
  dsimp only at below
  unfold pageSize at below
  omega

theorem heap_tiled_small :
    Tiled (allocate smallHeap 100 64).2 (allocate smallHeap 100 64).1.toList :=
  heap_tiled rfl smallBoot_fits smallBoot_mapped _ _ []
    (.allocate 100 64 (.start _ _ .start (by decide +kernel))
      ⟨show 100 + 3 * 64 + 2 * pageSize ≤ 2 ^ 46 by decide, by decide +kernel⟩)

/-- A request for 69472 bytes at alignment 64 takes all the memory without being
served, and leaves fifteen arenas although nothing is allocated. -/
theorem allocate_hoards : ∃ state live others,
    Reachable smallBoot (fun size alignment => size < 2 ^ 32 ∧
      alignment < 2 ^ 32) state live others ∧
      ¬ Tiled state live := by
  have refused : (allocate smallHeap 69472 64).1 = none := by decide +kernel
  refine ⟨_, _, [], .allocate 69472 64 (.start (fun _ => blankBlock) (fun _ => blankArena) .start
    (by decide +kernel)) ⟨by decide, by decide⟩, ?_⟩
  rintro ⟨views, holds, _, _, _, emptied⟩
  obtain ⟨view, rfl, _⟩ := emptied
    (by rw [show initializeHeap _ _ _ = smallHeap from rfl, refused]; rfl)
  have count := holds.count
  cases count

theorem allocate_granted_small :
    Granted (allocate smallHeap 100 64).2 [0xffff8000001000c0] 100 64 0xffff8000001000c0 :=
  allocate_granted rfl smallBoot_fits smallBoot_mapped smallHeap [] []
    (.start _ _ .start (by decide +kernel))
    100 64 _ (show 100 + 3 * 64 + 2 * pageSize ≤ 2 ^ 46 by decide) (by decide +kernel)

/-- A request for all but one byte of the address space is rounded up to none and
served from an arena of sixteen pages. -/
theorem allocate_overflows : ∃ state live others size align address,
    Reachable smallBoot (fun _ _ => True) state live others ∧
      (allocate state size align).1 = some address ∧
      ¬ Granted (allocate state size align).2 (address :: live) size align address := by
  have returned : (allocate smallHeap (2 ^ 64 - 1) 16).1 = some 0xffff800000100060 := by
    decide +kernel
  refine ⟨smallHeap, [], [], 2 ^ 64 - 1, 16, _, .start _ _ .start (by decide +kernel), returned, ?_⟩
  rintro ⟨views, holds, _, view, inside, block, _, _, _, _, within, _⟩
  obtain ⟨only, rfl⟩ := length_eq_one_iff.mp holds.count.symm
  obtain rfl := mem_singleton.mp inside
  have address : 0xffff800000100000 = view.address := Option.some.inj holds.first
  have allocation := (holds.arenas view inside).allocation
  rw [← address] at allocation
  have long : view.capacity = 0x10000 := by
    rw [ArenaView.capacity, ← allocation]
    decide +kernel
  rw [ArenaView.stop, long, ← address] at within
  exact absurd within (by decide)

/-- At alignment 64 the new arena of seventeen pages holds 69440 bytes, with a free block of
144 bytes before them. -/
theorem acquireArena_suffices_small :
    (findAllocatedBlock (acquireArena smallHeap 69440 64).2 69440 64).isSome ∧
      (allocate smallHeap 69430 64).2.arenaCount ≤ smallHeap.arenaCount + 1 :=
  (acquireArena_suffices rfl smallBoot_fits smallBoot_mapped smallHeap _ [] []
    (.start _ _ .start (by decide +kernel)) 69430 64 (by decide) (by decide +kernel)
      (Prod.ext (by decide +kernel) rfl)).mpr (by decide +kernel)

/-- An arena taken for 69472 bytes at alignment 64 has no room for them. -/
theorem acquireArena_too_small :
    findAllocatedBlock smallHeap 69472 64 = none ∧ (acquireArena smallHeap 69472 64).1 = true ∧
      findAllocatedBlock (acquireArena smallHeap 69472 64).2 69472 64 = none ∧
      (allocate smallHeap 69472 64).1 = none ∧ (allocate smallHeap 69472 64).2.arenaCount = 15 := by
  decide +kernel

end SavanXP.Heap
