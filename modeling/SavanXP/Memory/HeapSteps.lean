import SavanXP.Memory.HeapTiling

/-!
# Cutting and joining blocks

Allocating replaces one free block of an arena by up to three, freeing replaces
neighbouring blocks by one.  Either way a stretch of the block list is
rewritten from the same start to the same end.
-/

namespace SavanXP.Heap

open SavanXP.Library SavanXP.Memory List Function

/-! ## Memory access -/

section Access

variable (s : State) (a o : Nat) (change : BlockHeader → BlockHeader)
  (changeArena : Arena → Arena)

@[simp]
theorem setBlock_blocks : (s.setBlock a change).blocks o =
    if o = a then change (s.blocks a) else s.blocks o := by
  exact update_apply ..

@[simp]
theorem setBlock_arenas : (s.setBlock a change).arenas = s.arenas := rfl

variable (pointer : Option Nat)

@[simp]
theorem setBlockIf_blocks : (s.setBlockIf pointer change).blocks o =
    if pointer = some o then change (s.blocks o) else s.blocks o := by
  cases pointer with
  | none => rfl
  | some a =>
    rw [State.setBlockIf, setBlock_blocks]
    by_cases same : o = a
    · rw [if_pos same, if_pos (congrArg some same.symm), same]
    · rw [if_neg same, if_neg fun eq => same (Option.some.inj eq).symm]

@[simp]
theorem setBlockIf_arenas : (s.setBlockIf pointer change).arenas = s.arenas := by
  cases pointer <;> rfl

@[simp]
theorem setArena_arenas : (s.setArena a changeArena).arenas o =
    if o = a then changeArena (s.arenas a) else s.arenas o := by
  exact update_apply ..

@[simp]
theorem setArena_blocks : (s.setArena a changeArena).blocks = s.blocks := rfl

@[simp]
theorem setArenaIf_arenas : (s.setArenaIf pointer changeArena).arenas o =
      if pointer = some o then changeArena (s.arenas o) else s.arenas o := by
  cases pointer with
  | none => rfl
  | some a =>
    rw [State.setArenaIf, setArena_arenas]
    by_cases same : o = a
    · rw [if_pos same, if_pos (congrArg some same.symm), same]
    · rw [if_neg same, if_neg fun eq => same (Option.some.inj eq).symm]

@[simp]
theorem setArenaIf_blocks : (s.setArenaIf pointer changeArena).blocks = s.blocks := by
  cases pointer <;> rfl

end Access

@[simp]
theorem linkBefore_blocks (s : State) (arena previous : Option Nat) (b o : Nat) :
    (linkBefore s arena previous b).blocks o =
      if previous = some o then { s.blocks o with next := some b }
      else s.blocks o := by
  cases previous with
  | none => exact congrFun (setArenaIf_blocks s _ arena) o
  | some previous => exact setBlockIf_blocks s o _ (some previous)

@[simp]
theorem linkBefore_arenas (s : State) (arena previous : Option Nat) (b o : Nat) :
    (linkBefore s arena previous b).arenas o =
      if previous = none ∧ arena = some o then { s.arenas o with firstBlock := some b }
      else s.arenas o := by
  cases previous with
  | none =>
    rw [linkBefore, setArenaIf_arenas]
    simp only [true_and]
  | some previous => simp [linkBefore]

/-- The kernel's own variables, which no header write touches. -/
structure Globals where
  firstArena : Option Nat
  arenaCount : Nat
  usedBytes : Nat
  ready : Bool
  memory : Memory.State

def State.globals (s : State) : Globals :=
  ⟨s.firstArena, s.arenaCount, s.usedBytes, s.ready, s.memory⟩

section Globals

variable (s : State) (a : Nat) (pointer : Option Nat) (change : BlockHeader → BlockHeader)
  (changeArena : Arena → Arena)

@[simp]
theorem setBlock_globals : (s.setBlock a change).globals = s.globals := rfl

@[simp]
theorem setBlockIf_globals : (s.setBlockIf pointer change).globals = s.globals := by
  cases pointer <;> rfl

@[simp]
theorem setArenaIf_globals : (s.setArenaIf pointer changeArena).globals = s.globals := by
  cases pointer <;> rfl

@[simp]
theorem stampBlock_globals (arena : Option Nat) (size : Nat) (free : Bool) :
    (stampBlock s a arena size free).globals = s.globals := rfl

@[simp]
theorem linkBefore_globals (arena : Option Nat) :
    (linkBefore s arena pointer a).globals = s.globals := by
  cases pointer with
  | none => exact setArenaIf_globals ..
  | some previous => rfl

end Globals

/-! ## Rewriting a stretch of blocks -/

variable {view : ArenaView} {front back : List Block}

/-- Another list of blocks in one arena, with every header outside the arena as
it was. -/
structure Rewritten (s s' : State) (view : ArenaView) (blocks : List Block) : Prop where
  holds : HoldsArena s' (view.withBlocks blocks)
  outside : ∀ a, a < view.address ∨ view.stop ≤ a →
    s'.blocks a = s.blocks a
  arenas : s'.arenas = s.arenas
  globals : s'.globals = s.globals

theorem Rewritten.trans {first second third : State} {blocks blocks' : List Block}
    (one : Rewritten first second view blocks)
    (two : Rewritten second third (view.withBlocks blocks) blocks') :
    Rewritten first third view blocks' :=
  ⟨two.holds, fun a away => (two.outside a away).trans (one.outside a away),
    two.arenas.trans one.arenas, two.globals.trans one.globals⟩

/-- Outside a stretch of blocks only the block after it changes: its link back is another. -/
def Kept (s s' : State) (start stop : Nat) (back : List Block) (pointer : Option Nat) : Prop :=
  ∀ other, other < start ∨ stop ≤ other → s'.blocks other =
    if (back.map Block.address).head? = some other then
      { s.blocks other with previous := pointer }
    else s.blocks other

section Kept

variable {s s' : State} {start stop last : Nat} {pointer : Option Nat}

theorem Tiles.head_inside (tiles : Tiles stop back last) {other : Nat}
    (isHead : (back.map Block.address).head? = some other) : stop ≤ other ∧ other < last := by
  rw [head?_map] at isHead
  obtain ⟨b, isNext, rfl⟩ := Option.map_eq_some_iff.mp isHead
  have inside := tiles.inside (mem_of_head? isNext)
  simp only [Block.stop, headerSize] at inside
  omega

variable (kept : Kept s s' start stop back pointer) (tiles : Tiles stop back last)
include kept

theorem Kept.same {other : Nat} (away : other < start ∨ stop ≤ other)
    (ne : (back.map Block.address).head? ≠ some other) : s'.blocks other = s.blocks other := by
  rw [kept other away, if_neg ne]

include tiles

variable {b : Block}

theorem Kept.before {first : Nat} (frontTiles : Tiles first front start) (ordered : start ≤ stop) :
    ∀ b ∈ front, s'.blocks b.address = s.blocks b.address := by
  intro b mem
  have below := (frontTiles.inside mem).2
  simp only [Block.stop, headerSize] at below
  refine kept.same (.inl (by omega)) fun isHead => ?_
  have := tiles.head_inside isHead
  omega

theorem Kept.head (isHead : back.head? = some b) :
    s'.blocks b.address = { s.blocks b.address with previous := pointer } := by
  have isNext : (back.map Block.address).head? = some b.address := by
    rw [head?_map, isHead]
    rfl
  rw [kept _ (.inr (tiles.head_inside isNext).1), if_pos isNext]

theorem Kept.tail : ∀ b ∈ back.tail, s'.blocks b.address = s.blocks b.address := by
  intro b mem
  cases back with
  | nil => cases mem
  | cons next rest =>
    have above := (tiles.2.inside mem).1
    have nextAbove := tiles.head_inside rfl
    simp only [Block.stop, headerSize] at above
    refine kept.same (.inr (by omega)) fun isHead => ?_
    have : next.address = b.address := Option.some.inj isHead
    omega

theorem Kept.fields : ∀ b ∈ back, ∃ pointer, s'.blocks b.address =
    { s.blocks b.address with previous := pointer } := by
  intro b mem
  cases back with
  | nil => cases mem
  | cons next rest =>
    rcases mem_cons.mp mem with rfl | later
    · exact ⟨_, kept.head tiles rfl⟩
    · exact ⟨_, kept.tail tiles b later⟩

theorem Kept.linked {old new : List Nat} (newLong : new ≠ []) (heads : new.head? = old.head?)
    (links : Links (nextBlock s) (previousBlock s) none
      (front.map Block.address ++ (old ++ back.map Block.address)) none)
    (frontSame : ∀ b ∈ front, s'.blocks b.address = s.blocks b.address)
    (newLinks : Links (nextBlock s') (previousBlock s') (front.map Block.address).getLast? new
      (back.map Block.address).head?) (isLast : pointer = new.getLast?) :
    Links (nextBlock s') (previousBlock s') none
      (front.map Block.address ++ (new ++ back.map Block.address)) none := by
  refine links.replace ?_ ?_ ?_ ?_ ?_ ?_ ?_
  · rw [head?_append, head?_append, heads]
  · rintro _ mem
    obtain ⟨b, inside, rfl⟩ := mem_map.mp mem
    exact congrArg BlockHeader.next (frontSame b inside)
  · rintro _ mem
    obtain ⟨b, inside, rfl⟩ := mem_map.mp mem
    exact congrArg BlockHeader.previous (frontSame b inside)
  · rwa [Option.or_none, Option.or_none]
  · rintro _ mem
    obtain ⟨b, inside, rfl⟩ := mem_map.mp mem
    obtain ⟨pointer, same⟩ := kept.fields tiles b inside
    rw [nextBlock, nextBlock, same]
  · intro a isFirst
    rw [head?_map] at isFirst
    obtain ⟨b, isHead, rfl⟩ := Option.map_eq_some_iff.mp isFirst
    rw [previousBlock, kept.head tiles isHead, isLast, getLast?_eq_some_getLast newLong]
    rfl
  · rintro _ mem
    rw [← map_tail] at mem
    obtain ⟨b, inside, rfl⟩ := mem_map.mp mem
    exact congrArg BlockHeader.previous (kept.tail tiles b inside)

end Kept

/-- The link back of the block after the blocks rewritten names the last of the new ones. -/
theorem HoldsArena.rewrite {s s' : State} {old new : List Block}
    (holds : HoldsArena s view) (blocks : view.blocks = front ++ (old ++ back))
    (oldLong : old ≠ []) (newLong : new ≠ [])
    (retile : ∀ start stop, Tiles start old stop → Tiles start new stop)
    (outside : ∀ start stop, Tiles start old stop →
      Kept s s' start stop back (new.map Block.address).getLast?)
    (newLinks : Links (nextBlock s') (previousBlock s') (front.map Block.address).getLast?
      (new.map Block.address) (back.map Block.address).head?)
    (newStored : ∀ b ∈ new, Stored s' view.address b)
    (arenas : s'.arenas = s.arenas) (globals : s'.globals = s.globals) :
    Rewritten s s' view (front ++ (new ++ back)) := by
  have linked := holds.linked
  have tiles := holds.tiles
  have first := holds.first
  have stored := holds.stored
  rw [blocks] at tiles stored
  rw [blocks, map_append, map_append] at linked first
  obtain ⟨start, frontTiles, rest⟩ := tiles_append.mp tiles
  obtain ⟨stop, oldTiles, backTiles⟩ := tiles_append.mp rest
  have newTiles := retile start stop oldTiles
  have kept := outside start stop oldTiles
  have frontSame := kept.before backTiles frontTiles oldTiles.le
  have heads : (new.map Block.address).head? = (old.map Block.address).head? := by
    obtain ⟨oldFirst, oldRest, rfl⟩ := exists_cons_of_ne_nil oldLong
    obtain ⟨newFirst, newRest, rfl⟩ := exists_cons_of_ne_nil newLong
    exact congrArg some (newTiles.1.trans oldTiles.1.symm)
  refine ⟨⟨?_, ?_, ?_, ?_, ?_⟩, ?_, arenas, globals⟩
  · rw [arenas]
    exact holds.allocation
  · refine (congrArg (fun table => (table view.address).firstBlock) arenas).trans (first.trans ?_)
    rw [ArenaView.withBlocks, map_append, map_append]
    simp only [head?_append, heads]
  · rw [ArenaView.withBlocks, map_append, map_append]
    exact kept.linked backTiles (map_eq_nil_iff.not.mpr newLong) heads linked frontSame newLinks rfl
  · refine forall_mem_append.mpr ⟨fun b inside => ?_, forall_mem_append.mpr
      ⟨newStored, fun b inside => ?_⟩⟩
    · obtain ⟨_, _, _, _⟩ := stored b (mem_append_left _ inside)
      constructor <;> rw [frontSame b inside] <;> assumption
    · obtain ⟨pointer, same⟩ := kept.fields backTiles b inside
      obtain ⟨_, _, _, _⟩ := stored b (mem_append_right _ (mem_append_right _ inside))
      constructor <;> rw [same] <;> assumption
  · exact tiles_append.mpr ⟨start, frontTiles, tiles_append.mpr ⟨stop, newTiles, backTiles⟩⟩
  · intro a away
    have low := frontTiles.le
    have ordered := oldTiles.le
    have high := backTiles.le
    simp only [arenaPayloadStart] at low
    refine kept.same (by omega) fun isHead => ?_
    have := backTiles.head_inside isHead
    omega

/-! ## Cutting a block -/

/-- The layout places an allocation inside a block, leaving nothing or a whole
block before it. -/
structure Placed (b : Block) (size : Nat) (lay : AllocationLayout) : Prop where
  header : lay.headerAddress = b.address + lay.leadingSpan
  leading : lay.leadingSpan = 0 ∨ minimumBlockSpan ≤ lay.leadingSpan
  trailing : lay.headerAddress + headerSize + size + lay.trailingSpan = b.stop

/-- The free block before the allocated one, if any. -/
def leadingPart (b : Block) (lay : AllocationLayout) : List Block :=
  if lay.leadingSpan ≠ 0 then [⟨b.address, lay.leadingSpan - headerSize, true⟩] else []

/-- The allocated block, and the free one after it unless the rest is too short. -/
def allocatedPart (b : Block) (size : Nat) (lay : AllocationLayout) : List Block :=
  if minimumBlockSpan ≤ lay.trailingSpan then
    [⟨lay.headerAddress, size, false⟩,
      ⟨lay.headerAddress + headerSize + size, lay.trailingSpan - headerSize, true⟩]
  else [⟨lay.headerAddress, b.stop - (lay.headerAddress + headerSize), false⟩]

theorem Placed.tiles {size : Nat} {lay : AllocationLayout}
    (placed : Placed b size lay) {start stop : Nat} (tiles : Tiles start [b] stop) :
    Tiles start (leadingPart b lay ++ allocatedPart b size lay) stop := by
  obtain ⟨rfl, rfl⟩ := tiles
  obtain ⟨header, leading, trailing⟩ := placed
  have whole : Tiles lay.headerAddress (allocatedPart b size lay) b.stop := by
    unfold allocatedPart
    split <;> refine ⟨rfl, ?_⟩
    on_goal 1 => refine ⟨rfl, ?_⟩
    all_goals
      simp only [Tiles, Block.stop, minimumBlockSpan, headerSize, minimumAlignment] at *
      omega
  unfold leadingPart
  split
  · refine ⟨rfl, ?_⟩
    have moved : (⟨b.address, lay.leadingSpan - headerSize, true⟩ : Block).stop =
        lay.headerAddress := by
      simp only [Block.stop, minimumBlockSpan, headerSize, minimumAlignment] at *
      omega
    rw [moved]
    exact whole
  · next none =>
    have here : lay.headerAddress = b.address := by omega
    rw [← here]
    exact whole

variable {s : State}

/-- A block of an arena and its neighbours in the list. -/
structure Between (s : State) (arena : Nat) (b : Block) (previous next : Option Nat) : Prop where
  stored : Stored s arena b
  previous_eq : (s.blocks b.address).previous = previous
  next_eq : (s.blocks b.address).next = next
  before : ∀ a, previous = some a →
    a < b.address ∧ (s.blocks a).next = some b.address
  first : previous = none → (s.arenas arena).firstBlock = some b.address
  after : ∀ a, next = some a → b.stop ≤ a

theorem HoldsArena.between
    (holds : HoldsArena s view) (blocks : view.blocks = front ++ ([b] ++ back)) :
    Between s view.address b (front.map Block.address).getLast? (back.map Block.address).head? := by
  have linked := holds.linked
  have first := holds.first
  have tiles := holds.tiles
  rw [blocks, map_append, map_append, links_append] at linked
  rw [blocks, map_append, map_append] at first
  rw [blocks] at tiles
  obtain ⟨frontTiles, backTiles⟩ := Tiles.around tiles
  obtain ⟨frontLinks, back_eq, next_eq, _⟩ := linked
  rw [Option.or_none] at back_eq
  refine ⟨holds.stored b (by simp [blocks]), back_eq, ?_, ?_, ?_, ?_⟩
  · rw [Option.or_none] at next_eq
    exact next_eq
  · intro a isLast
    refine ⟨?_, frontLinks.last_next isLast⟩
    obtain ⟨o, ins, rfl⟩ := mem_map.mp (mem_of_getLast? isLast)
    have := (frontTiles.inside ins).2
    simp only [Block.stop, headerSize] at this
    omega
  · intro isFirst
    rw [getLast?_eq_none_iff, map_eq_nil_iff] at isFirst
    rw [first, isFirst]
    rfl
  · intro a isHead
    rw [head?_map] at isHead
    obtain ⟨o, isNext, rfl⟩ := Option.map_eq_some_iff.mp isHead
    exact (backTiles.inside (mem_of_head? isNext)).1

section Commit

variable {s : State} {arena : Nat} {b : Block} {previous next : Option Nat} {size : Nat}
  {lay : AllocationLayout}

theorem commitAllocation_allocated (placed : Placed b size lay) :
    (commitAllocation s b.address lay size).2 = lay.headerAddress := by
  have header := placed.header
  by_cases lead : lay.leadingSpan = 0 <;>
    by_cases trail : minimumBlockSpan ≤ lay.trailingSpan <;>
    simp [commitAllocation, commitLeading, lead, trail]
  all_goals omega

/-- The header of the free block kept before the allocation. -/
theorem commitAllocation_leading (between : Between s arena b previous next)
    (placed : Placed b size lay) (lead : lay.leadingSpan ≠ 0) :
    (commitAllocation s b.address lay size).1.blocks b.address =
      ⟨lay.leadingSpan - headerSize, some arena, some lay.headerAddress, previous, blockMagic,
        true⟩ := by
  have header := placed.header
  have notAllocated : b.address ≠ lay.headerAddress := by omega
  have notTrailing : b.address ≠ lay.headerAddress + headerSize + size := by omega
  have notPrevious : previous ≠ some b.address := fun same =>
    absurd (between.before _ same).1 (Nat.lt_irrefl _)
  have notNext : next ≠ some b.address := fun same => by
    have := between.after _ same
    simp only [Block.stop, headerSize] at this
    omega
  by_cases trail : minimumBlockSpan ≤ lay.trailingSpan <;>
    simp [commitAllocation, commitLeading, stampBlock, lead, trail, notAllocated, notTrailing,
      notPrevious, notNext, between.previous_eq, between.next_eq, between.stored.arena]

/-- The address of the last block of the cut. -/
def lastPart (size : Nat) (lay : AllocationLayout) : Nat :=
  if minimumBlockSpan ≤ lay.trailingSpan then lay.headerAddress + headerSize + size
  else lay.headerAddress

section

variable (between : Between s arena b previous next) (placed : Placed b size lay)
include between placed

/-- The header of the allocated block. -/
theorem commitAllocation_middle :
    (commitAllocation s b.address lay size).1.blocks lay.headerAddress =
      ⟨if minimumBlockSpan ≤ lay.trailingSpan then size
          else b.stop - (lay.headerAddress + headerSize), some arena,
        if minimumBlockSpan ≤ lay.trailingSpan then some (lay.headerAddress + headerSize + size)
          else next,
        if lay.leadingSpan = 0 then previous else some b.address, blockMagic, false⟩ := by
  have header := placed.header
  have rest := placed.trailing
  have notTrailing : lay.headerAddress ≠ lay.headerAddress + headerSize + size := by
    simp only [headerSize]
    omega
  have notPrevious : previous ≠ some lay.headerAddress := fun same => by
    have := (between.before _ same).1
    omega
  have notNext : next ≠ some lay.headerAddress := fun same => by
    have := between.after _ same
    omega
  by_cases lead : lay.leadingSpan = 0
  · rw [lead, Nat.add_zero] at header
    rw [header] at notTrailing notPrevious notNext
    by_cases trail : minimumBlockSpan ≤ lay.trailingSpan <;>
      simp [commitAllocation, commitLeading, stampBlock, lead, trail, header, notTrailing,
        notPrevious, notNext, between.previous_eq, between.next_eq, between.stored.arena,
        between.stored.size, Block.stop]
  · by_cases trail : minimumBlockSpan ≤ lay.trailingSpan <;>
      simp [commitAllocation, commitLeading, stampBlock, lead, trail, notTrailing,
        notPrevious, notNext, between.previous_eq, between.next_eq, between.stored.arena,
        between.stored.size, Block.stop]

/-- The header of the free block after the allocation. -/
theorem commitAllocation_trailing (trail : minimumBlockSpan ≤ lay.trailingSpan) :
    (commitAllocation s b.address lay size).1.blocks (lay.headerAddress + headerSize + size) =
      ⟨lay.trailingSpan - headerSize, some arena, next, some lay.headerAddress, blockMagic,
        true⟩ := by
  have header := placed.header
  have rest := placed.trailing
  have notBlock : lay.headerAddress + headerSize + size ≠ b.address := by
    simp only [headerSize]
    omega
  have notAllocated : lay.headerAddress + headerSize + size ≠ lay.headerAddress := by
    simp only [headerSize]
    omega
  have notNext : next ≠ some (lay.headerAddress + headerSize + size) := fun same => by
    have := between.after _ same
    simp only [minimumBlockSpan, headerSize, minimumAlignment] at *
    omega
  by_cases lead : lay.leadingSpan = 0
  · rw [lead, Nat.add_zero] at header
    rw [header] at notBlock notNext
    simp [commitAllocation, commitLeading, stampBlock, lead, trail, header, notBlock, notNext,
      between.next_eq, between.stored.arena]
  · simp [commitAllocation, commitLeading, stampBlock, lead, trail, notAllocated, notNext,
      between.next_eq, between.stored.arena]

/-- Every other header stays, but for the pointer back of the next block. -/
theorem commitAllocation_other {o : Nat} (outside : o < b.address ∨ b.stop ≤ o) :
    (commitAllocation s b.address lay size).1.blocks o =
      if next = some o then { s.blocks o with previous := some (lastPart size lay) }
      else s.blocks o := by
  have header := placed.header
  have rest := placed.trailing
  have notBlock : o ≠ b.address := by
    simp only [Block.stop, headerSize] at outside
    omega
  have notAllocated : o ≠ lay.headerAddress := by
    simp only [headerSize] at rest
    omega
  have kept : (if previous = some o then { s.blocks o with next := some b.address }
      else s.blocks o) = s.blocks o := by
    split
    · next same =>
      rw [← (between.before o same).2]
    · rfl
  by_cases trail : minimumBlockSpan ≤ lay.trailingSpan
  · have notTrailing : o ≠ lay.headerAddress + headerSize + size := by
      simp only [minimumBlockSpan, headerSize, minimumAlignment] at *
      omega
    by_cases lead : lay.leadingSpan = 0 <;>
      simp [commitAllocation, commitLeading, stampBlock, lead, trail, notBlock, notAllocated,
        notTrailing, lastPart, between.previous_eq, between.next_eq, kept]
  · by_cases lead : lay.leadingSpan = 0
    · simp [commitAllocation, commitLeading, stampBlock, lead, trail, notBlock, header,
        lastPart, between.previous_eq, between.next_eq, kept]
    · simp [commitAllocation, commitLeading, stampBlock, lead, trail, notBlock, notAllocated,
        lastPart, between.previous_eq, between.next_eq, kept]

end

theorem commitAllocation_arenas (between : Between s arena b previous next) :
    (commitAllocation s b.address lay size).1.arenas = s.arenas := by
  have kept : ∀ o, (if previous = none ∧ arena = o then
      { s.arenas o with firstBlock := some b.address } else s.arenas o) = s.arenas o := by
    intro o
    split
    · next both =>
      rw [← both.2, ← between.first both.1]
    · rfl
  funext o
  by_cases lead : lay.leadingSpan = 0 <;>
    by_cases trail : minimumBlockSpan ≤ lay.trailingSpan <;>
    simp [commitAllocation, commitLeading, stampBlock, lead, trail, between.previous_eq,
      between.stored.arena, kept]

theorem commitAllocation_globals :
    (commitAllocation s b.address lay size).1.globals = s.globals := by
  have leading : (commitLeading s b.address lay).1.globals = s.globals := by
    unfold commitLeading
    split <;> simp
  unfold commitAllocation
  split <;> simp [leading]

end Commit

/-- A free block has no free neighbours, so anything without free neighbours of
its own can take its place. -/
theorem settled_replace {new : List Block}
    (settled : (front ++ ([b] ++ back)).IsChain Apart) (free : b.free = true)
    (inner : new.IsChain Apart) : (front ++ (new ++ back)).IsChain Apart := by
  obtain ⟨frontSettled, rest, seam⟩ := isChain_append.mp settled
  obtain ⟨_, backSettled, backSeam⟩ := isChain_append.mp rest
  have frontUsed : ∀ last ∈ front.getLast?, last.free = false := fun last isLast => by
    simpa [Apart, free] using seam last isLast b rfl
  have backUsed : ∀ first ∈ back.head?, first.free = false := fun first isFirst => by
    simpa [Apart, free] using backSeam b rfl first isFirst
  refine isChain_append.mpr ⟨frontSettled, isChain_append.mpr ⟨inner, backSettled, ?_⟩, ?_⟩
  · intro last _ first isFirst both
    rw [backUsed first isFirst] at both
    exact absurd both.2 nofun
  · intro last isLast first _ both
    rw [frontUsed last isLast] at both
    exact absurd both.1 nofun

/-- What takes the place of a block that is cut. -/
def cutParts (b : Block) (size : Nat) (lay : AllocationLayout) : List Block :=
  leadingPart b lay ++ allocatedPart b size lay

section

variable (b : Block) (size : Nat) (lay : AllocationLayout)

theorem cutParts_settled : (cutParts b size lay).IsChain Apart := by
  unfold cutParts leadingPart allocatedPart
  split <;> split <;> simp [Apart]

theorem cutParts_long : cutParts b size lay ≠ [] := by
  unfold cutParts leadingPart allocatedPart
  split <;> split <;> simp

theorem cutParts_last :
    ((cutParts b size lay).map Block.address).getLast? = some (lastPart size lay) := by
  unfold cutParts leadingPart allocatedPart lastPart
  split <;> split <;> simp

end

section Cut

variable {s : State} {arena : Nat} {b : Block} {previous next : Option Nat} {size : Nat}
  {lay : AllocationLayout}

theorem cutParts_linked (between : Between s arena b previous next)
    (placed : Placed b size lay) : Links (nextBlock (commitAllocation s b.address lay size).1)
      (previousBlock (commitAllocation s b.address lay size).1) previous
      ((cutParts b size lay).map Block.address) next := by
  have middle := commitAllocation_middle between placed
  have allocatedLinks : Links (nextBlock (commitAllocation s b.address lay size).1)
      (previousBlock (commitAllocation s b.address lay size).1)
      (if lay.leadingSpan = 0 then previous else some b.address)
      ((allocatedPart b size lay).map Block.address) next := by
    by_cases trail : minimumBlockSpan ≤ lay.trailingSpan
    · have trailing := commitAllocation_trailing between placed trail
      rw [if_pos trail, if_pos trail] at middle
      rw [allocatedPart, if_pos trail]
      exact ⟨congrArg BlockHeader.previous middle, congrArg BlockHeader.next middle,
        congrArg BlockHeader.previous trailing, congrArg BlockHeader.next trailing, trivial⟩
    · rw [if_neg trail, if_neg trail] at middle
      rw [allocatedPart, if_neg trail]
      exact ⟨congrArg BlockHeader.previous middle, congrArg BlockHeader.next middle, trivial⟩
  have head : ((allocatedPart b size lay).map Block.address).head? = some lay.headerAddress := by
    unfold allocatedPart
    split <;> rfl
  unfold cutParts leadingPart
  split
  · next lead =>
    have leading := commitAllocation_leading between placed lead
    rw [if_neg lead] at allocatedLinks
    rw [map_append, links_append, head]
    exact ⟨⟨congrArg BlockHeader.previous leading, congrArg BlockHeader.next leading, trivial⟩,
      allocatedLinks⟩
  · next none =>
    rw [if_pos (not_ne_iff.mp none)] at allocatedLinks
    exact allocatedLinks

theorem cutParts_stored (between : Between s arena b previous next)
    (placed : Placed b size lay) : ∀ part ∈ cutParts b size lay,
      Stored (commitAllocation s b.address lay size).1 arena part := by
  have middle := commitAllocation_middle between placed
  refine forall_mem_append.mpr ⟨?_, ?_⟩
  · unfold leadingPart
    split
    · next lead =>
      have leading := commitAllocation_leading between placed lead
      rintro part mem
      rw [mem_singleton.mp mem]
      constructor <;> rw [leading]
    · exact nofun
  · unfold allocatedPart
    split
    · next trail =>
      have trailing := commitAllocation_trailing between placed trail
      rw [if_pos trail] at middle
      refine forall_mem_cons.mpr ⟨?_, forall_mem_cons.mpr ⟨?_, nofun⟩⟩
      · constructor <;> rw [middle]
      · constructor <;> rw [trailing]
    · next short =>
      rw [if_neg short] at middle
      refine forall_mem_cons.mpr ⟨?_, nofun⟩
      constructor <;> rw [middle]

end Cut

theorem HoldsArena.commit {size : Nat} {lay : AllocationLayout}
    (holds : HoldsArena s view) (blocks : view.blocks = front ++ ([b] ++ back))
    (placed : Placed b size lay) : Rewritten s (commitAllocation s b.address lay size).1 view
      (front ++ (cutParts b size lay ++ back)) := by
  have between := holds.between blocks
  refine holds.rewrite blocks (cons_ne_nil _ _) (cutParts_long b size lay)
    (fun start stop tiles => placed.tiles tiles) ?_ (cutParts_linked between placed)
    (cutParts_stored between placed) (commitAllocation_arenas between) commitAllocation_globals
  rintro start stop ⟨rfl, rfl⟩ o away
  rw [commitAllocation_other between placed away, cutParts_last]

/-! ## Joining blocks -/

/-- One block over two neighbours. -/
def Block.join (b next : Block) : Block :=
  ⟨b.address, b.size + (headerSize + next.size), b.free⟩

theorem Block.join_stop {b next : Block} (adjacent : next.address = b.stop) :
    (b.join next).stop = next.stop := by
  simp only [Block.stop, Block.join, headerSize] at *
  omega

/-- The memory after one round of merging. -/
def joinBlocks (s : State) (b next : Nat) : State :=
  (s.setBlock b fun header =>
    { header with
      size := header.size + (headerSize + (s.blocks next).size)
      next := (s.blocks next).next }).setBlockIf (s.blocks next).next fun header =>
        { header with previous := some b }

theorem joinBlocks_globals (s : State) (b next : Nat) :
    (joinBlocks s b next).globals = s.globals := by
  rw [joinBlocks, setBlockIf_globals, setBlock_globals]

theorem HoldsArena.join {b next : Block} (holds : HoldsArena s view)
    (blocks : view.blocks = front ++ ([b, next] ++ back)) :
    Rewritten s (joinBlocks s b.address next.address) view (front ++ ([b.join next] ++ back)) := by
  have firstBetween := @HoldsArena.between view front (next :: back) s b holds blocks
  have secondBetween := @HoldsArena.between view (front ++ [b]) back s next holds
    (by rw [blocks]; simp)
  have v : ∀ o, (joinBlocks s b.address next.address).blocks o =
      if (back.map Block.address).head? = some o then
        { (if o = b.address then
            { s.blocks b.address with
              size := (b.join next).size
              next := (back.map Block.address).head? }
          else s.blocks o) with previous := some b.address }
      else if o = b.address then
        { s.blocks b.address with
          size := (b.join next).size
          next := (back.map Block.address).head? }
      else s.blocks o := by
    intro o
    rw [joinBlocks, setBlockIf_blocks, setBlock_blocks, secondBetween.next_eq,
      firstBetween.stored.size, secondBetween.stored.size]
    rfl
  have unlinked : (back.map Block.address).head? ≠ some b.address := by
    intro same
    have high := secondBetween.after _ same
    have low := firstBetween.after _ rfl
    simp only [Block.stop, headerSize] at high low
    omega
  have atBlock := v b.address
  rw [if_neg unlinked, if_pos rfl] at atBlock
  refine holds.rewrite blocks (cons_ne_nil _ _) (cons_ne_nil _ _) ?_ ?_ ⟨?_, ?_, trivial⟩ ?_
    ?_ (joinBlocks_globals s b.address next.address)
  · rintro start stop ⟨first, second, last⟩
    exact ⟨first, (Block.join_stop second).trans last⟩
  · rintro start stop ⟨rfl, adjacent, rfl⟩ o away
    have ne : o ≠ b.address := by
      simp only [Block.stop, headerSize] at adjacent away
      omega
    rw [v, if_neg ne]
    rfl
  · exact (congrArg BlockHeader.previous atBlock).trans firstBetween.previous_eq
  · exact congrArg BlockHeader.next atBlock
  · rintro _ mem
    rw [mem_singleton.mp mem]
    have stored := firstBetween.stored
    exact ⟨congrArg BlockHeader.size atBlock, (congrArg BlockHeader.free atBlock).trans stored.free,
      (congrArg BlockHeader.arena atBlock).trans stored.arena,
      (congrArg BlockHeader.magic atBlock).trans stored.magic⟩
  · rw [joinBlocks, setBlockIf_arenas, setBlock_arenas]

/-- The block joined with the next one if that is free. -/
def mergeParts (b : Block) : List Block → List Block
  | [] => [b]
  | next :: back => if next.free then b.join next :: back else b :: next :: back

theorem mergeLoop_stop {b : Nat} {rounds : Nat}
    (used : ∀ next, (s.blocks b).next = some next → (s.blocks next).free = false) :
    mergeLoop b rounds s = s := by
  cases rounds with
  | zero => rfl
  | succ rounds =>
    rw [mergeLoop]
    split
    · rfl
    · next next isNext => rw [if_neg fun both => absurd (used next isNext) (by simp [both.1])]

theorem mergeLoop_join {b next : Nat} {rounds : Nat}
    (isNext : (s.blocks b).next = some next) (free : (s.blocks next).free = true)
    (adjacent : b + headerSize + (s.blocks b).size = next) :
    mergeLoop b (rounds + 1) s = mergeLoop b rounds (joinBlocks s b next) := by
  rw [mergeLoop, isNext]
  dsimp only
  rw [if_pos ⟨free, decide_eq_true adjacent⟩]
  rfl

/-- The blocks after a list of one arena's blocks. -/
theorem HoldsArena.nextUsed
    (holds : HoldsArena s view) (blocks : view.blocks = front ++ ([b] ++ back))
    (used : ∀ next ∈ back.head?, next.free = false) :
    ∀ next, (s.blocks b.address).next = some next → (s.blocks next).free = false := by
  intro next isNext
  have between := holds.between blocks
  rw [between.next_eq, head?_map] at isNext
  obtain ⟨o, isHead, rfl⟩ := Option.map_eq_some_iff.mp isNext
  have stored := holds.stored o (by
    rw [blocks]
    exact mem_append_right _ (mem_append_right _ (mem_of_head? isHead)))
  exact stored.free.trans (used o isHead)

/-- An arena with a block is long enough for a round of a search. -/
theorem HoldsArena.long (holds : HoldsArena s view) (ins : b ∈ view.blocks) :
    ∃ rounds, (s.arenas view.address).capacity = rounds + 1 := by
  obtain ⟨low, high⟩ := holds.inside ins
  refine Nat.exists_eq_succ_of_ne_zero ?_
  rw [Arena.capacity, holds.allocation]
  simp only [Block.stop, ArenaView.stop, ArenaView.capacity, headerSize, arenaPayloadStart]
    at low high
  omega

theorem HoldsArena.merge (holds : HoldsArena s view) (blocks : view.blocks = front ++ ([b] ++ back))
    (free : b.free = true) (settled : back.IsChain Apart) :
    Rewritten s (mergeWithNext s b.address) view (front ++ mergeParts b back) := by
  have between := holds.between blocks
  have stored := between.stored
  have isFree : (s.blocks b.address).free ≠ false := by
    rw [stored.free, free]
    exact nofun
  have unchanged : Rewritten s s view (front ++ ([b] ++ back)) := by
    refine ⟨?_, fun _ _ => rfl, rfl, rfl⟩
    rw [← blocks]
    exact holds
  have tiles := holds.tiles
  rw [blocks] at tiles
  obtain ⟨_, backTiles⟩ := Tiles.around tiles
  obtain ⟨rounds, long⟩ := holds.long (show b ∈ view.blocks by rw [blocks]; simp)
  rw [mergeWithNext, if_neg isFree, stored.arena, State.rounds, long]
  cases back with
  | nil =>
    rw [mergeLoop_stop (holds.nextUsed blocks nofun)]
    exact unchanged
  | cons next back =>
    obtain ⟨nextSettled, _⟩ := isChain_cons.mp settled
    rw [mergeParts]
    split
    · next nextFree =>
      have joinable : view.blocks = front ++ ([b, next] ++ back) := blocks
      have joined := holds.join joinable
      have nextStored := holds.stored next (by rw [blocks]; simp)
      rw [mergeLoop_join between.next_eq (nextStored.free.trans nextFree)
        (by rw [stored.size]; exact backTiles.1.symm), mergeLoop_stop]
      · exact joined
      refine @HoldsArena.nextUsed _ front back _ (b.join next) joined.holds rfl
        fun following isHead => ?_
      simpa [Apart, nextFree] using nextSettled following isHead
    · next nextUsed =>
      rw [mergeLoop_stop (holds.nextUsed blocks ?_)]
      · exact unchanged
      · rintro following isHead
        obtain rfl := Option.some.inj isHead
        exact Bool.not_eq_true _ |>.mp nextUsed

end SavanXP.Heap
