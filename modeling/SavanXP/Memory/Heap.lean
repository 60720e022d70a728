import SavanXP.Library.LinkedList
import SavanXP.Memory.PhysicalMemory

/-!
# The kernel heap

The heap takes runs of pages, its arenas, from the page allocator and cuts
each into blocks.  A block is a header followed by its payload; the headers of
one arena form a doubly linked list, and so do the arenas.  Allocating takes
the first free block with room at the wanted alignment and gives the rest back
as free blocks; freeing joins a block with its free neighbours and returns an
arena that is empty to the page allocator, unless it is the last one.

A pointer is an address, and `none` is the null pointer.  Headers are kept by
address.  The loops of the source are bounded here by a number of rounds that
they never reach: a list of blocks has fewer nodes than its arena has bytes.
-/

namespace SavanXP.Heap

open SavanXP.Memory Function

def defaultArenaPages : Nat := 16

def minimumAlignment : Nat := 16

def blockMagic : UInt32 := 0x4b484541

/-- `sizeof(Arena)`, a multiple of the minimum alignment. -/
def arenaSize : Nat := 48

/-- `sizeof(BlockHeader)`. -/
def headerSize : Nat := 48

structure Arena where
  allocation : PageAllocation
  next : Option Nat
  previous : Option Nat
  firstBlock : Option Nat

structure BlockHeader where
  size : Nat
  arena : Option Nat
  next : Option Nat
  previous : Option Nat
  magic : UInt32
  free : Bool

structure AllocationLayout where
  headerAddress : Nat
  leadingSpan : Nat
  trailingSpan : Nat
deriving DecidableEq

structure State where
  blocks : Nat → BlockHeader
  arenas : Nat → Arena
  firstArena : Option Nat
  arenaCount : Nat
  usedBytes : Nat
  ready : Bool
  memory : Memory.State

/-! ## Sizes and addresses -/

def isPowerOfTwo (v : Nat) : Bool := v ≠ 0 ∧ v &&& (v - 1) = 0

def normalizeAlignment (align : Nat) : Nat :=
  if isPowerOfTwo align = false ∨ align < minimumAlignment then minimumAlignment else align

def minimumBlockSpan : Nat := headerSize + minimumAlignment

def Arena.capacity (arena : Arena) : Nat := arena.allocation.pageCount.toNat * pageSize

def arenaPayloadStart (arena : Nat) : Nat := arena + alignUp arenaSize minimumAlignment

def Arena.initialBlockSize (arena : Arena) : Nat :=
  arena.capacity - alignUp arenaSize minimumAlignment - headerSize

/-! ## Memory access -/

def State.setBlock (s : State) (a : Nat) (change : BlockHeader → BlockHeader) : State :=
  { s with blocks := update s.blocks a (change (s.blocks a)) }

def State.setArena (s : State) (a : Nat) (change : Arena → Arena) : State :=
  { s with arenas := update s.arenas a (change (s.arenas a)) }

/-- Writing through a pointer that may be null, where the code checks it. -/
def State.setBlockIf (s : State) (a : Option Nat) (change : BlockHeader → BlockHeader) : State :=
  match a with
  | none => s
  | some a => s.setBlock a change

def State.setArenaIf (s : State) (a : Option Nat) (change : Arena → Arena) : State :=
  match a with
  | none => s
  | some a => s.setArena a change

/-! ## Blocks -/

def blocksAreAdjacent (s : State) (left right : Nat) : Bool :=
  left + headerSize + (s.blocks left).size = right

def stampBlock (s : State) (block : Nat) (arena : Option Nat) (size : Nat) (free : Bool) : State :=
  s.setBlock block fun hdr =>
    { hdr with size := size, arena := arena, magic := blockMagic, free := free }

/-- The loop of `merge_with_next`. -/
def mergeLoop (block : Nat) : Nat → State → State
  | 0, s => s
  | rounds + 1, s =>
    match (s.blocks block).next with
    | none => s
    | some next =>
      if (s.blocks next).free ∧ blocksAreAdjacent s block next then
        let following := (s.blocks next).next
        let grown := s.setBlock block fun hdr =>
          { hdr with size := hdr.size + (headerSize + (s.blocks next).size), next := following }
        mergeLoop block rounds
          (grown.setBlockIf following fun hdr => { hdr with previous := some block })
      else s

section

variable (s : State)

/-- The number of blocks of an arena is below its number of bytes. -/
def State.rounds (arena : Option Nat) : Nat :=
  match arena with
  | none => 0
  | some arena => (s.arenas arena).capacity

def mergeWithNext (block : Nat) : State :=
  if (s.blocks block).free = false then s
  else mergeLoop block (s.rounds (s.blocks block).arena) s

def blockIsValid (block : Nat) : Bool :=
  (s.blocks block).magic = blockMagic &&
    match (s.blocks block).arena with
    | none => false
    | some arena =>
      arenaPayloadStart arena ≤ block ∧
        block + headerSize + (s.blocks block).size ≤ arena + (s.arenas arena).capacity

/-! ## Fitting an allocation into a block -/

/-- The search of `compute_layout`: each round moves the payload one alignment
further. -/
def layoutFrom (blockStart blockEnd size align : Nat) : Nat → Nat → Option AllocationLayout
  | 0, _ => none
  | rounds + 1, payloadAddress =>
    let headerAddress := wrap (payloadAddress + 2 ^ 64 - headerSize)
    let payloadEnd := wrap (headerAddress + headerSize + size)
    if headerAddress < blockStart ∨ blockEnd < payloadEnd then none
    else
      let leadingSpan := headerAddress - blockStart
      if leadingSpan = 0 ∨ minimumBlockSpan ≤ leadingSpan then
        some ⟨headerAddress, leadingSpan, blockEnd - payloadEnd⟩
      else layoutFrom blockStart blockEnd size align rounds
        (alignUp (wrap (payloadAddress + align)) align)

def computeLayout (hdr : BlockHeader) (block size align : Nat) : Option AllocationLayout :=
  if hdr.free = false then none
  else layoutFrom block (wrap (block + headerSize + hdr.size)) size align (hdr.size + 2)
    (alignUp (wrap (block + headerSize)) align)

/-- The first block after `block` with room, among the blocks of one arena. -/
def findBlock (s : State) (size align : Nat) : Nat → Option Nat → Option (Nat × AllocationLayout)
  | 0, _ => none
  | _ + 1, none => none
  | rounds + 1, some block =>
    match computeLayout (s.blocks block) block size align with
    | some lay => some (block, lay)
    | none => findBlock s size align rounds (s.blocks block).next

def findInArenas (s : State) (size align : Nat) : Nat → Option Nat → Option (Nat × AllocationLayout)
  | 0, _ => none
  | _ + 1, none => none
  | rounds + 1, some arena =>
    match findBlock s size align (s.rounds (some arena)) (s.arenas arena).firstBlock with
    | some found => some found
    | none => findInArenas s size align rounds (s.arenas arena).next

def findAllocatedBlock (size align : Nat) : Option (Nat × AllocationLayout) :=
  findInArenas s size align s.arenaCount s.firstArena

/-! ## Cutting a block -/

/-- Points whatever comes before a block, its neighbour or the arena, at it. -/
def linkBefore (arena oldPrevious : Option Nat) (block : Nat) : State :=
  match oldPrevious with
  | some previous => s.setBlock previous fun hdr => { hdr with next := some block }
  | none => s.setArenaIf arena fun hdr => { hdr with firstBlock := some block }

/-- The part of `commit_allocation` that keeps the span before the allocated
block as a free block, or starts the allocated block where the free one
started. -/
def commitLeading (block : Nat) (lay : AllocationLayout) : State × Nat :=
  let arena := (s.blocks block).arena
  let oldPrevious := (s.blocks block).previous
  if lay.leadingSpan ≠ 0 then
    let alloc := lay.headerAddress
    let stamped := stampBlock s block arena (lay.leadingSpan - headerSize) true
    let linked := stamped.setBlock block fun hdr =>
      { hdr with previous := oldPrevious, next := some alloc }
    ((linkBefore linked arena oldPrevious block).setBlock alloc fun hdr =>
      { hdr with previous := some block }, alloc)
  else
    let linked := s.setBlock block fun hdr => { hdr with previous := oldPrevious }
    (linkBefore linked arena oldPrevious block, block)

def commitAllocation (block : Nat) (lay : AllocationLayout) (size : Nat) : State × Nat :=
  let arena := (s.blocks block).arena
  let oldNext := (s.blocks block).next
  let blockEnd := block + headerSize + (s.blocks block).size
  let leading := commitLeading s block lay
  let alloc := leading.2
  if minimumBlockSpan ≤ lay.trailingSpan then
    let trailing := lay.headerAddress + headerSize + size
    let stamped := stampBlock leading.1 trailing arena (lay.trailingSpan - headerSize) true
    let linked := stamped.setBlock trailing fun hdr =>
      { hdr with previous := some alloc, next := oldNext }
    let behind := linked.setBlockIf oldNext fun hdr => { hdr with previous := some trailing }
    let ahead := behind.setBlock alloc fun hdr => { hdr with next := some trailing }
    (stampBlock ahead alloc arena size false, alloc)
  else
    let ahead := leading.1.setBlock alloc fun hdr => { hdr with next := oldNext }
    let behind := ahead.setBlockIf oldNext fun hdr => { hdr with previous := some alloc }
    (stampBlock behind alloc arena (blockEnd - (lay.headerAddress + headerSize)) false, alloc)

/-! ## Arenas -/

/-- The pages an arena for a request is made of. -/
def arenaPages (minimumPayloadBytes align : Nat) : Nat :=
  let minimumBytes :=
    wrap (alignUp arenaSize minimumAlignment + headerSize + minimumPayloadBytes + align)
  let wantedBytes := if defaultArenaPages * pageSize < minimumBytes then minimumBytes
    else defaultArenaPages * pageSize
  wrap (wantedBytes + (pageSize - 1)) / pageSize

/-- The arena over fresh pages, with one free block. -/
def openArena (allocation : PageAllocation) : State :=
  let arena := allocation.virtualAddress
  let stored := s.setArena arena fun hdr =>
    { hdr with allocation := allocation, next := s.firstArena, previous := none }
  let behind := stored.setArenaIf s.firstArena fun hdr => { hdr with previous := some arena }
  let counted := { behind with firstArena := some arena, arenaCount := behind.arenaCount + 1 }
  let initial := arenaPayloadStart arena
  let stamped := stampBlock counted initial (some arena)
    (counted.arenas arena).initialBlockSize true
  let linked := stamped.setBlock initial fun hdr => { hdr with previous := none, next := none }
  linked.setArena arena fun hdr => { hdr with firstBlock := some initial }

def acquireArena (minimumPayloadBytes align : Nat) : Bool × State :=
  let pageCount := arenaPages minimumPayloadBytes align
  match allocateContiguousPages s.memory (UInt64.ofNat pageCount) with
  | (none, memory) => (false, { s with memory := memory })
  | (some allocation, memory) => (true, openArena { s with memory := memory } allocation)

def arenaIsFullyFree (arena : Nat) : Bool :=
  match (s.arenas arena).firstBlock with
  | none => false
  | some block =>
    (s.blocks block).free ∧ (s.blocks block).previous = none ∧
      (s.blocks block).next = none ∧ block = arenaPayloadStart arena ∧
      (s.blocks block).size = (s.arenas arena).initialBlockSize

def releaseArena (arena : Option Nat) : State :=
  match arena with
  | none => s
  | some arena =>
    if s.arenaCount ≤ 1 ∨ arenaIsFullyFree s arena = false then s
    else
      let allocation := (s.arenas arena).allocation
      let previous := (s.arenas arena).previous
      let next := (s.arenas arena).next
      let ahead := match previous with
        | some previous => s.setArena previous fun hdr => { hdr with next := next }
        | none => { s with firstArena := next }
      let behind := ahead.setArenaIf next fun hdr => { hdr with previous := previous }
      { behind with
        arenaCount := behind.arenaCount - 1
        memory := (freeAllocation behind.memory allocation).2 }

/-! ## The interface -/

/-- What the memory holds before the heap first writes to it does not matter. -/
def initializeHeap (blocks : Nat → BlockHeader) (arenas : Nat → Arena)
    (memory : Memory.State) : State :=
  let empty : State := ⟨blocks, arenas, none, 0, 0, false, memory⟩
  let acquired := acquireArena empty minimumAlignment minimumAlignment
  { acquired.2 with ready := acquired.1 }

/-- What `allocate` does with a block that fits. -/
def takeBlock (block : Nat) (lay : AllocationLayout) (size : Nat) : Nat × State :=
  let committed := commitAllocation s block lay size
  let used := committed.1.usedBytes + (committed.1.blocks committed.2).size
  (committed.2 + headerSize, { committed.1 with usedBytes := used })

end

/-- The loop of `allocate`: search, and take another arena if nothing fits.
Every arena takes pages, so the free pages bound the number of rounds. -/
def allocateLoop (size align : Nat) : Nat → State → Option Nat × State
  | 0, s => (none, s)
  | rounds + 1, s =>
    match findAllocatedBlock s size align with
    | some (block, lay) =>
      let taken := takeBlock s block lay size
      (some taken.1, taken.2)
    | none =>
      let acquired := acquireArena s size align
      if acquired.1 = false then (none, acquired.2) else allocateLoop size align rounds acquired.2

def freePageCount (memory : Memory.State) : Nat :=
  (memory.regions.map fun region => (region.stop - region.base) / pageSize).sum

def allocate (s : State) (size align : Nat) : Option Nat × State :=
  if s.ready = false ∨ size = 0 then (none, s)
  else allocateLoop (alignUp size minimumAlignment) (normalizeAlignment align)
    (freePageCount s.memory + 2) s

/-- The second merge of `free`: with the previous block, if that is free. -/
def mergeWithPrevious (s : State) (block : Nat) : Nat × State :=
  match (s.blocks block).previous with
  | none => (block, s)
  | some previous =>
    if (s.blocks previous).free then (previous, mergeWithNext s previous) else (block, s)

/-- Freeing an address that is not null; `none` is the kernel's panic. -/
def free (s : State) (a : Nat) : Option State :=
  let block := a - headerSize
  if blockIsValid s block = false ∨ (s.blocks block).free then none
  else
    let size := (s.blocks block).size
    let counted := { s with
      usedBytes := if size ≤ s.usedBytes then s.usedBytes - size else 0 }
    let freed := counted.setBlock block fun hdr => { hdr with free := true }
    let merged := mergeWithPrevious (mergeWithNext freed block) block
    some (releaseArena merged.2 (merged.2.blocks merged.1).arena)

end SavanXP.Heap
