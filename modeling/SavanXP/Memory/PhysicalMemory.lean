import SavanXP.Library.Intervals

/-!
# The page allocator

The kernel keeps the free physical memory as a table of regions, sorted by
address.  At boot it takes the usable entries of the memory map; afterwards it
gives out runs of pages from the first region that is long enough and puts
freed runs back, joined with their neighbours.

Addresses are 64-bit, and every sum or product the code forms is taken modulo
`2 ^ 64`.
-/

namespace SavanXP.Memory

open SavanXP.Library

def pageSize : Nat := 4096

def minimumPhysicalAddress : Nat := 0x100000

def maxFreeRegions : Nat := 2048

/-- What a 64-bit register keeps of a number. -/
def wrap (v : Nat) : Nat := v % 2 ^ 64

theorem wrap_of_lt {v : Nat} (small : v < 2 ^ 64) : wrap v = v := Nat.mod_eq_of_lt small

/-- Rounding to a multiple of a power of two: the code clears the low bits. -/
def alignDown (v align : Nat) : Nat := v / align * align

def alignUp (v align : Nat) : Nat := alignDown (wrap (v + (align - 1))) align

/-! ## The boot memory map -/

inductive MemoryRegionType where
  | usable
  | reserved
  | acpiReclaimable
  | acpiNvs
  | badMemory
  | bootloaderReclaimable
  | executableAndModules
  | framebuffer
  | reservedMapped
  | unknown
deriving DecidableEq

structure MemoryRegion where
  base : UInt64
  length : UInt64
  type : MemoryRegionType

structure BootInfo where
  hhdmOffset : UInt64
  memoryMap : List MemoryRegion

/-! ## The region table -/

abbrev FreeRegion : Type := HalfOpen Nat

def removeRegion (regions : List FreeRegion) (i : Nat) : List FreeRegion :=
  regions.eraseIdx i

def insertRegion (regions : List FreeRegion) (i base stop : Nat) : Option (List FreeRegion) :=
  if stop ≤ base ∨ regions.length = maxFreeRegions ∨ regions.length < i then none
  else some (regions.insertIdx i ⟨base, stop⟩)

/-- The region at `i` joined with the one before it, as long as they meet. -/
def mergePrevious (regions : List FreeRegion) : Nat → List FreeRegion × Nat
  | 0 => (regions, 0)
  | i + 1 =>
    match regions[i]?, regions[i + 1]? with
    | some prev, some region =>
      if region.base ≤ prev.stop then
        mergePrevious (removeRegion (regions.set i (prev.extend region)) (i + 1)) i
      else (regions, i + 1)
    | _, _ => (regions, i + 1)

/-- The region at `i` joined with the one after it, as long as they meet.
The table shrinks every time, so its length bounds the number of rounds. -/
def mergeNext (i : Nat) : Nat → List FreeRegion → List FreeRegion
  | 0, regions => regions
  | rounds + 1, regions =>
    match regions[i]?, regions[i + 1]? with
    | some region, some next =>
      if next.base ≤ region.stop then
        mergeNext i rounds (removeRegion (regions.set i (region.extend next)) (i + 1))
      else regions
    | _, _ => regions

def mergeNeighbors (regions : List FreeRegion) (i : Nat) : List FreeRegion :=
  if regions.length ≤ i then regions
  else
    let joined := mergePrevious regions i
    mergeNext joined.2 joined.1.length joined.1

def addFreeRegion (regions : List FreeRegion) (base stop : Nat) : Option (List FreeRegion) :=
  if stop ≤ base then none
  else
    let i := (regions.takeWhile fun region => region.base < base).length
    (insertRegion regions i base stop).map fun inserted => mergeNeighbors inserted i

/-! ## The allocator -/

structure State where
  regions : List FreeRegion
  hhdmOffset : Nat
  totalPages : Nat
  ready : Bool

def resetState : State := ⟨[], 0, 0, false⟩

/-- Adds the whole pages of one map entry; `none` when the table is full. -/
def addEntry (s : State) (e : MemoryRegion) : Option State :=
  if e.type ≠ .usable then some s
  else
    let aligned := alignUp e.base.toNat pageSize
    let stop := alignDown (wrap (e.base.toNat + e.length.toNat)) pageSize
    let start := if aligned < minimumPhysicalAddress then minimumPhysicalAddress else aligned
    if stop ≤ start then some s
    else
      (addFreeRegion s.regions start stop).map fun regions =>
        { s with
          regions := regions
          totalPages := wrap (s.totalPages + (stop - start) / pageSize) }

def initializeMemory (boot : BootInfo) : State :=
  if boot.hhdmOffset = 0 then resetState
  else
    match boot.memoryMap.foldlM addEntry
      { resetState with hhdmOffset := boot.hhdmOffset.toNat } with
    | none => resetState
    | some s => { s with ready := s.regions ≠ [] ∧ s.totalPages ≠ 0 }

structure PageAllocation where
  physicalAddress : Nat
  virtualAddress : Nat
  pageCount : UInt64
deriving DecidableEq

def allocateContiguousPages (s : State) (pageCount : UInt64) : Option PageAllocation × State :=
  if s.ready = false ∨ pageCount = 0 then (none, s)
  else
    let byteCount := wrap (pageCount.toNat * pageSize)
    match s.regions.findIdx? fun region => byteCount ≤ region.stop - region.base with
    | none => (none, s)
    | some i =>
      match s.regions[i]? with
      | none => (none, s)
      | some region =>
        let shrunk : FreeRegion := { region with base := wrap (region.base + byteCount) }
        let regions := s.regions.set i shrunk
        (some ⟨region.base, wrap (region.base + s.hhdmOffset), pageCount⟩,
          { s with
            regions := if shrunk.base = shrunk.stop then removeRegion regions i else regions })

def freePages (s : State) (physicalAddress : Nat) (pageCount : UInt64) : Bool × State :=
  if s.ready = false ∨ pageCount = 0 ∨ physicalAddress % pageSize ≠ 0 then (false, s)
  else
    let byteCount := wrap (pageCount.toNat * pageSize)
    if byteCount = 0 then (false, s)
    else
      match addFreeRegion s.regions physicalAddress (wrap (physicalAddress + byteCount)) with
      | none => (false, s)
      | some regions => (true, { s with regions := regions })

def freeAllocation (s : State) (allocation : PageAllocation) : Bool × State :=
  freePages s allocation.physicalAddress allocation.pageCount

/-! ## Runs -/

/-- The states after booting with a memory map and calling the allocator any
number of times, together with the allocations not given back.  A free that is
refused leaves its range with the caller. -/
inductive Reachable (boot : BootInfo) (allowed : UInt64 → Prop) : State → List PageAllocation → Prop
  | start : Reachable boot allowed (initializeMemory boot) []
  | allocate {s : State} {live : List PageAllocation} (pageCount : UInt64) :
      Reachable boot allowed s live → allowed pageCount →
      Reachable boot allowed (allocateContiguousPages s pageCount).2
        ((allocateContiguousPages s pageCount).1.toList ++ live)
  | free {s : State} {live : List PageAllocation} (allocation : PageAllocation) :
      Reachable boot allowed s live → allocation ∈ live →
      Reachable boot allowed (freeAllocation s allocation).2
        (if (freeAllocation s allocation).1 then live.erase allocation else live)

end SavanXP.Memory
