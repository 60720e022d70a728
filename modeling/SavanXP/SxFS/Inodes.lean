import SavanXP.SxFS.Volume

/-!
# Inodes and the blocks they own

How the driver hands out inode ids and data sectors and takes them back: the
first free id, the first run of free sectors that is long enough, extents that
grow at their end, and a table entry that is cleared when its inode goes.
-/

namespace SavanXP.SxFS

open SavanXP.Library

def maxDirectoryDepth : Nat := 32
def minimumGrowthSectors : UInt32 := 64

/-- Set every listed bit to the same value, in order. -/
def bitmapSetAll {size : Nat} (bitmap : Bytes size) (bits : List Nat) (v : Bool) : Bytes size :=
  bits.foldl (fun bitmap bit => bitmapSet bitmap bit v) bitmap

/-- The sectors of one run. -/
def runSectors (startLba sectorCount : Nat) : List Nat :=
  (List.range sectorCount).map (startLba + ·)

def Extent.sectors (extent : Extent) : List Nat :=
  runSectors extent.startLba.toNat extent.sectorCount.toNat

def Metadata.setInode (md : Metadata) (id : Fin 4096) (inode : Inode) : Metadata :=
  { md with inodes := Function.update md.inodes id inode }

/-! ## Inode ids -/

def inodeIdOf (id : Fin 4096) : UInt32 := UInt32.ofNat (id.val + 1)

/-- The first id whose bit is clear, with the bit set. -/
@[irreducible]
def allocateInodeId (md : Metadata) : Option (Fin 4096 × Metadata) :=
  match (List.finRange 4096).find? fun id => !bitmapTest md.inodeBitmap id.val with
  | none => none
  | some id => some (id, { md with inodeBitmap := bitmapSet md.inodeBitmap id.val true })

def releaseInodeId (md : Metadata) (inodeId : UInt32) : Metadata :=
  match inodeForId inodeId with
  | none => md
  | some id =>
    { md with inodeBitmap := bitmapSet md.inodeBitmap id.val false }.setInode id Inode.zero

/-! ## Extents -/

def Inode.extentAt (inode : Inode) (i : Nat) : Extent :=
  if inside : i < 8 then inode.extents ⟨i, inside⟩ else Extent.zero

def Inode.setExtent (inode : Inode) (i : Nat) (extent : Extent) : Inode :=
  { inode with extents := fun o => if o.val = i then extent else inode.extents o }

/-- Add a run at the end: it continues the last extent or takes a new one. -/
def appendExtent (inode : Inode) (startLba sectorCount : UInt32) : Option Inode :=
  let lastIndex := inode.extentCount.toNat - 1
  let last := inode.extentAt lastIndex
  if sectorCount = 0 then some inode
  else if inode.extentCount ≠ 0 ∧ last.startLba + last.sectorCount = startLba then
    some (inode.setExtent lastIndex ⟨last.startLba, last.sectorCount + sectorCount⟩)
  else if maxExtents ≤ inode.extentCount.toNat then none
  else
    some { inode.setExtent inode.extentCount.toNat ⟨startLba, sectorCount⟩ with
      extentCount := inode.extentCount + 1 }

/-! ## Blocks -/

/-- The longest run of at most `best` free sectors, and how long it is.  `(0, 0)`
when no sector is free. -/
def bestFreeRun (sb : Superblock) (blockBitmap : Bytes 262144) : Nat → Nat × Nat
  | 0 => (0, 0)
  | best + 1 =>
    let runStart := findFreeRun blockBitmap sb.dataLba.toNat sb.totalSectors.toNat (best + 1)
    if runStart ≠ 0 then (best + 1, runStart) else bestFreeRun sb blockBitmap best

/-- The loop of `allocateBlocks`; every round takes at least one sector. -/
def allocateLoop (sb : Superblock) :
    (fuel additional : Nat) → Bytes 262144 → Inode → Bool × Bytes 262144 × Inode
  | 0, _, blockBitmap, inode => (true, blockBitmap, inode)
  | fuel + 1, additional, blockBitmap, inode =>
    if additional = 0 then (true, blockBitmap, inode)
    else
      let (best, runStart) := bestFreeRun sb blockBitmap additional
      if best = 0 then (false, blockBitmap, inode)
      else
        let blockBitmap := bitmapSetAll blockBitmap (runSectors runStart best) true
        match appendExtent inode (UInt32.ofNat runStart) (UInt32.ofNat best) with
        | none => (false, blockBitmap, inode)
        | some inode => allocateLoop sb fuel (additional - best) blockBitmap inode

def allocateBlocks (sb : Superblock) (id : Fin 4096) (additionalSectors : Nat) (md : Metadata) :
    Bool × Metadata :=
  let (done, blockBitmap, inode) :=
    allocateLoop sb additionalSectors additionalSectors md.blockBitmap (md.inodes id)
  (done, { md with blockBitmap := blockBitmap }.setInode id inode)

def freeInodeBlocks (md : Metadata) (id : Fin 4096) : Metadata :=
  let inode := md.inodes id
  { md with blockBitmap := bitmapSetAll md.blockBitmap inode.sectors false }.setInode id
    { inode with extents := fun _ => Extent.zero, extentCount := 0 }

/-- The loop of `shrinkInodeToSectors` over the extents, with `kept` sectors
before them. -/
def shrinkLoop (target : Nat) :
    (kept : Nat) → List Extent → Bytes 262144 → List Extent × Bytes 262144
  | _, [], blockBitmap => ([], blockBitmap)
  | kept, extent :: rest, blockBitmap =>
    if target ≤ kept then
      let (others, blockBitmap) :=
        shrinkLoop target kept rest (bitmapSetAll blockBitmap extent.sectors false)
      (Extent.zero :: others, blockBitmap)
    else if kept + extent.sectorCount.toNat ≤ target then
      let (others, blockBitmap) :=
        shrinkLoop target (kept + extent.sectorCount.toNat) rest blockBitmap
      (extent :: others, blockBitmap)
    else
      let keepHere := target - kept
      let (others, blockBitmap) := shrinkLoop target target rest
        (bitmapSetAll blockBitmap (extent.sectors.drop keepHere) false)
      (⟨extent.startLba, UInt32.ofNat keepHere⟩ :: others, blockBitmap)

/-- The inode with its first extents replaced. -/
def Inode.withExtents (inode : Inode) (extents : List Extent) : Inode :=
  { inode with
    extents := fun i => extents.getD i.val (inode.extents i)
    extentCount := UInt32.ofNat (extents.takeWhile (·.sectorCount ≠ 0)).length }

def shrinkInodeToSectors (md : Metadata) (id : Fin 4096) (targetSectors : Nat) : Metadata :=
  let inode := md.inodes id
  let (extents, blockBitmap) := shrinkLoop targetSectors 0 inode.usedExtents md.blockBitmap
  { md with blockBitmap := blockBitmap }.setInode id (inode.withExtents extents)

/-! ## Growth -/

/-- The sectors `size` bytes take, in the widths the driver computes with. -/
def sectorsFor (size : Nat) : UInt32 :=
  if size = 0 then 0 else UInt32.ofNat ((size + sectorSize - 1) % 2 ^ 64 / sectorSize)

/-- How far an inode grows when `required` sectors do not fit `current`. -/
def growthTarget (current required : UInt32) : UInt32 :=
  let target :=
    if current < minimumGrowthSectors then minimumGrowthSectors
    else if required < current * 2 then current * 2
    else required
  if target < required then required else target

def ensureInodeCapacity (sb : Superblock) (id : Fin 4096) (requiredSize : Nat) (md : Metadata) :
    Bool × Metadata :=
  let current := inodeCapacitySectors (md.inodes id)
  let required := sectorsFor requiredSize
  if required ≤ current then (true, md)
  else allocateBlocks sb id (growthTarget current required - current).toNat md

def inodeCapacityBytes (inode : Inode) : Nat := (inodeCapacitySectors inode).toNat * sectorSize

end SavanXP.SxFS
