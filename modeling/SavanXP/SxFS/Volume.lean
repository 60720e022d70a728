import SavanXP.Library.Disk
import SavanXP.SxFS.Format

/-!
# A mounted volume

The in-memory state of one volume of `kernel/sxfs.cpp`: its metadata, its
record cache and the snapshot a mutation starts from.  The metadata is also one
linear run of sectors, block bitmap, inode bitmap and inode table, which is its
order on disk and in the journal.
-/

namespace SavanXP.SxFS

open SavanXP.Library

/-! ## Metadata -/

@[ext]
structure Metadata where
  blockBitmap : Bytes 262144
  inodeBitmap : Bytes 512
  inodes : Fin 4096 → Inode

def inodeBitmapIndex : Nat := blockBitmapSectors
def inodeTableIndex : Nat := blockBitmapSectors + inodeBitmapSectors

def byteAt {size : Nat} (bytes : Bytes size) (pos : Nat) : UInt8 :=
  if inside : pos < size then bytes ⟨pos, inside⟩ else 0

/-- The inode table as the bytes it occupies. -/
def inodeTableByte (inodes : Fin 4096 → Inode) (pos : Nat) : UInt8 :=
  if inside : pos / inodeSize < 4096 then
    Inode.codec (inodes ⟨pos / inodeSize, inside⟩)
      ⟨pos % inodeSize, Nat.mod_lt _ (by decide)⟩
  else 0

def metadataSector (md : Metadata) (i : Nat) : Sector :=
  fun off =>
    if i < inodeBitmapIndex then
      byteAt md.blockBitmap (i * sectorSize + off.val)
    else if i < inodeTableIndex then
      byteAt md.inodeBitmap ((i - inodeBitmapIndex) * sectorSize + off.val)
    else
      inodeTableByte md.inodes ((i - inodeTableIndex) * sectorSize + off.val)

/-- Byte `pos` of the run of sectors that starts at index `first`. -/
def runByte (sectors : Nat → Sector) (first pos : Nat) : UInt8 :=
  sectors (first + pos / sectorSize) ⟨pos % sectorSize, Nat.mod_lt _ (by decide)⟩

/-- The metadata a run of sectors holds. -/
def Metadata.ofSectors (sectors : Nat → Sector) : Metadata where
  blockBitmap pos := runByte sectors 0 pos.val
  inodeBitmap pos := runByte sectors inodeBitmapIndex pos.val
  inodes id := Inode.codec.symm fun off =>
    runByte sectors inodeTableIndex (id.val * inodeSize + off.val)

theorem byteAt_of_lt {size : Nat} (bytes : Bytes size) {pos : Nat} (inside : pos < size) :
    byteAt bytes pos = bytes ⟨pos, inside⟩ :=
  dif_pos inside

theorem runByte_split (sectors : Nat → Sector) (first i : Nat) (off : Fin 512) :
    runByte sectors first (i * sectorSize + off.val) = sectors (first + i) off := by
  have quotient : (i * sectorSize + off.val) / sectorSize = i := by
    simp only [sectorSize]
    omega
  have remainder : (i * sectorSize + off.val) % sectorSize = off.val := by
    simp only [sectorSize]
    omega
  unfold runByte
  congr 1
  · rw [quotient]
  · exact Fin.ext remainder

/-- Reading a run of sectors into memory and writing it out is the identity. -/
theorem metadataSector_ofSectors (sectors : Nat → Sector) {i : Nat}
    (inside : i < journalMetadataSectors) :
    metadataSector (Metadata.ofSectors sectors) i = sectors i := by
  funext off
  simp only [journalMetadataSectors, blockBitmapSectors, inodeBitmapSectors, inodeTableSectors]
    at inside
  unfold metadataSector
  split
  · next first =>
    simp only [inodeBitmapIndex, blockBitmapSectors] at first
    rw [byteAt_of_lt _ (by simp only [sectorSize]; omega)]
    exact (runByte_split sectors 0 i off).trans (by rw [Nat.zero_add])
  · next first =>
    simp only [inodeBitmapIndex, blockBitmapSectors] at first
    split
    · next second =>
      simp only [inodeTableIndex, blockBitmapSectors, inodeBitmapSectors] at second
      rw [byteAt_of_lt _ (by simp only [sectorSize, inodeBitmapIndex, blockBitmapSectors]; omega)]
      refine (runByte_split sectors inodeBitmapIndex _ off).trans ?_
      rw [show inodeBitmapIndex + (i - inodeBitmapIndex) = i by
        simp only [inodeBitmapIndex, blockBitmapSectors]; omega]
    · next second =>
      simp only [inodeTableIndex, blockBitmapSectors, inodeBitmapSectors] at second
      have e : ((i - inodeTableIndex) * sectorSize + off.val) / inodeSize < 4096 := by
        simp only [sectorSize, inodeSize, inodeTableIndex, blockBitmapSectors, inodeBitmapSectors]
        omega
      rw [inodeTableByte, dif_pos e]
      simp only [Metadata.ofSectors, Equiv.apply_symm_apply]
      rw [Nat.div_add_mod']
      refine (runByte_split sectors inodeTableIndex _ off).trans ?_
      rw [show inodeTableIndex + (i - inodeTableIndex) = i by
        simp only [inodeTableIndex, blockBitmapSectors, inodeBitmapSectors]; omega]

theorem runByte_congr {left right : Nat → Sector} {first : Nat} (n : Nat)
    (same : ∀ i < n, left (first + i) = right (first + i))
    {pos : Nat} (inside : pos < n * sectorSize) :
    runByte left first pos = runByte right first pos := by
  unfold runByte
  rw [same]
  rw [sectorSize] at inside ⊢
  omega

theorem Metadata.ofSectors_congr {left right : Nat → Sector}
    (same : ∀ i < journalMetadataSectors, left i = right i) :
    Metadata.ofSectors left = Metadata.ofSectors right := by
  simp only [journalMetadataSectors, blockBitmapSectors, inodeBitmapSectors, inodeTableSectors]
    at same
  apply Metadata.ext
  · funext pos
    exact runByte_congr 512 (fun i inside => same _ (by omega))
      (by rw [sectorSize]; omega)
  · funext pos
    exact runByte_congr 1
      (fun i inside => same _ (by simp only [inodeBitmapIndex, blockBitmapSectors]; omega))
      (by rw [sectorSize]; omega)
  · funext id
    refine congrArg Inode.codec.symm (funext fun off => ?_)
    exact runByte_congr 1024
      (fun i inside => same _ (by
        simp only [inodeTableIndex, blockBitmapSectors, inodeBitmapSectors]; omega))
      (by rw [sectorSize, inodeSize]; omega)

/-- Writing metadata out and reading it back is the identity. -/
theorem Metadata.ofSectors_metadataSector (md : Metadata) :
    Metadata.ofSectors (metadataSector md) = md := by
  apply Metadata.ext
  · funext pos
    have bound := pos.isLt
    change runByte (metadataSector md) 0 pos.val = _
    unfold runByte metadataSector
    rw [if_pos (by simp only [inodeBitmapIndex, blockBitmapSectors, sectorSize]; omega)]
    simp only [Nat.zero_add]
    rw [Nat.div_add_mod', byteAt_of_lt _ bound]
  · funext pos
    have bound := pos.isLt
    change runByte (metadataSector md) inodeBitmapIndex pos.val = _
    unfold runByte metadataSector
    rw [if_neg (Nat.not_lt.mpr (Nat.le_add_right _ _)),
      if_pos (by simp only [inodeBitmapIndex, inodeTableIndex, blockBitmapSectors,
        inodeBitmapSectors, sectorSize]; omega)]
    simp only [Nat.add_sub_cancel_left]
    rw [Nat.div_add_mod', byteAt_of_lt _ bound]
  · funext id
    have idBound := id.isLt
    change Inode.codec.symm (fun off =>
      runByte (metadataSector md) inodeTableIndex (id.val * inodeSize + off.val)) = _
    rw [Equiv.symm_apply_eq]
    funext off
    unfold runByte metadataSector
    have past : inodeBitmapIndex ≤ inodeTableIndex := Nat.le_add_right _ _
    rw [if_neg (Nat.not_lt.mpr (past.trans (Nat.le_add_right _ _))),
      if_neg (Nat.not_lt.mpr (Nat.le_add_right _ _))]
    simp only [Nat.add_sub_cancel_left]
    rw [Nat.div_add_mod']
    have quotient : (id.val * inodeSize + off.val) / inodeSize = id.val := by
      simp only [inodeSize]
      omega
    have remainder : (id.val * inodeSize + off.val) % inodeSize = off.val := by
      simp only [inodeSize]
      omega
    have e : (⟨(id.val * inodeSize + off.val) / inodeSize, quotient.symm ▸ idBound⟩ :
        Fin 4096) = id := Fin.ext quotient
    rw [inodeTableByte, dif_pos (quotient.symm ▸ idBound), e]
    exact congrArg (Inode.codec (md.inodes id)) (Fin.ext remainder)

/-- An inode is determined by the sector of the table it lies in. -/
theorem Metadata.inode_of_sector {left right : Metadata} (id : Fin 4096)
    (same : metadataSector left (inodeTableIndex + id.val / 4) =
      metadataSector right (inodeTableIndex + id.val / 4)) : left.inodes id = right.inodes id := by
  rw [← Metadata.ofSectors_metadataSector left, ← Metadata.ofSectors_metadataSector right]
  refine congrArg Inode.codec.symm (funext fun off => ?_)
  have place : (id.val * inodeSize + off.val) / sectorSize = id.val / 4 := by
    simp only [inodeSize, sectorSize]
    omega
  unfold runByte
  rw [place, same]

/-- Metadata is determined by its sectors. -/
theorem Metadata.ext_sectors {left right : Metadata} (same : ∀ i < journalMetadataSectors,
      metadataSector left i = metadataSector right i) : left = right := by
  rw [← Metadata.ofSectors_metadataSector left, ← Metadata.ofSectors_metadataSector right]
  exact Metadata.ofSectors_congr same

/-! ## Volumes -/

inductive MountStatus where
  | unavailable
  | mounted
  | readOnly
  deriving DecidableEq, Repr

inductive RecoveryState where
  | failed
  | writable
  | readOnly
  deriving DecidableEq, Repr

/-- One entry of the record cache; an unused entry is `none` in the table. -/
structure FileRecord where
  directory : Bool
  inodeId : UInt32
  parentInodeId : UInt32
  name : Path
  path : Path
  size : UInt32
  deriving DecidableEq

structure Volume where
  status : MountStatus
  metadataReady : Bool
  mountPoint : Path
  superblock : Superblock
  metadata : Metadata
  records : Fin 4095 → Option FileRecord
  snapshotSuperblock : Superblock
  snapshot : Metadata
  snapshotValid : Bool
  fullCommitPending : Bool
  metadataCommits : UInt32
  metadataBytesWritten : UInt64

def Metadata.zero : Metadata := ⟨fun _ => 0, fun _ => 0, fun _ => Inode.zero⟩

/-- A volume slot before anything is mounted in it. -/
def Volume.blank : Volume where
  status := .unavailable
  metadataReady := false
  mountPoint := []
  superblock := Superblock.zero
  metadata := Metadata.zero
  records := fun _ => none
  snapshotSuperblock := Superblock.zero
  snapshot := Metadata.zero
  snapshotValid := false
  fullCommitPending := false
  metadataCommits := 0
  metadataBytesWritten := 0

/-- A volume together with the device it is mounted from. -/
structure State where
  volume : Volume
  disk : Disk Sector

def bitmapTest {size : Nat} (bitmap : Bytes size) (bit : Nat) : Bool := Bits.test bitmap bit

def bitmapSet {size : Nat} (bitmap : Bytes size) (bit : Nat) (v : Bool) : Bytes size :=
  Bits.set bitmap bit v

/-- The table index of an inode id; `none` stands for the null pointer. -/
def inodeForId (inodeId : UInt32) : Option (Fin 4096) :=
  if inside : inodeId ≠ 0 ∧ inodeId.toNat - 1 < 4096 then some ⟨inodeId.toNat - 1, inside.2⟩
  else none

/-- The sectors an inode claims, in the order its extents list them. -/
def Inode.sectors (inode : Inode) : List Nat :=
  inode.usedExtents.flatMap fun extent =>
    (List.range extent.sectorCount.toNat).map (extent.startLba.toNat + ·)

def extentIsValid (sb : Superblock) (extent : Extent) : Bool :=
  extent.sectorCount ≠ 0 && sb.dataLba ≤ extent.startLba && extent.startLba < sb.totalSectors &&
    extent.sectorCount ≤ sb.totalSectors - extent.startLba

/-- Every extent is in range and overlaps none of the later ones. -/
def extentsAreValid (sb : Superblock) : List Extent → Bool
  | [] => true
  | extent :: rest =>
    extentIsValid sb extent &&
      rest.all (fun next => !(extent.startLba < next.startLba + next.sectorCount &&
        next.startLba < extent.startLba + extent.sectorCount)) &&
      extentsAreValid sb rest

def inodeMetadataIsValid (sb : Superblock) (blockBitmap : Bytes 262144) (inode : Inode)
    (inodeId : UInt32) : Bool :=
  if (inode.type ≠ inodeUnused ∧ inode.inodeId ≠ inodeId) ∨
      (inode.type ≠ inodeUnused ∧ inode.type ≠ inodeFile ∧ inode.type ≠ inodeDirectory) ∨
      maxExtents < inode.extentCount.toNat then false
  else if !extentsAreValid sb inode.usedExtents then false
  else
    let capacitySectors := (inode.usedExtents.map (·.sectorCount.toNat)).sum
    if inode.type = inodeUnused then inode.extentCount = 0 && inode.size = 0
    else if (2 ^ 64 - 1) / sectorSize < capacitySectors ∨
        capacitySectors * sectorSize < inode.size.toNat then false
    else inode.sectors.all (bitmapTest blockBitmap)

/-- Mark the sectors of one inode as claimed; `none` when one already was. -/
def claimSectors : List Nat → Bytes 262144 → Option (Bytes 262144)
  | [], claims => some claims
  | lba :: rest, claims =>
    if bitmapTest claims lba then none else claimSectors rest (bitmapSet claims lba true)

def homeInodesAreValid (sb : Superblock) (md : Metadata) :
    List (Fin 4096) → Bytes 262144 → Bool
  | [], _ => true
  | id :: rest, claims =>
    let alloc := bitmapTest md.inodeBitmap id.val
    let inode := md.inodes id
    if alloc ≠ decide (inode.type ≠ inodeUnused) ∨
        inodeMetadataIsValid sb md.blockBitmap inode (UInt32.ofNat (id.val + 1)) = false then false
    else
      match claimSectors inode.sectors claims with
      | none => false
      | some claims => homeInodesAreValid sb md rest claims

def homeMetadataIsValid (sb : Superblock) (md : Metadata) : Bool :=
  bitmapTest md.inodeBitmap (rootInode - 1) &&
    homeInodesAreValid sb md (List.finRange 4096) (fun _ => 0)

def Volume.snapshotMetadata (volume : Volume) : Volume :=
  { volume with
    snapshotSuperblock := volume.superblock
    snapshot := volume.metadata
    snapshotValid := true }

def Volume.restoreMetadata (volume : Volume) : Volume :=
  { volume with superblock := volume.snapshotSuperblock, metadata := volume.snapshot }

/-! ## Validity depends on the geometry only -/

theorem extentsAreValid_congr {left right : Superblock} (data : left.dataLba = right.dataLba)
    (total : left.totalSectors = right.totalSectors) (extents : List Extent) :
    extentsAreValid left extents = extentsAreValid right extents := by
  induction extents with
  | nil => rfl
  | cons extent rest ih => simp only [extentsAreValid, extentIsValid, data, total, ih]

theorem homeMetadataIsValid_congr {left right : Superblock} (data : left.dataLba = right.dataLba)
    (total : left.totalSectors = right.totalSectors) (md : Metadata) :
    homeMetadataIsValid left md = homeMetadataIsValid right md := by
  have inodes (ids : List (Fin 4096)) (claims : Bytes 262144) :
      homeInodesAreValid left md ids claims = homeInodesAreValid right md ids claims := by
    induction ids generalizing claims with
    | nil => rfl
    | cons id rest ih =>
      simp only [homeInodesAreValid, inodeMetadataIsValid, extentsAreValid_congr data total, ih]
  simp only [homeMetadataIsValid, inodes]

end SavanXP.SxFS
