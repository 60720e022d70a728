import SavanXP.Library.Bytes

/-!
# The on-disk format

Layout constants, records and checks of `sxfs/sxfs_format.h`, and the default
ownership of `sxfs/sxfs_ownership.h`.  The kernel driver and the host library
share them.
-/

namespace SavanXP.SxFS

open SavanXP.Library

/-! ## Layout -/

def sectorSize : Nat := 512
def version : UInt32 := 2
def flagClean : UInt32 := 1
def featureOwnership : UInt32 := 1

def inodeUnused : UInt16 := 0
def inodeFile : UInt16 := 1
def inodeDirectory : UInt16 := 2

def inodeSize : Nat := 128
def dirEntrySize : Nat := 80
def maxExtents : Nat := 8
def inodeNameCapacity : Nat := 64

def primarySbLba : Nat := 0
def secondarySbLba : Nat := 1
def journalLba : Nat := 2
def blockBitmapSectors : Nat := 512
def inodeBitmapSectors : Nat := 1
def inodeTableSectors : Nat := 1024
def maxTotalSectors : Nat := blockBitmapSectors * sectorSize * 8

def journalMetadataSectors : Nat := blockBitmapSectors + inodeBitmapSectors + inodeTableSectors
def journalSectors : Nat := 1 + journalMetadataSectors

def journalKindFull : UInt32 := 0
def journalKindSparse : UInt32 := 1

def blockBitmapLba : Nat := journalLba + journalSectors
def inodeBitmapLba : Nat := blockBitmapLba + blockBitmapSectors
def inodeTableLba : Nat := inodeBitmapLba + inodeBitmapSectors
def dataLba : Nat := inodeTableLba + inodeTableSectors

def maxInodes : Nat := 4096
def maxRelativePath : Nat := 255
def maxNameLength : Nat := inodeNameCapacity - 1
def rootInode : Nat := 1

def checksumBasis : UInt32 := 2166136261
def checksumPrime : UInt32 := 16777619

abbrev Sector : Type := Bytes 512

scoped instance neZero4096 : NeZero 4096 := ⟨by decide⟩

def zeroSector : Sector := fun _ => 0

/-- The eight bytes `SXFS`, padded with zeros. -/
def superblockMagic : Bytes 8 := ![83, 88, 70, 83, 0, 0, 0, 0]

/-- The eight bytes `SXJNL`, padded with zeros. -/
def journalMagic : Bytes 8 := ![83, 88, 74, 78, 76, 0, 0, 0]

/-! ## Records

The byte order of a record is the one of its codec.  The two records that carry
a checksum list it last here, since it depends on all other fields.
-/

@[ext]
structure Extent where
  startLba : UInt32
  sectorCount : UInt32
  deriving DecidableEq

@[ext]
structure Inode where
  inodeId : UInt32
  type : UInt16
  mode : UInt16
  size : UInt32
  linkCount : UInt32
  extentCount : UInt32
  extents : Fin 8 → Extent
  uid : UInt32
  gid : UInt32
  reserved1 : UInt32
  mtime : UInt64
  reserved : Bytes 24

@[ext]
structure Superblock where
  magic : Bytes 8
  version : UInt32
  sequence : UInt32
  flags : UInt32
  totalSectors : UInt32
  journalLba : UInt32
  journalSectors : UInt32
  blockBitmapLba : UInt32
  blockBitmapSectors : UInt32
  inodeBitmapLba : UInt32
  inodeBitmapSectors : UInt32
  inodeTableLba : UInt32
  inodeTableSectors : UInt32
  dataLba : UInt32
  maxInodes : UInt32
  rootInode : UInt32
  features : UInt32
  reserved : Bytes 436
  checksum : UInt32

@[ext]
structure JournalHeader where
  magic : Bytes 8
  sequence : UInt32
  pending : UInt32
  metadataSectors : UInt32
  kind : UInt32
  sectorMap : Bytes 196
  reserved : Bytes 288
  checksum : UInt32

@[ext]
structure DirEntry where
  inodeId : UInt32
  type : UInt16
  nameLength : UInt16
  name : Bytes 64
  reserved : Bytes 8

def Extent.codec : Codec Extent 8 :=
  Equiv.trans
    ⟨fun extent => (extent.startLba, extent.sectorCount), fun fields => ⟨fields.1, fields.2⟩,
      fun _ => rfl, fun _ => rfl⟩
    (Codec.pair Codec.u32 Codec.u32)

def Inode.codec : Codec Inode 128 :=
  Equiv.trans
    ⟨fun inode => (inode.inodeId, inode.type, inode.mode, inode.size, inode.linkCount,
        inode.extentCount, inode.extents, inode.uid, inode.gid, inode.reserved1, inode.mtime,
        inode.reserved),
      fun ⟨inodeId, type, mode, size, linkCount, extentCount, extents, uid, gid, reserved1, mtime,
          reserved⟩ =>
        ⟨inodeId, type, mode, size, linkCount, extentCount, extents, uid, gid, reserved1, mtime,
          reserved⟩,
      fun _ => rfl, fun _ => rfl⟩
    (Codec.pair Codec.u32 <| Codec.pair Codec.u16 <| Codec.pair Codec.u16 <|
      Codec.pair Codec.u32 <| Codec.pair Codec.u32 <| Codec.pair Codec.u32 <|
      Codec.pair (Codec.array 8 Extent.codec) <| Codec.pair Codec.u32 <| Codec.pair Codec.u32 <|
      Codec.pair Codec.u32 <| Codec.pair Codec.u64 <| Codec.raw 24)

def Superblock.codec : Codec Superblock 512 :=
  Equiv.trans
    ⟨fun sb => (sb.magic, sb.version, sb.checksum, sb.sequence, sb.flags, sb.totalSectors,
        sb.journalLba, sb.journalSectors, sb.blockBitmapLba, sb.blockBitmapSectors,
        sb.inodeBitmapLba, sb.inodeBitmapSectors, sb.inodeTableLba, sb.inodeTableSectors,
        sb.dataLba, sb.maxInodes, sb.rootInode, sb.features, sb.reserved),
      fun ⟨magic, version, checksum, sequence, flags, totalSectors, journalLba, journalSectors,
          blockBitmapLba, blockBitmapSectors, inodeBitmapLba, inodeBitmapSectors, inodeTableLba,
          inodeTableSectors, dataLba, maxInodes, rootInode, features, reserved⟩ =>
        ⟨magic, version, sequence, flags, totalSectors, journalLba, journalSectors,
          blockBitmapLba, blockBitmapSectors, inodeBitmapLba, inodeBitmapSectors, inodeTableLba,
          inodeTableSectors, dataLba, maxInodes, rootInode, features, reserved, checksum⟩,
      fun _ => rfl, fun _ => rfl⟩
    (Codec.pair (Codec.raw 8) <| Codec.pair Codec.u32 <| Codec.pair Codec.u32 <|
      Codec.pair Codec.u32 <| Codec.pair Codec.u32 <| Codec.pair Codec.u32 <|
      Codec.pair Codec.u32 <| Codec.pair Codec.u32 <| Codec.pair Codec.u32 <|
      Codec.pair Codec.u32 <| Codec.pair Codec.u32 <| Codec.pair Codec.u32 <|
      Codec.pair Codec.u32 <| Codec.pair Codec.u32 <| Codec.pair Codec.u32 <|
      Codec.pair Codec.u32 <| Codec.pair Codec.u32 <| Codec.pair Codec.u32 <|
      Codec.raw 436)

def JournalHeader.codec : Codec JournalHeader 512 :=
  Equiv.trans
    ⟨fun hdr => (hdr.magic, hdr.checksum, hdr.sequence, hdr.pending,
        hdr.metadataSectors, hdr.kind, hdr.sectorMap, hdr.reserved),
      fun ⟨magic, checksum, sequence, pending, metadataSectors, kind, sectorMap, reserved⟩ =>
        ⟨magic, sequence, pending, metadataSectors, kind, sectorMap, reserved, checksum⟩,
      fun _ => rfl, fun _ => rfl⟩
    (Codec.pair (Codec.raw 8) <| Codec.pair Codec.u32 <| Codec.pair Codec.u32 <|
      Codec.pair Codec.u32 <| Codec.pair Codec.u32 <| Codec.pair Codec.u32 <|
      Codec.pair (Codec.raw 196) <| Codec.raw 288)

def DirEntry.codec : Codec DirEntry 80 :=
  Equiv.trans
    ⟨fun e => (e.inodeId, e.type, e.nameLength, e.name, e.reserved),
      fun ⟨inodeId, type, nameLength, name, reserved⟩ =>
        ⟨inodeId, type, nameLength, name, reserved⟩,
      fun _ => rfl, fun _ => rfl⟩
    (Codec.pair Codec.u32 <| Codec.pair Codec.u16 <| Codec.pair Codec.u16 <|
      Codec.pair (Codec.raw 64) <| Codec.raw 8)

def Extent.zero : Extent := ⟨0, 0⟩

/-- What `memset(&inode, 0, sizeof(inode))` leaves. -/
def Inode.zero : Inode :=
  ⟨0, 0, 0, 0, 0, 0, fun _ => Extent.zero, 0, 0, 0, 0, fun _ => 0⟩

def Superblock.zero : Superblock :=
  ⟨fun _ => 0, 0, 0, 0, 0, 0, 0, 0, 0, 0, 0, 0, 0, 0, 0, 0, 0, fun _ => 0, 0⟩

def JournalHeader.zero : JournalHeader :=
  ⟨fun _ => 0, 0, 0, 0, 0, fun _ => 0, fun _ => 0, 0⟩

def DirEntry.zero : DirEntry := ⟨0, 0, 0, fun _ => 0, fun _ => 0⟩

/-! ## Checksums and validation -/

/-- FNV-1a over a byte string. -/
@[irreducible]
def checksum {size : Nat} (data : Bytes size) : UInt32 :=
  (List.ofFn data).foldl (fun v byte => (v ^^^ byte.toUInt32) * checksumPrime)
    checksumBasis

def superblockChecksum (sb : Superblock) : UInt32 :=
  checksum (Superblock.codec { sb with checksum := 0 })

def journalChecksum (hdr : JournalHeader) : UInt32 :=
  checksum (JournalHeader.codec { hdr with checksum := 0 })

/-- Everything `superblockValid` asks for except the recorded checksum. -/
def Superblock.layoutValid (sb : Superblock) : Bool :=
  sb.magic = superblockMagic &&
    sb.version = SxFS.version &&
    sb.journalLba.toNat = SxFS.journalLba &&
    sb.journalSectors.toNat = SxFS.journalSectors &&
    sb.blockBitmapLba.toNat = SxFS.blockBitmapLba &&
    sb.blockBitmapSectors.toNat = SxFS.blockBitmapSectors &&
    sb.inodeBitmapLba.toNat = SxFS.inodeBitmapLba &&
    sb.inodeBitmapSectors.toNat = SxFS.inodeBitmapSectors &&
    sb.inodeTableLba.toNat = SxFS.inodeTableLba &&
    sb.inodeTableSectors.toNat = SxFS.inodeTableSectors &&
    sb.dataLba.toNat = SxFS.dataLba &&
    sb.maxInodes.toNat = SxFS.maxInodes &&
    sb.rootInode.toNat = SxFS.rootInode &&
    sb.dataLba < sb.totalSectors &&
    sb.totalSectors.toNat ≤ maxTotalSectors

def superblockValid (sb : Superblock) : Bool :=
  sb.layoutValid && sb.checksum = superblockChecksum sb

def journalValid (hdr : JournalHeader) : Bool :=
  hdr.magic = journalMagic &&
    hdr.checksum = journalChecksum hdr &&
    hdr.metadataSectors.toNat = journalMetadataSectors &&
    (hdr.kind = journalKindFull || hdr.kind = journalKindSparse)

/-! ## Helpers shared by the driver and the host library -/

/-- The extents an inode uses: the first `extentCount` of the eight. -/
def Inode.usedExtents (inode : Inode) : List Extent :=
  (List.ofFn inode.extents).take inode.extentCount.toNat

def inodeCapacitySectors (inode : Inode) : UInt32 :=
  inode.usedExtents.foldl (fun sectors extent => sectors + extent.sectorCount) 0

/-- First fit: the loop of `sxfs_find_free_run` from `sector` on, with `left`
sectors still to look at.  `0` is never a data sector and stands for "none". -/
def findFreeRunFrom {size : Nat} (blockBitmap : Bytes size) (required : Nat) :
    (left sector runStart runLength : Nat) → Nat
  | 0, _, _, _ => 0
  | left + 1, sector, runStart, runLength =>
    if !Bits.test blockBitmap sector then
      let start := if runLength = 0 then sector else runStart
      if required ≤ runLength + 1 then start
      else findFreeRunFrom blockBitmap required left (sector + 1) start (runLength + 1)
    else findFreeRunFrom blockBitmap required left (sector + 1) runStart 0

def findFreeRun {size : Nat} (blockBitmap : Bytes size) (dataLba totalSectors required : Nat) :
    Nat :=
  findFreeRunFrom blockBitmap required (totalSectors - dataLba) dataLba 0 0

/-! ## Ownership -/

def modeTypeMask : UInt16 := 0o170000
def modeDirectory : UInt16 := 0o040000
def modeFile : UInt16 := 0o100000

def modeTypeBits (type : UInt16) : UInt16 :=
  if type = inodeDirectory then modeDirectory else modeFile

def modeMatchesType (mode type : UInt16) : Bool :=
  mode &&& modeTypeMask = modeTypeBits type

/-- A path or name: the bytes before the terminating NUL. -/
abbrev Path : Type := List UInt8

def slash : UInt8 := 47

def ownershipPathUnder : Path → Path → Bool
  | [], [] => true
  | character :: _, [] => character = slash
  | [], _ :: _ => false
  | character :: rest, expected :: top => character = expected && ownershipPathUnder rest top

structure Ownership where
  uid : UInt32
  gid : UInt32
  mode : UInt16
  deriving DecidableEq

def usersPath : Path := [117, 115, 101, 114, 115]
def tmpPath : Path := [116, 109, 112]
def binPath : Path := [98, 105, 110]
def libPath : Path := [108, 105, 98]

/-- The owner and mode an inode of `type` at `path` gets when nothing recorded
them. -/
def defaultOwnership (path : Path) (type : UInt16) : Ownership :=
  let dir := type = inodeDirectory
  if ownershipPathUnder path usersPath && path[5]? = some slash && path[6]? ≠ none then
    ⟨1000, 100, modeTypeBits type ||| (if dir then 0o700 else 0o600)⟩
  else if path = tmpPath ∧ dir then
    ⟨0, 0, modeTypeBits type ||| 0o1777⟩
  else if ownershipPathUnder path binPath || ownershipPathUnder path libPath then
    ⟨0, 0, modeTypeBits type ||| 0o755⟩
  else
    ⟨0, 0, modeTypeBits type ||| (if dir then 0o755 else 0o644)⟩

/-! ## First consequences -/

/-- A superblock whose checksum was just computed keeps being the one computed
for it. -/
theorem superblockChecksum_withChecksum (sb : Superblock) (v : UInt32) :
    superblockChecksum { sb with checksum := v } = superblockChecksum sb := rfl

theorem journalChecksum_withChecksum (hdr : JournalHeader) (v : UInt32) :
    journalChecksum { hdr with checksum := v } = journalChecksum hdr := rfl

end SavanXP.SxFS
