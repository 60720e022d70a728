import SavanXP.Library.Fallible
import SavanXP.SxFS.Inodes
import SavanXP.SxFS.Journal

/-!
# Inode contents and directories

Bytes of an inode are found through its extents, read a sector at a time and
written in place through the device's cache.  A directory is an inode whose
bytes are fixed-size entries; a removed entry leaves a hole that the next one
added takes.
-/

namespace SavanXP.SxFS

open SavanXP.Library

/-! ## Bytes of an inode -/

/-- The sector that holds byte `rem` of a list of extents, and where in the
sector it is. -/
def locateOffset : List Extent → (rem : Nat) → Option (Nat × Nat)
  | [], _ => none
  | extent :: rest, rem =>
    if rem < extent.sectorCount.toNat * sectorSize then
      some ((extent.startLba + UInt32.ofNat (rem / sectorSize)).toNat,
        rem % sectorSize)
    else locateOffset rest (rem - extent.sectorCount.toNat * sectorSize)

def locateInodeOffset (inode : Inode) (off : Nat) : Option (Nat × Nat) :=
  locateOffset inode.usedExtents off

/-- The sectors from byte `rem` to the end of the extent that holds it. -/
def contiguousSectors : List Extent → (rem : Nat) → Nat
  | [], _ => 0
  | extent :: rest, rem =>
    if rem < extent.sectorCount.toNat * sectorSize then
      (extent.sectorCount - UInt32.ofNat (rem / sectorSize)).toNat
    else contiguousSectors rest (rem - extent.sectorCount.toNat * sectorSize)

def contiguousSectorsAt (inode : Inode) (off : Nat) : Nat :=
  contiguousSectors inode.usedExtents off

def readDisk (lba n : Nat) : Fallible State (Nat → Sector) :=
  fun s =>
    let (buf, disk) := s.disk.read lba n
    (buf, { s with disk := disk })

def writeDisk (lba : Nat) (data : List Sector) : Fallible State Unit :=
  Fallible.perform (onDisk (·.writeCached lba data))

/-- One sector with some of its bytes replaced. -/
def patchedSector {size : Nat} (sector : Bytes size) (first n : Nat) (bytes : Nat → UInt8) :
    Bytes size :=
  fun off =>
    if first ≤ off.val ∧ off.val < first + n then bytes (off.val - first)
    else sector off

/-- Whole sectors taken from a buffer. -/
def wholeSectors {size : Nat} (bytes : Nat → UInt8) (n : Nat) : List (Bytes size) :=
  (List.range n).map fun i off => bytes (i * size + off.val)

/-- Bytes `first` to `first + n` of a sector. -/
def sectorSlice (sector : Sector) (first n : Nat) : List UInt8 :=
  (List.range n).map fun i => byteAt sector (first + i)

/-- The loop of `readInodeBytes`: at least one byte a round. -/
def readLoop (inode : Inode) : (fuel rem fileOffset : Nat) → Fallible State (List UInt8)
  | 0, _, _ => pure []
  | fuel + 1, rem, fileOffset =>
    if rem = 0 then pure []
    else do
      let (lba, sectorOffset) ← Fallible.ofOption (locateInodeOffset inode fileOffset)
      let buf ← readDisk lba 1
      let chunk := min (sectorSize - sectorOffset) rem
      let rest ← readLoop inode fuel (rem - chunk) (fileOffset + chunk)
      pure (sectorSlice (buf 0) sectorOffset chunk ++ rest)

def readInodeBytes (inode : Inode) (off n : Nat) : Fallible State (List UInt8) :=
  if n = 0 then pure []
  else do
    Fallible.require (off ≤ inode.size.toNat && n ≤ inode.size.toNat - off)
    readLoop inode n n off

/-- One round of `writeInodeBytes`; gives how many bytes it wrote.  Whole sectors
that are adjacent on disk go out as one command. -/
def writeChunk (inode : Inode) (fileOffset : Nat) (bytes : Nat → UInt8) (rem : Nat) :
    Fallible State Nat := do
  let (lba, sectorOffset) ← Fallible.ofOption (locateInodeOffset inode fileOffset)
  let run := min (contiguousSectorsAt inode fileOffset) (rem / sectorSize)
  if sectorOffset = 0 ∧ sectorSize ≤ rem ∧ 1 < run then do
    writeDisk lba (wholeSectors bytes run)
    pure (run * sectorSize)
  else do
    let chunk := min (sectorSize - sectorOffset) rem
    let sector ←
      if sectorOffset ≠ 0 ∨ chunk ≠ sectorSize then do
        let buf ← readDisk lba 1
        pure (buf 0)
      else pure zeroSector
    writeDisk lba [patchedSector sector sectorOffset chunk bytes]
    pure chunk

/-- The loop of `writeInodeBytes`: at least one byte a round. -/
def writeLoop (inode : Inode) :
    (fuel rem fileOffset : Nat) → (bytes : Nat → UInt8) → Fallible State Unit
  | 0, _, _, _ => pure ()
  | fuel + 1, rem, fileOffset, bytes =>
    if rem = 0 then pure ()
    else do
      let written ← writeChunk inode fileOffset bytes rem
      writeLoop inode fuel (rem - written) (fileOffset + written)
        fun i => bytes (written + i)

def writeInodeBytes (inode : Inode) (off : Nat) (bytes : Nat → UInt8) (n : Nat) :
    Fallible State Unit :=
  writeLoop inode n n off bytes

/-- The loop of `zeroInodeRange`: a sector's worth of bytes a round. -/
def zeroLoop (inode : Inode) : (fuel rem fileOffset : Nat) → Fallible State Unit
  | 0, _, _ => pure ()
  | fuel + 1, rem, fileOffset =>
    if rem = 0 then pure ()
    else do
      let chunk := min rem sectorSize
      writeInodeBytes inode fileOffset (fun _ => 0) chunk
      zeroLoop inode fuel (rem - chunk) (fileOffset + chunk)

def zeroInodeRange (inode : Inode) (off n : Nat) : Fallible State Unit :=
  zeroLoop inode n n off

/-! ## Directory entries -/

/-- The name of an entry, without what follows its length. -/
def DirEntry.nameBytes (e : DirEntry) : Path :=
  (List.ofFn e.name).take e.nameLength.toNat

/-- The entry `addDirectoryEntry` writes. -/
def DirEntry.make (inodeId : UInt32) (type : UInt16) (name : Path) : DirEntry where
  inodeId := inodeId
  type := type
  nameLength := UInt16.ofNat name.length
  name := fun i => name.getD i.val 0
  reserved := fun _ => 0

/-- What `readDirEntry` asks of an entry it has read. -/
def dirEntryValid (md : Metadata) (e : DirEntry) : Bool :=
  if e.inodeId = 0 then e.nameLength = 0 && e.type = 0
  else if e.nameLength = 0 ∨ maxNameLength < e.nameLength.toNat ∨
      byteAt e.name e.nameLength.toNat ≠ 0 then false
  else if 0 ∈ e.nameBytes then false
  else
    match inodeForId e.inodeId with
    | none => false
    | some id =>
      let type := (md.inodes id).type
      type ≠ inodeUnused &&
        ((type = inodeDirectory && e.type = inodeDirectory) ||
          (type = inodeFile && e.type = inodeFile))

def DirEntry.ofBytes (bytes : List UInt8) : DirEntry :=
  DirEntry.codec.symm fun i => bytes.getD i.val 0

def readDirEntry (dir : Inode) (off : Nat) : Fallible State DirEntry := do
  Fallible.require (off ≤ dir.size.toNat && dirEntrySize ≤ dir.size.toNat - off)
  let bytes ← readInodeBytes dir off dirEntrySize
  let e := DirEntry.ofBytes bytes
  let s ← Fallible.get
  Fallible.require (dirEntryValid s.volume.metadata e)
  pure e

def writeDirEntry (dir : Inode) (off : Nat) (e : DirEntry) : Fallible State Unit :=
  writeInodeBytes dir off (byteAt (DirEntry.codec e)) dirEntrySize

/-- The offsets of the entries of a directory, in order. -/
def entryOffsets (dir : Inode) : List Nat :=
  (List.range (dir.size.toNat / dirEntrySize)).map (· * dirEntrySize)

/-- An entry that names nothing. -/
def DirEntry.hole (e : DirEntry) : Bool := e.inodeId = 0 || e.nameLength = 0

def findEntryLoop (dir : Inode) (name : Path) : List Nat → Fallible State (DirEntry × Nat)
  | [] => Fallible.fail
  | off :: rest => do
      let current ← readDirEntry dir off
      if !current.hole && current.nameLength.toNat ≤ maxNameLength && current.nameBytes = name then
        pure (current, off)
      else findEntryLoop dir name rest

def findDirectoryEntry (dir : Inode) (name : Path) : Fallible State (DirEntry × Nat) := do
  Fallible.require (dir.type = inodeDirectory)
  findEntryLoop dir name (entryOffsets dir)

/-- Whether some entry names something; an entry that cannot be read ends the
search. -/
def childLoop (dir : Inode) : List Nat → Action State
  | [], s => (false, s)
  | off :: rest, s =>
    match readDirEntry dir off s with
    | (none, s) => (false, s)
    | (some e, s) => if !e.hole then (true, s) else childLoop dir rest s

def directoryHasChildren (dir : Inode) : Action State :=
  childLoop dir (entryOffsets dir)

/-- The offset of the first hole, or the end of the directory. -/
def holeLoop (dir : Inode) : List Nat → Fallible State Nat
  | [] => pure dir.size.toNat
  | off :: rest => do
      let current ← readDirEntry dir off
      if current.hole then pure off else holeLoop dir rest

/-- Change the metadata in memory. -/
def editMetadata (edit : Metadata → Metadata) : Fallible State Unit :=
  Fallible.update fun s =>
    { s with volume := { s.volume with metadata := edit s.volume.metadata } }

def growInode (id : Fin 4096) (requiredSize : Nat) : Fallible State Unit :=
  Fallible.perform fun s =>
    let (done, md) := ensureInodeCapacity s.volume.superblock id requiredSize
      s.volume.metadata
    (done, { s with volume := { s.volume with metadata := md } })

/-- The inode a table index stands for, as it is now. -/
def currentInode (id : Fin 4096) : Fallible State Inode := do
  let s ← Fallible.get
  pure (s.volume.metadata.inodes id)

def Metadata.extendTo (md : Metadata) (id : Fin 4096) (size : Nat) : Metadata :=
  if (md.inodes id).size.toNat < size then
    md.setInode id { md.inodes id with size := UInt32.ofNat size }
  else md

def addDirectoryEntry (dir : Fin 4096) (inodeId : UInt32) (type : UInt16) (name : Path) :
    Fallible State Unit := do
  Fallible.require (name ≠ [] && name.length ≤ maxNameLength)
  let before ← currentInode dir
  let target ← holeLoop before (entryOffsets before)
  growInode dir (target + dirEntrySize)
  editMetadata (·.extendTo dir (target + dirEntrySize))
  let after ← currentInode dir
  writeDirEntry after target (DirEntry.make inodeId type name)

def removeDirectoryEntry (dir : Fin 4096) (name : Path) : Fallible State Unit := do
  let inode ← currentInode dir
  let (_, off) ← findDirectoryEntry inode name
  writeDirEntry inode off DirEntry.zero

end SavanXP.SxFS
