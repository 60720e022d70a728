import SavanXP.Library.Action
import SavanXP.SxFS.Volume

/-!
# The metadata journal

`commitMetadata` logs the metadata sectors that changed since the snapshot,
arms the journal header, writes the sectors home and clears the header, with an
ordering point after each of the four steps.  `recoverJournal` replays an armed
journal over the home metadata at mount.
-/

namespace SavanXP.SxFS

open SavanXP.Library

/-- Run a device command on the state. -/
def onDisk (command : Disk Sector → Bool × Disk Sector) : Action State :=
  fun s =>
    let result := command s.disk
    (result.1, { s with disk := result.2 })

inductive Durability where
  | durable
  | cached
  deriving DecidableEq

def writeSectors (lba : Nat) (data : List Sector) (dur : Durability) : Action State :=
  onDisk fun disk =>
    match dur with
    | .cached => disk.writeCached lba data
    | .durable => disk.write lba data

def flushDisk : Action State := onDisk Disk.flush

/-- The superblock as `writeSuperblocks` rewrites it. -/
def Superblock.stamped (sb : Superblock) (sequence flags : UInt32) : Superblock :=
  let renewed := { sb with sequence := sequence, flags := flags }
  { renewed with checksum := superblockChecksum renewed }

def writeSuperblocks (sequence flags : UInt32) (dur : Durability) : Action State :=
  fun s =>
    let sb := s.volume.superblock.stamped sequence flags
    allOf [writeSectors primarySbLba [Superblock.codec sb] dur,
      writeSectors secondarySbLba [Superblock.codec sb] dur]
      { s with volume := { s.volume with superblock := sb } }

def clearJournal (dur : Durability) : Action State :=
  fun s =>
    writeSectors s.volume.superblock.journalLba.toNat
      [JournalHeader.codec JournalHeader.zero] dur s

/-! ## Transfers of runs of metadata sectors -/

/-- First index past the in-memory region that holds sector `i`. -/
def metadataRegionEnd (i : Nat) : Nat :=
  if i < inodeBitmapIndex then inodeBitmapIndex
  else if i < inodeTableIndex then inodeTableIndex
  else journalMetadataSectors

/-- Advance `last` while the map continues the run, at most to `limit`. -/
def runEnd (map : Bytes 196) (limit : Nat) : (left last : Nat) → Nat
  | 0, last => last
  | left + 1, last =>
    if last < limit && Bits.test map last then runEnd map limit left (last + 1) else last

/-- The loop of `transferMetadataSectors`: one command per run of adjacent
mapped sectors of one region, from `i` on. -/
def transferLoop (map : Bytes 196) (command : Nat → Nat → Action State) :
    (left i : Nat) → Action State
  | 0, _, s => (true, s)
  | left + 1, i, s =>
    if journalMetadataSectors ≤ i then (true, s)
    else if !Bits.test map i then transferLoop map command left (i + 1) s
    else
      let limit := metadataRegionEnd i
      let last := runEnd map limit (limit - (i + 1)) (i + 1)
      match command i last s with
      | (false, s) => (false, s)
      | (true, s) => transferLoop map command left last s

def metadataRun (md : Metadata) (i last : Nat) : List Sector :=
  (List.range (last - i)).map fun off => metadataSector md (i + off)

/-- The metadata with a run of sectors replaced by what was read. -/
def Metadata.storeRun (md : Metadata) (i last : Nat) (buf : Nat → Sector) : Metadata :=
  Metadata.ofSectors fun pos =>
    if i ≤ pos ∧ pos < last then buf (pos - i)
    else metadataSector md pos

def writeRun (baseLba i last : Nat) : Action State :=
  fun s =>
    onDisk (·.writeCached (baseLba + i) (metadataRun s.volume.metadata i last)) s

def readRun (baseLba i last : Nat) : Action State :=
  fun s =>
    match s.disk.read (baseLba + i) (last - i) with
    | (none, disk) => (false, { s with disk := disk })
    | (some buf, disk) =>
      (true, { volume := { s.volume with
                 metadata := s.volume.metadata.storeRun i last buf }
               disk := disk })

def transferMetadataSectors (map : Bytes 196) (baseLba : Nat) (write : Bool) : Action State :=
  transferLoop map (if write then writeRun baseLba else readRun baseLba) journalMetadataSectors 0

/-- The sectors that differ from the snapshot, or all of them when the snapshot
cannot be trusted, and how many they are. -/
@[irreducible]
def buildDirtyMap (volume : Volume) : Bytes 196 × Nat :=
  let full := !volume.snapshotValid || volume.fullCommitPending
  (List.range journalMetadataSectors).foldl
    (fun (map, dirty) i =>
      if full || metadataSector volume.metadata i ≠ metadataSector volume.snapshot i then
        (Bits.set map i true, dirty + 1)
      else (map, dirty))
    (fun _ => 0, 0)

/-! ## Recovery -/

def readHomeMetadata : Action State :=
  fun s =>
    let sb := s.volume.superblock
    match s.disk.read sb.blockBitmapLba.toNat sb.blockBitmapSectors.toNat with
    | (none, disk) => (false, { s with disk := disk })
    | (some blocks, disk) =>
      match disk.read sb.inodeBitmapLba.toNat sb.inodeBitmapSectors.toNat with
      | (none, disk) => (false, { s with disk := disk })
      | (some inodeBits, disk) =>
        match disk.read sb.inodeTableLba.toNat sb.inodeTableSectors.toNat with
        | (none, disk) => (false, { s with disk := disk })
        | (some inodes, disk) =>
          (true, { volume := { s.volume with
                     metadata := Metadata.ofSectors fun pos =>
                       if pos < inodeBitmapIndex then blocks pos
                       else if pos < inodeTableIndex then
                         inodeBits (pos - inodeBitmapIndex)
                       else inodes (pos - inodeTableIndex) }
                   disk := disk })

def writeHomeMetadata : Action State :=
  fun s =>
    let sb := s.volume.superblock
    let md := s.volume.metadata
    allOf [
      writeSectors sb.blockBitmapLba.toNat (metadataRun md 0 inodeBitmapIndex) .durable,
      writeSectors sb.inodeBitmapLba.toNat (metadataRun md inodeBitmapIndex inodeTableIndex)
        .durable,
      writeSectors sb.inodeTableLba.toNat (metadataRun md inodeTableIndex journalMetadataSectors)
        .durable] s

/-- The sectors a pending journal replays. -/
def JournalHeader.replayMap (hdr : JournalHeader) : Bytes 196 :=
  if hdr.kind = journalKindSparse then hdr.sectorMap else fun _ => 0xff

/-- Recovery with nothing to replay: home must already be whole. -/
def recoverHome (s : State) : RecoveryState × State :=
  if !homeMetadataIsValid s.volume.superblock s.volume.metadata then (.failed, s)
  else if s.volume.superblock.flags &&& flagClean ≠ 0 then (.writable, s)
  else
    match writeSuperblocks s.volume.superblock.sequence flagClean .durable s with
    | (true, s) => (.writable, s)
    | (false, s) => (.readOnly, s)

/-- Recovery with a pending journal: its sectors are read over the home metadata
in memory, which is validated before anything is written. -/
def replayJournal (hdr : JournalHeader) (s : State) : RecoveryState × State :=
  match transferMetadataSectors hdr.replayMap (s.volume.superblock.journalLba.toNat + 1)
      false s with
  | (false, s) => (.failed, s)
  | (true, s) =>
    if !homeMetadataIsValid s.volume.superblock s.volume.metadata then (.failed, s)
    else
      match allOf [writeHomeMetadata, writeSuperblocks hdr.sequence flagClean .durable,
          clearJournal .durable] s with
      | (true, s) => (.writable, s)
      | (false, s) => (.readOnly, s)

def recoverJournal (s : State) : RecoveryState × State :=
  match s.disk.read s.volume.superblock.journalLba.toNat 1 with
  | (none, disk) => (.failed, { s with disk := disk })
  | (some buf, disk) =>
    let s := { s with disk := disk }
    let hdr := JournalHeader.codec.symm (buf 0)
    if !journalValid hdr || hdr.pending = 0 then recoverHome s
    else replayJournal hdr s

/-- The superblock to mount from: the valid copy with the higher sequence, the
primary one when they agree. -/
def chooseSuperblock (primary secondary : Option Superblock) : Option Superblock :=
  match primary.filter superblockValid, secondary.filter superblockValid with
  | none, none => none
  | some primary, none => some primary
  | none, some secondary => some secondary
  | some primary, some secondary =>
    if secondary.sequence ≤ primary.sequence then some primary else some secondary

/-- The part of `loadFilesystemFromDevice` that brings the metadata into
memory. -/
def loadMetadata (s : State) : RecoveryState × State :=
  let (primary, disk) := s.disk.read primarySbLba 1
  let (secondary, disk) := disk.read secondarySbLba 1
  match chooseSuperblock (primary.map fun buf => Superblock.codec.symm (buf 0))
      (secondary.map fun buf => Superblock.codec.symm (buf 0)) with
  | none => (.failed, { s with disk := disk })
  | some sb =>
    let s : State := { volume := { s.volume with superblock := sb }, disk := disk }
    if disk.sectorCount < sb.totalSectors.toNat then (.failed, s)
    else
      match readHomeMetadata s with
      | (false, s) => (.failed, s)
      | (true, s) => recoverJournal s

/-! ## Commit -/

/-- The header of a commit: pending, sparse, with the map of what it logs. -/
def journalHeaderFor (map : Bytes 196) (sequence : UInt32) : JournalHeader :=
  let hdr : JournalHeader :=
    { JournalHeader.zero with
      magic := journalMagic
      sequence := sequence
      pending := 1
      metadataSectors := UInt32.ofNat journalMetadataSectors
      kind := journalKindSparse
      sectorMap := map }
  { hdr with checksum := journalChecksum hdr }

/-- The first three ordering points of a commit: payload, header, home. -/
def applySteps (map : Bytes 196) (sequence : UInt32) (sb : Superblock) : List (Action State) :=
  [transferMetadataSectors map (sb.journalLba.toNat + 1) true,
    flushDisk,
    onDisk (·.writeCached sb.journalLba.toNat
      [JournalHeader.codec (journalHeaderFor map sequence)]),
    writeSuperblocks sequence 0 .cached,
    flushDisk,
    transferMetadataSectors map sb.blockBitmapLba.toNat true,
    flushDisk]

/-- The last ordering point: clean superblocks and a cleared header. -/
def sealSteps (sequence : UInt32) : List (Action State) :=
  [writeSuperblocks sequence flagClean .cached, clearJournal .cached, flushDisk]

/-- The device work of a commit with the given map. -/
def commitSteps (map : Bytes 196) (sequence : UInt32) (sb : Superblock) : List (Action State) :=
  applySteps map sequence sb ++ sealSteps sequence

def commitMetadata : Action State :=
  fun s =>
    let (map, dirty) := buildDirtyMap s.volume
    if dirty = 0 then
      flushDisk { s with volume := { s.volume with snapshotValid := false } }
    else
      let nextSequence := s.volume.superblock.sequence + 1
      match allOf (commitSteps map nextSequence s.volume.superblock) s with
      | (false, s) =>
        (false, { s with volume := { s.volume with fullCommitPending := true } })
      | (true, s) =>
        (true, { s with
          volume := { s.volume with
            fullCommitPending := false
            snapshotValid := false
            metadataCommits := s.volume.metadataCommits + 1
            metadataBytesWritten := s.volume.metadataBytesWritten +
              UInt64.ofNat (2 * (dirty * sectorSize) + 3 * sectorSize) } })

end SavanXP.SxFS
