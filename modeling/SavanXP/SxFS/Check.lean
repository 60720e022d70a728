import SavanXP.SxFS.Operations

/-!
# The consistency report

`check` compares the block bitmap with what the inodes claim, walks the tree
from the root with a stack of fixed size, and counts what does not fit
together.
-/

namespace SavanXP.SxFS

open SavanXP.Library

structure CheckReport where
  totalSectors : UInt32
  dataLba : UInt32
  sequence : UInt32
  cleanShutdown : Bool
  journalValid : Bool
  ownershipRecorded : Bool
  journalPending : UInt32
  inodesAllocated : Nat
  files : Nat
  directories : Nat
  dataSectors : Nat
  dataUsedSectors : Nat
  dataClaimedSectors : Nat
  leakedBlocks : Nat
  lostBlocks : Nat
  doubleClaimedBlocks : Nat
  metadataUnmarked : Nat
  orphanInodes : Nat
  aliasInodes : Nat
  duplicateNames : Nat
  badDirEntries : Nat
  unreadableDirs : Nat
  unownedInodes : Nat
  metadataCommits : UInt32
  metadataBytesWritten : UInt64

/-! ## The walk -/

/-- What the walk has seen, and the directories it still has to read, the next
one first. -/
structure Walk where
  visited : Bytes 512
  pending : List UInt32
  files : Nat
  directories : Nat
  aliasInodes : Nat
  duplicateNames : Nat
  badDirEntries : Nat
  unreadableDirs : Nat

/-- Whether an earlier entry of the directory has the same name.  Entries that
cannot be read are passed over. -/
def repeatsName (dir : Inode) (e : DirEntry) : List Nat → Action State
  | [], s => (false, s)
  | prev :: rest, s =>
    match readDirEntry dir prev s with
    | (none, s) => repeatsName dir e rest s
    | (some other, s) =>
      if other.inodeId ≠ 0 ∧ other.nameLength = e.nameLength ∧
          other.nameBytes = e.nameBytes then (true, s)
      else repeatsName dir e rest s

/-- Follow an entry to an inode that may have been visited before. -/
def Walk.follow (walk : Walk) (e : DirEntry) : Walk :=
  let bit := e.inodeId.toNat - 1
  if bitmapTest walk.visited bit then { walk with aliasInodes := walk.aliasInodes + 1 }
  else
    let walk := { walk with visited := bitmapSet walk.visited bit true }
    if e.type = inodeDirectory then
      if walk.pending.length < maxDirectoryDepth then
        { walk with pending := e.inodeId :: walk.pending }
      else { walk with unreadableDirs := walk.unreadableDirs + 1 }
    else if e.type = inodeFile then { walk with files := walk.files + 1 }
    else walk

def walkEntry (dir : Inode) (walk : Walk) (off : Nat) (s : State) : Walk × State :=
  match readDirEntry dir off s with
  | (none, s) => ({ walk with badDirEntries := walk.badDirEntries + 1 }, s)
  | (some e, s) =>
    if e.inodeId = 0 then (walk, s)
    else
      let (repeated, s) := repeatsName dir e
        ((List.range (off / dirEntrySize)).map (· * dirEntrySize)) s
      let walk :=
        if repeated then { walk with duplicateNames := walk.duplicateNames + 1 } else walk
      (walk.follow e, s)

def walkEntries (dir : Inode) : List Nat → Walk → State → Walk × State
  | [], walk, s => (walk, s)
  | off :: rest, walk, s =>
    let (walk, s) := walkEntry dir walk off s
    walkEntries dir rest walk s

/-- One directory taken off the stack. -/
def walkDirectory (dirId : UInt32) (walk : Walk) (s : State) : Walk × State :=
  match inodeForId dirId with
  | none => ({ walk with unreadableDirs := walk.unreadableDirs + 1 }, s)
  | some id =>
    let dir := s.volume.metadata.inodes id
    if dir.type ≠ inodeDirectory then
      ({ walk with unreadableDirs := walk.unreadableDirs + 1 }, s)
    else
      walkEntries dir (entryOffsets dir)
        { walk with directories := walk.directories + 1 } s

/-- The loop of `walkReachable`.  Every directory is pushed once at most, when
its bit is set. -/
def walkLoop : (fuel : Nat) → Walk → State → Walk × State
  | 0, walk, s => (walk, s)
  | fuel + 1, walk, s =>
    match walk.pending with
    | [] => (walk, s)
    | dirId :: rest =>
      let (walk, s) := walkDirectory dirId { walk with pending := rest } s
      walkLoop fuel walk s

def Walk.start : Walk where
  visited := bitmapSet (fun _ => 0) (rootInode - 1) true
  pending := [UInt32.ofNat rootInode]
  files := 0
  directories := 0
  aliasInodes := 0
  duplicateNames := 0
  badDirEntries := 0
  unreadableDirs := 0

def walkReachable (s : State) : Walk × State :=
  walkLoop (maxInodes + 1) Walk.start s

/-! ## Claims -/

/-- The sectors claimed so far, and the claims that did not fit. -/
structure Claims where
  claimed : Bytes 262144
  outside : Nat
  double : Nat

def Claims.add (claims : Claims) (lba : Nat) : Claims :=
  if maxTotalSectors ≤ lba then { claims with outside := claims.outside + 1 }
  else if bitmapTest claims.claimed lba then { claims with double := claims.double + 1 }
  else { claims with claimed := bitmapSet claims.claimed lba true }

def collectClaims (md : Metadata) : Claims :=
  ((List.finRange 4096).flatMap fun id => (md.inodes id).sectors).foldl Claims.add
    ⟨fun _ => 0, 0, 0⟩

/-! ## The report -/

/-- What the journal header says: whether it is valid and whether it is pending.
A header without the magic says nothing. -/
def journalFindings (buf : Option (Nat → Sector)) : Bool × UInt32 :=
  match buf with
  | none => (false, 0)
  | some buf =>
    let hdr := JournalHeader.codec.symm (buf 0)
    if hdr.magic ≠ journalMagic then (false, 0)
    else if journalValid hdr then (true, hdr.pending)
    else (false, 1)

def dataRegion (sb : Superblock) : List Nat :=
  List.range' sb.dataLba.toNat (sb.totalSectors.toNat - sb.dataLba.toNat)

def check : Fallible State CheckReport := fun s =>
  if !s.volume.metadataReady then (none, s)
  else
    let sb := s.volume.superblock
    let md := s.volume.metadata
    let (buf, disk) := s.disk.read sb.journalLba.toNat 1
    let (journalValid, journalPending) := journalFindings buf
    let claims := collectClaims md
    let used := bitmapTest md.blockBitmap
    let claimed := bitmapTest claims.claimed
    let (walk, s) := walkReachable { s with disk := disk }
    let ownershipRecorded := sb.features &&& featureOwnership ≠ 0
    (some
      { totalSectors := sb.totalSectors
        dataLba := sb.dataLba
        sequence := sb.sequence
        cleanShutdown := sb.flags &&& flagClean ≠ 0
        journalValid := journalValid
        ownershipRecorded := ownershipRecorded
        journalPending := journalPending
        inodesAllocated := (List.finRange 4096).countP fun id => bitmapTest md.inodeBitmap id.val
        files := walk.files
        directories := walk.directories
        dataSectors := (dataRegion sb).length
        dataUsedSectors := (dataRegion sb).countP used
        dataClaimedSectors := (dataRegion sb).countP claimed
        leakedBlocks := (dataRegion sb).countP fun sector => used sector && !claimed sector
        lostBlocks :=
          claims.outside + (dataRegion sb).countP fun sector => claimed sector && !used sector
        doubleClaimedBlocks := claims.double
        metadataUnmarked := (List.range sb.dataLba.toNat).countP fun sector => !used sector
        orphanInodes := (List.finRange 4096).countP fun id =>
          id.val ≠ rootInode - 1 && bitmapTest md.inodeBitmap id.val &&
            !bitmapTest walk.visited id.val
        aliasInodes := walk.aliasInodes
        duplicateNames := walk.duplicateNames
        badDirEntries := walk.badDirEntries
        unreadableDirs := walk.unreadableDirs
        unownedInodes := if ownershipRecorded then
          (List.finRange 4096).countP fun id =>
            bitmapTest walk.visited id.val &&
              ((md.inodes id).mode = 0 || !modeMatchesType (md.inodes id).mode (md.inodes id).type)
          else 0
        metadataCommits := s.volume.metadataCommits
        metadataBytesWritten := s.volume.metadataBytesWritten }, s)

end SavanXP.SxFS
