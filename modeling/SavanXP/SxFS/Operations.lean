import SavanXP.SxFS.Records

/-!
# The public operations

Every mutation of a mounted volume takes a snapshot, changes metadata and data,
commits, and brings the record cache up to date; when a step fails it restores
the metadata from the snapshot.  An operation is written as the steps before
its snapshot and a `Mutation`, so that the point where it commits can be named.
-/

namespace SavanXP.SxFS

open SavanXP.Library Fallible

/-- What an operation gives back when it works. -/
inductive Reply where
  | done
  | record (k : Fin 4095)
  | written (n : Nat)

/-- The part of an operation between its snapshot and its return. -/
structure Mutation where
  /-- The changes before the commit; gives the id of the inode concerned. -/
  prepare : Fallible State UInt32
  /-- What follows a successful commit. -/
  finish : UInt32 → Fallible State Reply
  /-- What follows a failure that does not fail the operation. -/
  tolerate : Option (Fallible State Reply) := none

/-- An operation past its own checks: finished without a commit, or about to
take its snapshot. -/
inductive Step where
  | finished (reply : Reply)
  | mutation (mutation : Mutation)

def State.snapshot (s : State) : State :=
  { s with volume := s.volume.snapshotMetadata }

def State.restore (s : State) : State :=
  { s with volume := s.volume.restoreMetadata }

/-- The steps of a mutation up to its commit. -/
def Mutation.prepared (mutation : Mutation) (s : State) : Option UInt32 × State :=
  mutation.prepare s.snapshot

def Mutation.commit (mutation : Mutation) : Fallible State UInt32 := fun s =>
  match mutation.prepared s with
  | (none, s) => (none, s.restore)
  | (some inodeId, s) =>
    match commitMetadata s with
    | (false, s) => (none, s.restore)
    | (true, s) => (some inodeId, s)

def Mutation.run (mutation : Mutation) : Fallible State Reply := fun s =>
  match mutation.commit s with
  | (some inodeId, s) => mutation.finish inodeId s
  | (none, s) =>
    match mutation.tolerate with
    | none => (none, s)
    | some rest => rest s

/-! ## Files -/

def requireMounted : Fallible State Unit := do
  let s ← Fallible.get
  require (s.volume.status = .mounted)

/-- A record in use, handed in by its slot. -/
def useRecord (k : Fin 4095) (directory : Bool) : Fallible State FileRecord := do
  let s ← Fallible.get
  let r ← ofOption (s.volume.records k)
  require (r.directory = directory)
  pure r

def inodeOfType (inodeId : UInt32) (type : UInt16) : Fallible State (Fin 4096) := do
  let id ← ofOption (inodeForId inodeId)
  let inode ← currentInode id
  require (inode.type = type)
  pure id

def editInode (id : Fin 4096) (edit : Inode → Inode) : Fallible State Unit :=
  editMetadata fun md => md.setInode id (edit (md.inodes id))

/-- The record's size follows the inode's. -/
def refreshSize (reply : Reply) (inodeId : UInt32) : Fallible State Reply := do
  update fun s => { s with volume := refreshRecordSize s.volume inodeId }
  pure reply

def readFile (k : Fin 4095) (off n : UInt64) : Fallible State (List UInt8) := do
  let r ← useRecord k false
  let id ← ofOption (inodeForId r.inodeId)
  let inode ← currentInode id
  if n = 0 then pure []
  else do
    require ((off + n).toNat ≤ inode.size.toNat)
    readInodeBytes inode off.toNat n.toNat

/-- The truncation of a write: every sector is given back. -/
def dropContents (id : Fin 4096) (truncate : Bool) : Fallible State Unit :=
  if truncate then
    editMetadata fun md =>
      let md := shrinkInodeToSectors md id 0
      md.setInode id { md.inodes id with size := 0 }
  else pure ()

/-- Zeros from the end of the file up to `off`. -/
def zeroGap (inode : Inode) (off : Nat) : Fallible State Unit :=
  if inode.size.toNat < off then
    zeroInodeRange inode inode.size.toNat (off - inode.size.toNat)
  else pure ()

/-- The bytes of a write; none of them need a buffer. -/
def putBytes (inode : Inode) (off n : UInt64) (buf : Option (Nat → UInt8)) :
    Fallible State Unit :=
  if n ≠ 0 then do
    let bytes ← ofOption buf
    writeInodeBytes inode off.toNat bytes n.toNat
  else pure ()

/-- The inode after a write of `n` bytes at `off`. -/
def Inode.written (inode : Inode) (off n now : UInt64) : Inode :=
  let newSize := if n = 0 then inode.size.toNat else max (off + n).toNat inode.size.toNat
  { inode with size := UInt32.ofNat newSize, mtime := now }

/-- The write of `writeFile` that changes metadata: new size or new extents. -/
def writeGrowing (id : Fin 4096) (inodeId : UInt32) (off n : UInt64)
    (buf : Option (Nat → UInt8)) (truncate : Bool) (requiredSize : Nat) (now : UInt64) :
    Fallible State UInt32 := do
  dropContents id truncate
  let off := if truncate then 0 else off
  growInode id requiredSize
  let grown ← currentInode id
  zeroGap grown off.toNat
  putBytes grown off n buf
  editInode id (·.written off n now)
  pure inodeId

/-- What follows the bytes of a write inside the file: a commit only for the
modification time. -/
def touchTime (id : Fin 4096) (inodeId : UInt32) (inode : Inode) (n now : UInt64) :
    Fallible State Step :=
  if n ≠ 0 ∧ inode.mtime ≠ now then
    pure (.mutation
      { prepare := do
          editInode id fun inode => { inode with mtime := now }
          pure inodeId
        finish := refreshSize (.written n.toNat)
        tolerate := some (refreshSize (.written n.toNat) inodeId) })
  else do
    let reply ← refreshSize (.written n.toNat) inodeId
    pure (.finished reply)

/-- The write of `writeFile` that stays inside the file, with its own ordering
point. -/
def writeInPlace (id : Fin 4096) (inodeId : UInt32) (inode : Inode) (off n : UInt64)
    (buf : Option (Nat → UInt8)) (now : UInt64) : Fallible State Step := do
  putBytes inode off n buf
  perform fun s => if n ≠ 0 then flushDisk s else (true, s)
  touchTime id inodeId inode n now

def writeFile (k : Fin 4095) (off n : UInt64) (buf : Option (Nat → UInt8))
    (truncate : Bool) (now : UInt64) : Fallible State Step := do
  requireMounted
  let r ← useRecord k false
  let id ← inodeOfType r.inodeId inodeFile
  let inode ← currentInode id
  let requiredSize :=
    if n = 0 then (if truncate then 0 else inode.size.toNat) else (off + n).toNat
  if truncate ∨ inode.size.toNat < requiredSize ∨ inodeCapacityBytes inode < requiredSize then
    pure (.mutation
      { prepare := writeGrowing id r.inodeId off n buf truncate requiredSize now
        finish := refreshSize (.written n.toNat) })
  else writeInPlace id r.inodeId inode off n buf now

/-- The sectors of a file follow its new size. -/
def resizeContents (id : Fin 4096) (size : Nat) : Fallible State Unit := do
  let inode ← currentInode id
  if inode.size.toNat < size then do
    growInode id size
    let grown ← currentInode id
    zeroInodeRange grown grown.size.toNat (size - grown.size.toNat)
  else editMetadata fun md => shrinkInodeToSectors md id (sectorsFor size).toNat

def truncateFile (k : Fin 4095) (size now : UInt64) : Fallible State Step := do
  requireMounted
  let r ← useRecord k false
  let id ← inodeOfType r.inodeId inodeFile
  pure (.mutation
    { prepare := do
        resizeContents id size.toNat
        editInode id fun inode =>
          { inode with size := UInt32.ofNat size.toNat, mtime := now }
        pure r.inodeId
      finish := refreshSize .done })

/-! ## Names -/

/-- What `prepareNewInode` makes of a table entry. -/
def newInode (id : Fin 4096) (type : UInt16) (relative : Path) (owner : Option Ownership)
    (now : UInt64) : Inode :=
  let fresh : Inode :=
    { Inode.zero with inodeId := inodeIdOf id, type := type, linkCount := 1, mtime := now }
  match owner with
  | some owner =>
    if modeMatchesType owner.mode type then fresh.withOwnership owner
    else fresh.withOwnership (defaultOwnership relative type)
  | none => fresh.withOwnership (defaultOwnership relative type)

/-- Take an inode id and initialise its table entry. -/
def takeInode (type : UInt16) (relative : Path) (owner : Option Ownership) (now : UInt64) :
    Fallible State (Fin 4096) := do
  let s ← Fallible.get
  let (id, md) ← ofOption (allocateInodeId s.volume.metadata)
  editMetadata fun _ => md.setInode id (newInode id type relative owner now)
  pure id

/-- A new inode and its name in the parent. -/
def makeNode (parent : Fin 4096) (type : UInt16) (relative leaf : Path) (owner : Option Ownership)
    (now : UInt64) : Fallible State UInt32 := do
  let id ← takeInode type relative owner now
  addDirectoryEntry parent (inodeIdOf id) type leaf
  pure (inodeIdOf id)

/-- The record of a new inode. -/
def recordNode (parentInode : UInt32) (type : UInt16) (relative leaf : Path) (inodeId : UInt32) :
    Fallible State Reply := do
  let s ← Fallible.get
  let (k, recs) ← ofOption (addRecord s.volume.records
    { directory := type = inodeDirectory
      inodeId := inodeId
      parentInodeId := parentInode
      name := leaf
      path := relative
      size := 0 })
  update fun s => { s with volume := s.volume.setRecords recs }
  pure (.record k)

/-- `create_file` and `create_directory`, which differ in the type only. -/
def createNode (type : UInt16) (path : CString) (owner : Option Ownership) (now : UInt64) :
    Fallible State Step := do
  requireMounted
  let s ← Fallible.get
  let recs := s.volume.records
  let relative ← ofOption (parseRelativePath s.volume.mountPoint path.bytes)
  let (parentPath, leaf) ← ofOption (splitRelativeParent relative)
  require (findRecordByRelativePath recs relative).isNone
  let parentInode := parentInodeForRelativePath recs parentPath
  let parent ← inodeOfType parentInode inodeDirectory
  pure (.mutation
    { prepare := makeNode parent type relative leaf owner now
      finish := recordNode parentInode type relative leaf })

def createFile (path : CString) (owner : Option Ownership) (now : UInt64) : Fallible State Step :=
  createNode inodeFile path owner now

def createDirectory (path : CString) (owner : Option Ownership) (now : UInt64) :
    Fallible State Step :=
  createNode inodeDirectory path owner now

/-- Drop a name and the inode behind it. -/
def dropName (r : FileRecord) (id parent : Fin 4096) : Mutation where
  prepare := do
    removeDirectoryEntry parent r.name
    editMetadata fun md => releaseInodeId (freeInodeBlocks md id) r.inodeId
    pure r.inodeId
  finish := fun inodeId => do
    update fun s =>
      { s with volume := s.volume.setRecords (removeRecord s.volume.records inodeId) }
    pure .done

def removeDirectory (k : Fin 4095) : Fallible State Step := do
  requireMounted
  let r ← useRecord k true
  let parent ← ofOption (inodeForId r.parentInodeId)
  let id ← inodeOfType r.inodeId inodeDirectory
  let inode ← currentInode id
  perform fun s =>
    let (children, s) := directoryHasChildren inode s
    (!children, s)
  pure (.mutation (dropName r id parent))

def unlinkFile (k : Fin 4095) : Fallible State Step := do
  requireMounted
  let r ← useRecord k false
  let parent ← ofOption (inodeForId r.parentInodeId)
  let id ← inodeOfType r.inodeId inodeFile
  pure (.mutation (dropName r id parent))

/-- The records after the one in `k` moved. -/
def renameRecords (recs : Records) (k : Fin 4095) (target : FileRecord)
    (newParentInode : UInt32) (newLeaf newRelative : Path) : Records :=
  let moved := Function.update recs k
    (some { target with parentInodeId := newParentInode, name := newLeaf, path := newRelative })
  if target.directory then updateDescendantPaths moved target.inodeId target.path newRelative
  else moved

def renamePath (oldPath newPath : CString) : Fallible State Step := do
  requireMounted
  let s ← Fallible.get
  let recs := s.volume.records
  let oldRelative ← ofOption (parseRelativePath s.volume.mountPoint oldPath.bytes)
  let (k, target) ← ofOption (findRecordByRelativePath recs oldRelative)
  let newRelative ← ofOption (parseRelativePath s.volume.mountPoint newPath.bytes)
  let (newParentPath, newLeaf) ← ofOption (splitRelativeParent newRelative)
  require (target.path ≠ newRelative)
  require (findRecordByRelativePath recs newRelative).isNone
  let newParentInode := parentInodeForRelativePath recs newParentPath
  let oldParent ← ofOption (inodeForId target.parentInodeId)
  let newParent ← inodeOfType newParentInode inodeDirectory
  require !(target.directory &&
    (target.inodeId = newParentInode || recordIsAncestor recs target.inodeId newParentInode))
  pure (.mutation
    { prepare := do
        removeDirectoryEntry oldParent target.name
        addDirectoryEntry newParent target.inodeId
          (if target.directory then inodeDirectory else inodeFile) newLeaf
        pure target.inodeId
      finish := fun _ => do
        update fun s =>
          let recs :=
            renameRecords s.volume.records k target newParentInode newLeaf newRelative
          { s with volume := s.volume.setRecords recs }
        pure .done })

/-- The inode behind a record, or the root. -/
def ownedInode (recs : Records) : Option (Fin 4095) → Option UInt32
  | some k => (recs k).map (·.inodeId)
  | none => some (UInt32.ofNat rootInode)

/-- chmod and chown. -/
def setOwnership (k : Option (Fin 4095)) (ownership : Ownership) : Fallible State Step := do
  let s ← Fallible.get
  let inodeId ← ofOption (ownedInode s.volume.records k)
  requireMounted
  let id ← ofOption (inodeForId inodeId)
  let inode ← currentInode id
  require (modeMatchesType ownership.mode inode.type)
  pure (.mutation
    { prepare := do
        editInode id fun inode => inode.withOwnership ownership
        pure inodeId
      finish := fun _ => pure .done })

/-! ## Requests -/

inductive Request where
  | createFile (path : CString) (owner : Option Ownership)
  | createDirectory (path : CString) (owner : Option Ownership)
  | writeFile (k : Fin 4095) (off n : UInt64) (buf : Option (Nat → UInt8))
      (truncate : Bool)
  | truncateFile (k : Fin 4095) (size : UInt64)
  | unlinkFile (k : Fin 4095)
  | removeDirectory (k : Fin 4095)
  | renamePath (oldPath newPath : CString)
  | setOwnership (k : Option (Fin 4095)) (ownership : Ownership)

/-- What a request does before its snapshot; `now` is what the clock shows. -/
def Request.begin (req : Request) (now : UInt64) : Fallible State Step :=
  match req with
  | .createFile path owner => SxFS.createFile path owner now
  | .createDirectory path owner => SxFS.createDirectory path owner now
  | .writeFile k off n buf truncate =>
    SxFS.writeFile k off n buf truncate now
  | .truncateFile k size => SxFS.truncateFile k size now
  | .unlinkFile k => SxFS.unlinkFile k
  | .removeDirectory k => SxFS.removeDirectory k
  | .renamePath oldPath newPath => SxFS.renamePath oldPath newPath
  | .setOwnership k ownership => SxFS.setOwnership k ownership

def Request.run (req : Request) (now : UInt64) : Fallible State Reply := do
  match ← req.begin now with
  | .finished reply => pure reply
  | .mutation mutation => mutation.run

/-- The state in which a request calls `commitMetadata`, if it does. -/
def Request.commitPoint (req : Request) (now : UInt64) (s : State) : Option State :=
  match req.begin now s with
  | (some (.mutation mutation), s) =>
    match mutation.prepared s with
    | (some _, s) => some s
    | (none, _) => none
  | _ => none

def sync : Action State := fun s =>
  if !s.volume.metadataReady then (false, s)
  else if s.volume.status ≠ .mounted then (true, s)
  else
    allOf [writeSuperblocks s.volume.superblock.sequence flagClean .durable,
      clearJournal .durable] s

end SavanXP.SxFS
