import SavanXP.SxFS.Directories

/-!
# Paths, the record cache and mounting

The driver keeps one record for each name in the tree, with its whole path.
Mounting recovers the metadata, walks the tree to build the records and gives
every inode without recorded ownership the default of its path.
-/

namespace SavanXP.SxFS

open SavanXP.Library Function

/-! ## Paths -/

/-- A string handed in by a caller. -/
structure CString where
  bytes : Path
  terminated : (0 : UInt8) ∉ bytes

/-- What `path` names below a mount point, if anything. -/
def pathBelow (mountPoint path : Path) : Option Path :=
  if path.head? ≠ some slash then none
  else if mountPoint = [slash] then some (if path = [slash] then [] else path)
  else if path.take mountPoint.length = mountPoint ∧
      (path[mountPoint.length]? = none ∨ path[mountPoint.length]? = some slash) then
    some (path.drop mountPoint.length)
  else none

/-- The path relative to the mount point, without leading slashes.  The mount
point itself is not accepted. -/
def parseRelativePath (mountPoint path : Path) : Option Path :=
  match pathBelow mountPoint path with
  | none => none
  | some below =>
    let relative := below.dropWhile (· = slash)
    if relative = [] then none
    else if maxRelativePath < relative.length then none
    else some relative

/-- The part after the last slash. -/
def pathLeaf (relative : Path) : Path := (relative.reverse.takeWhile (· ≠ slash)).reverse

/-- The parent's path and the name in it. -/
def splitRelativeParent (relative : Path) : Option (Path × Path) :=
  let leaf := pathLeaf relative
  let boundary := relative.length - leaf.length
  if leaf = [] ∨ maxNameLength < leaf.length then none
  else some (relative.take (boundary - 1), leaf)

def joinRelativePath (parent leaf : Path) : Option Path :=
  let joined := if parent = [] then leaf else parent ++ slash :: leaf
  if maxRelativePath < joined.length then none else some joined

/-! ## Records -/

abbrev Records : Type := Fin 4095 → Option FileRecord

section

variable (records : Records)

/-- The first record with a property. -/
@[irreducible]
def findRecord (wanted : FileRecord → Bool) : Option (Fin 4095 × FileRecord) :=
  (List.finRange 4095).findSome? fun k =>
    ((records k).filter wanted).map fun r => (k, r)

def findRecordByInode (inodeId : UInt32) : Option (Fin 4095 × FileRecord) :=
  findRecord records (·.inodeId = inodeId)

def findRecordByRelativePath (relative : Path) : Option (Fin 4095 × FileRecord) :=
  if relative = [] then none else findRecord records (·.path = relative)

/-- The id of the directory a path names; `0` when it names none. -/
def parentInodeForRelativePath (parent : Path) : UInt32 :=
  if parent = [] then UInt32.ofNat rootInode
  else
    match findRecordByRelativePath records parent with
    | none => 0
    | some (_, r) => if r.directory then r.inodeId else 0

/-- Put a record in the first free slot. -/
@[irreducible]
def addRecord (r : FileRecord) : Option (Fin 4095 × Records) :=
  match (List.finRange 4095).find? fun k => (records k).isNone with
  | none => none
  | some k => some (k, update records k (some r))

def removeRecord (inodeId : UInt32) : Records :=
  match findRecordByInode records inodeId with
  | none => records
  | some (k, _) => update records k none

/-- Whether the chain of parents from `current` up meets `ancestor` before the
root.  The fuel is more than the records a chain without cycles can pass. -/
def parentChainMeets (records : Records) (ancestor : UInt32) : (fuel : Nat) → UInt32 → Bool
  | 0, _ => false
  | fuel + 1, current =>
    if current = 0 ∨ current = UInt32.ofNat rootInode then false
    else if current = ancestor then true
    else
      match findRecordByInode records current with
      | none => false
      | some (_, r) => parentChainMeets records ancestor fuel r.parentInodeId

def recordIsAncestor (ancestor inodeId : UInt32) : Bool :=
  parentChainMeets records ancestor maxInodes inodeId || ancestor = UInt32.ofNat rootInode

/-- A path below `oldPath` moved below `newPath`, unless it gets too long. -/
def movedPath (oldPath newPath path : Path) : Path :=
  if path.take oldPath.length = oldPath ∧
      (path[oldPath.length]? = none ∨ path[oldPath.length]? = some slash) ∧
      newPath.length + (path.drop oldPath.length).length < maxRelativePath + 1 then
    newPath ++ path.drop oldPath.length
  else path

def updateDescendantPaths (directoryInode : UInt32) (oldPath newPath : Path) : Records :=
  fun k => (records k).map fun r =>
    if r.inodeId ≠ directoryInode ∧
        parentChainMeets records directoryInode maxInodes r.parentInodeId then
      { r with path := movedPath oldPath newPath r.path }
    else r

end

def Volume.setRecords (volume : Volume) (records : Records) : Volume :=
  { volume with records := records }

def refreshRecordSize (volume : Volume) (inodeId : UInt32) : Volume :=
  match findRecordByInode volume.records inodeId, inodeForId inodeId with
  | some (k, r), some id =>
    volume.setRecords (update volume.records k
      (some { r with size := (volume.metadata.inodes id).size }))
  | _, _ => volume

/-! ## Building the cache -/

/-- The record of an entry of the directory at `parentPath`. -/
def recordOf (md : Metadata) (parentInode : UInt32) (path : Path) (e : DirEntry)
    (child : Fin 4096) : FileRecord where
  directory := (md.inodes child).type = inodeDirectory
  inodeId := (md.inodes child).inodeId
  parentInodeId := parentInode
  name := e.nameBytes
  path := path
  size := (md.inodes child).size

def storeRecord (r : FileRecord) : Fallible State Unit := do
  let s ← Fallible.get
  let (_, records) ← Fallible.ofOption (addRecord s.volume.records r)
  Fallible.update fun s => { s with volume := s.volume.setRecords records }

/-- One entry of a directory; `recurse` builds the records below a
subdirectory. -/
def buildEntry
    (recurse : UInt32 → Path → (Fin 4096 → Bool) → Fallible State (Fin 4096 → Bool))
    (directory : Inode) (parentInode : UInt32) (parentPath : Path) (visited : Fin 4096 → Bool)
    (off : Nat) : Fallible State (Fin 4096 → Bool) := do
  let e ← readDirEntry directory off
  if e.hole then pure visited
  else do
    let s ← Fallible.get
    let child ← Fallible.ofOption (inodeForId e.inodeId)
    Fallible.require ((s.volume.metadata.inodes child).type ≠ inodeUnused)
    let path ← Fallible.ofOption (joinRelativePath parentPath e.nameBytes)
    let r := recordOf s.volume.metadata parentInode path e child
    storeRecord r
    if r.directory then recurse r.inodeId path visited else pure visited

/-- The records below one directory, with `levels` levels of the depth limit
left.  The flags say which directories were entered. -/
def buildRecordRecursive :
    (levels : Nat) → UInt32 → Path → (Fin 4096 → Bool) → Fallible State (Fin 4096 → Bool)
  | 0, _, _, _ => Fallible.fail
  | levels + 1, directoryInode, parentPath, visited => do
      let id ← Fallible.ofOption (inodeForId directoryInode)
      let directory ← currentInode id
      Fallible.require (directory.type = inodeDirectory && !visited id)
      (entryOffsets directory).foldlM
        (buildEntry (buildRecordRecursive levels) directory directoryInode parentPath)
        (update visited id true)

def rebuildRecordCache : Fallible State Unit := do
  Fallible.update fun s => { s with volume := s.volume.setRecords fun _ => none }
  let _ ← buildRecordRecursive (maxDirectoryDepth + 1) (UInt32.ofNat rootInode) [] fun _ => false
  pure ()

/-! ## Ownership at mount -/

def Inode.withOwnership (inode : Inode) (ownership : Ownership) : Inode :=
  { inode with uid := ownership.uid, gid := ownership.gid, mode := ownership.mode }

/-- Give one inode the default of its path if nothing was recorded. -/
def defaultInodeOwnership (path : Path) (id : Fin 4096) (changed : Nat × Metadata) :
    Nat × Metadata :=
  let inode := changed.2.inodes id
  if inode.mode = 0 then
    (changed.1 + 1, changed.2.setInode id (inode.withOwnership (defaultOwnership path inode.type)))
  else changed

/-- The default ownership of everything without one, and how many inodes that
were. -/
@[irreducible]
def applyDefaultOwnership (records : Records) (md : Metadata) : Nat × Metadata :=
  (List.finRange 4095).foldl
    (fun changed k =>
      match records k with
      | none => changed
      | some r =>
        match inodeForId r.inodeId with
        | none => changed
        | some id => defaultInodeOwnership r.path id changed)
    (defaultInodeOwnership [] 0 (0, md))

/-- The defaults in memory and nowhere else. -/
def Volume.ownInMemory (volume : Volume) : Volume :=
  { volume with metadata := (applyDefaultOwnership volume.records volume.metadata).2 }

/-- What a writable volume does with the defaults `md` that `changed` inodes
were given. -/
def stampChanged (s : State) (changed : Nat) (md : Metadata) : State ⊕ State :=
  let recorded := s.volume.superblock.features &&& featureOwnership ≠ 0
  let owned : Volume := { s.volume.snapshotMetadata with metadata := md }
  if recorded ∧ changed = 0 then .inl { s with volume := { owned with snapshotValid := false } }
  else
    let marked : Volume :=
      { owned with superblock :=
          { owned.superblock with features := owned.superblock.features ||| featureOwnership } }
    if changed = 0 then
      .inl (writeSuperblocks marked.superblock.sequence flagClean .durable
        { s with volume := { marked with snapshotValid := false } }).2
    else .inr { s with volume := marked }

/-- `stampOwnership` up to the point where it commits: the volume to commit, or
the state it ends in without a commit. -/
def beginStamp (s : State) : State ⊕ State :=
  if s.volume.status ≠ .mounted then .inl { s with volume := s.volume.ownInMemory }
  else
    let owned := applyDefaultOwnership s.volume.records s.volume.metadata
    stampChanged s owned.1 owned.2

def stampOwnership (s : State) : State :=
  match beginStamp s with
  | .inl done => done
  | .inr toCommit =>
    match commitMetadata toCommit with
    | (true, s) => s
    | (false, s) => { s with volume := s.volume.restoreMetadata.ownInMemory }

/-! ## Mounting -/

/-- `loadFilesystemFromDevice` up to the ownership stamp. -/
def loadTree : Fallible State Unit := fun s =>
  match loadMetadata s with
  | (.failed, s) => (none, s)
  | (recovery, s) =>
    if !homeMetadataIsValid s.volume.superblock s.volume.metadata then (none, s)
    else
      match rebuildRecordCache s with
      | (none, s) => (none, s)
      | (some _, s) =>
        (some (), { s with
          volume := { s.volume with
            status := if recovery = .readOnly then .readOnly else .mounted
            metadataReady := true } })

def loadFilesystemFromDevice : Action State := fun s =>
  match loadTree s with
  | (none, s) => (false, s)
  | (some _, s) => (true, stampOwnership s)

end SavanXP.SxFS
