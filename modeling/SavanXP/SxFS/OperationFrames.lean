import SavanXP.SxFS.MountEffects
import SavanXP.SxFS.Check

/-!
# What operations may change

Up to its commit an operation changes metadata in memory and data sectors on
the device; after it, only the record cache.  Together with the rollback this
keeps a volume steady whatever the device does.
-/

namespace SavanXP.SxFS

open SavanXP.Library Fallible
open SavanXP.Library.Fallible (Along)

theorem HomeHolds.data {content : Nat → Sector} {disk t : Disk Sector}
    (home : HomeHolds content disk) (touches : disk.Touches inData t) : HomeHolds content t :=
  home.touches touches fun _ ins => homeLba_not_inData ins

def State.withMetadata (s : State) (md : Metadata) : State :=
  { s with volume := { s.volume with metadata := md } }

/-- Metadata in memory and data on the device at most. -/
structure DataOnly (s t : State) : Prop where
  volume : t.volume = (s.withMetadata t.volume.metadata).volume
  touches : s.disk.Touches inData t.disk

/-- A step before the commit changes no more than that, and a sane volume stays sane. -/
def Edited (s t : State) : Prop := Sane s → DataOnly s t ∧ Sane t

instance : IsPreorder State Edited where
  refl _ sane := ⟨⟨rfl, Disk.Touches.refl _ _⟩, sane⟩
  trans s middle t one two sane := by
    obtain ⟨first, middleSane⟩ := one sane
    obtain ⟨second, laterSane⟩ := two middleSane
    refine ⟨⟨?_, first.touches.trans second.touches⟩, laterSane⟩
    have chained := second.volume
    rw [State.withMetadata, first.volume] at chained
    exact chained

variable {s t : State}

theorem Sane.aside (sane : Sane s) (aside : Aside s t) : Sane t := by
  have volume := aside.volume
  refine ⟨?_, ?_⟩ <;> rw [volume]
  · exact sane.layout
  · exact sane.placed

theorem Wrote.edited (wrote : Wrote s t) : Edited s t := by
  refine fun sane => ⟨⟨?_, wrote.touches⟩, sane.aside wrote.aside⟩
  rw [State.withMetadata, wrote.volume]

theorem Observed.edited (seen : Observed s t) : Edited s t := seen.wrote.edited

/-! ## Steps before a commit -/

theorem editMetadata_edited {edit : Metadata → Metadata}
    (each : ∀ md : Metadata, md.Placed → (edit md).Placed) : Along Edited (editMetadata edit) :=
  Along.update fun _ sane => ⟨⟨rfl, Disk.Touches.refl _ _⟩, sane.layout, each _ sane.placed⟩

variable (id : Fin 4096)

theorem editInode_edited {edit : Inode → Inode}
    (extents : ∀ inode, (edit inode).extents = inode.extents)
    (n : ∀ inode, (edit inode).extentCount = inode.extentCount) :
    Along Edited (editInode id edit) :=
  editMetadata_edited fun _ placed => placed.setInode id ((placed id).like (extents _) (n _))

theorem growInode_edited (size : Nat) : Along Edited (growInode id size) :=
  Along.perform fun _ sane => ⟨⟨rfl, Disk.Touches.refl _ _⟩, sane.layout,
    ensureInodeCapacity_placed sane.layout id size sane.placed⟩

/-- An inode of a sane volume has its extents in the data region. -/
theorem currentInode_edited {α : Type} {next : Inode → Fallible State α}
    (each : ∀ inode : Inode, inode.Placed → Along Edited (next inode)) :
    Along Edited (currentInode id >>= next) :=
  fun s sane => each _ (sane.placed id) s sane

theorem writeDirEntry_edited {dir : Inode} (placed : dir.Placed) (off : Nat)
    (e : DirEntry) : Along Edited (writeDirEntry dir off e) :=
  (writeInodeBytes_wrote placed _ _ _).mono fun _ _ => Wrote.edited

theorem removeDirectoryEntry_edited (dir : Fin 4096) (name : Path) :
    Along Edited (removeDirectoryEntry dir name) :=
  currentInode_edited dir fun inode placed =>
    ((findDirectoryEntry_reads inode name).mono fun _ _ => Observed.edited).bind fun _ =>
      writeDirEntry_edited placed _ _

theorem addDirectoryEntry_edited (dir : Fin 4096) (inodeId : UInt32) (type : UInt16)
    (name : Path) : Along Edited (addDirectoryEntry dir inodeId type name) := by
  refine (Along.require _).bind fun _ => currentInode_edited dir fun old _ =>
    ((holeLoop_reads old _).mono fun _ _ => Observed.edited).bind fun target =>
      (growInode_edited dir _).bind fun _ => Along.bind ?_ fun _ =>
        currentInode_edited dir fun after placed => writeDirEntry_edited placed _ _
  refine editMetadata_edited fun md placed => ?_
  unfold Metadata.extendTo
  split
  · exact placed.setInode dir ((placed dir).like rfl rfl)
  · exact placed

variable {inode : Inode}

theorem putBytes_wrote (placed : inode.Placed) (off n : UInt64)
    (buf : Option (Nat → UInt8)) : Along Wrote (putBytes inode off n buf) := by
  unfold putBytes
  split
  · exact (Along.ofOption _).bind fun bytes => writeInodeBytes_wrote placed _ bytes _
  · exact .pure ()

theorem zeroGap_wrote (placed : inode.Placed) (off : Nat) : Along Wrote (zeroGap inode off) := by
  unfold zeroGap
  split
  · exact zeroInodeRange_wrote placed _ _
  · exact .pure ()

theorem writeGrowing_edited (inodeId : UInt32) (off n : UInt64)
    (buf : Option (Nat → UInt8)) (truncate : Bool) (requiredSize : Nat) (now : UInt64) :
    Along Edited (writeGrowing id inodeId off n buf truncate requiredSize now) := by
  refine Along.bind ?_ fun _ => (growInode_edited id _).bind fun _ =>
    currentInode_edited id fun grown placed =>
      ((zeroGap_wrote placed _).mono fun _ _ => Wrote.edited).bind fun _ =>
        ((putBytes_wrote placed _ _ _).mono fun _ _ => Wrote.edited).bind fun _ =>
          Along.bind (editInode_edited id (fun _ => rfl) fun _ => rfl) fun _ => .pure _
  unfold dropContents
  split
  · refine editMetadata_edited fun md placed => ?_
    have shrunk := shrinkInodeToSectors_placed placed id 0
    exact shrunk.setInode id ((shrunk id).like rfl rfl)
  · exact .pure ()

theorem resizeContents_edited (size : Nat) : Along Edited (resizeContents id size) := by
  refine currentInode_edited id fun inode _ => ?_
  split
  · exact (growInode_edited id size).bind fun _ => currentInode_edited id fun grown placed =>
      (zeroInodeRange_wrote placed _ _).mono fun _ _ => Wrote.edited
  · exact editMetadata_edited fun md placed => shrinkInodeToSectors_placed placed id _

theorem takeInode_edited (type : UInt16) (relative : Path) (owner : Option Ownership)
    (now : UInt64) :
    Along Edited (takeInode type relative owner now) := by
  intro s sane
  have empty : ∀ id, (newInode id type relative owner now).extentCount = 0 := by
    intro id
    unfold newInode
    split
    · split <;> rfl
    · rfl
  have begun : ∀ id md, allocateInodeId s.volume.metadata = some (id, md) → md.Placed := by
    intro id md alloc
    unfold allocateInodeId at alloc
    split at alloc
    · cases alloc
    · cases alloc
      exact sane.placed
  have rest : Along Edited (Fallible.ofOption (allocateInodeId s.volume.metadata) >>=
      fun taken => do
        editMetadata fun _ => taken.2.setInode taken.1 (newInode taken.1 type relative owner now)
        pure taken.1) :=
    Along.ofOption_bind fun taken alloc =>
      (editMetadata_edited fun _ _ => (begun taken.1 taken.2 alloc).setInode taken.1
        (Inode.placed_of_none (empty taken.1))).bind fun _ => .pure _
  exact rest s sane

/-! ## Before the snapshot and after the commit -/

/-- What a request may have done before its snapshot: data and the record cache. -/
def Begun (s t : State) : Prop := Sane s → Aside s t

instance : IsPreorder State Begun where
  refl s _ := refl s
  trans _ _ _ one two sane := trans_of Aside (one sane) (two (sane.aside (one sane)))

theorem refreshSize_aside (reply : Reply) (inodeId : UInt32) :
    Along Aside (refreshSize reply inodeId) := by
  refine (Along.update fun s => ?_).bind fun _ => .pure _
  unfold refreshRecordSize
  split
  · exact ⟨rfl, Disk.Touches.refl _ _⟩
  · exact refl s

/-- A mutation whose steps do what they may. -/
structure Mutation.Good (mutation : Mutation) : Prop where
  prepare : Along Edited mutation.prepare
  finish : ∀ inodeId, Along Aside (mutation.finish inodeId)
  tolerate : ∀ rest, mutation.tolerate = some rest → Along Aside rest

theorem touchTime_good (id : Fin 4096) (inodeId : UInt32) (reply : Reply) (now : UInt64) :
    Mutation.Good
      { prepare := do
          editInode id fun inode => { inode with mtime := now }
          pure inodeId
        finish := refreshSize reply
        tolerate := some (refreshSize reply inodeId) } :=
  ⟨Along.bind (editInode_edited id (fun _ => rfl) fun _ => rfl) fun _ => .pure _,
    refreshSize_aside reply,
    fun _ same => Option.some.inj same ▸ refreshSize_aside reply inodeId⟩

theorem truncate_good (id : Fin 4096) (inodeId : UInt32) (size now : UInt64) :
    Mutation.Good
      { prepare := do
          resizeContents id size.toNat
          editInode id fun inode => { inode with size := UInt32.ofNat size.toNat, mtime := now }
          pure inodeId
        finish := refreshSize .done } :=
  ⟨(resizeContents_edited id _).bind fun _ =>
    Along.bind (editInode_edited id (fun _ => rfl) fun _ => rfl) fun _ => .pure _,
    refreshSize_aside _, nofun⟩

theorem dropName_good (r : FileRecord) (id parent : Fin 4096) : (dropName r id parent).Good :=
  ⟨(removeDirectoryEntry_edited parent r.name).bind fun _ =>
    (editMetadata_edited fun _ placed =>
      releaseInodeId_placed (freeInodeBlocks_placed placed id) _).bind fun _ => .pure _,
    fun _ => (setRecords_aside _).bind fun _ => .pure _, nofun⟩

theorem createNode_good (type : UInt16) (relative leaf : Path) (owner : Option Ownership)
    (now : UInt64) (parent : Fin 4096) (parentInode : UInt32) :
    Mutation.Good
      { prepare := makeNode parent type relative leaf owner now
        finish := recordNode parentInode type relative leaf } :=
  ⟨(takeInode_edited type relative owner now).bind fun _ =>
    (addDirectoryEntry_edited parent _ type leaf).bind fun _ => .pure _,
    fun _ => Along.get.bind fun _ => (Along.ofOption _).bind fun _ =>
      (setRecords_aside _).bind fun _ => .pure _, nofun⟩

/-- A computation that may start a mutation starts a good one. -/
structure Starts (comp : Fallible State Step) : Prop where
  along : Along Begun comp
  good : ∀ s mutation t, Sane s →
    comp s = (some (.mutation mutation), t) → mutation.Good

namespace Starts

theorem mutation {mutation : Mutation} (good : mutation.Good) :
    Starts (pure (.mutation mutation)) :=
  ⟨.pure _, fun _ _ _ _ same => by cases same; exact good⟩

theorem bind {α : Type} {first : Fallible State α} {next : α → Fallible State Step}
    (one : Along Begun first) (two : ∀ v, Starts (next v)) : Starts (first >>= next) := by
  refine ⟨one.bind fun v => (two v).along, fun s mutation t sane ran => ?_⟩
  have begun := one s sane
  cases started : first s with
  | mk out middle =>
    rw [started] at begun
    cases out with
    | none =>
      rw [bind_none started] at ran
      cases ran
    | some v =>
      rw [bind_some started] at ran
      exact (two v).good middle mutation t (sane.aside begun) ran

/-- Past a check or a look at the state. -/
theorem after {α : Type} {first : Fallible State α} {next : α → Fallible State Step}
    (seen : Along Observed first) (two : ∀ v, Starts (next v)) : Starts (first >>= next) :=
  bind (seen.mono fun _ _ seen _ => seen.aside) two

theorem currentInode {next : Inode → Fallible State Step} (id : Fin 4096)
    (each : ∀ inode : Inode, inode.Placed → Starts (next inode)) :
    Starts (SxFS.currentInode id >>= next) :=
  ⟨fun s sane => (each _ (sane.placed id)).along s sane,
    fun s mutation t sane ran => (each _ (sane.placed id)).good s mutation t sane ran⟩

end Starts

/-! ## Reading -/

theorem requireMounted_reads : Along Observed requireMounted := Along.get.bind fun _ => .require _

variable (k : Fin 4095)

theorem useRecord_reads (dir : Bool) : Along Observed (useRecord k dir) :=
  Along.get.bind fun _ => (Along.ofOption _).bind fun _ => (Along.require _).bind fun _ => .pure _

theorem currentInode_reads : Along Observed (currentInode id) := Along.get.bind fun _ => .pure _

theorem inodeOfType_reads (inodeId : UInt32) (type : UInt16) :
    Along Observed (inodeOfType inodeId type) :=
  (Along.ofOption _).bind fun _ => (currentInode_reads _).bind fun _ =>
    (Along.require _).bind fun _ => .pure _

theorem readFile_reads (off n : UInt64) : Along Observed (readFile k off n) := by
  refine (useRecord_reads k false).bind fun _ => (Along.ofOption _).bind fun id =>
    (currentInode_reads id).bind fun _ => ?_
  split
  · exact .pure []
  · exact (Along.require _).bind fun _ => readInodeBytes_reads _ _ _

variable (dir : Inode)

theorem childLoop_observed (offsets : List Nat) (s : State) :
    Observed s (childLoop dir offsets s).2 := by
  induction offsets generalizing s with
  | nil => exact refl s
  | cons off rest ih =>
    have seen := readDirEntry_reads dir off s
    unfold childLoop
    split <;> rename_i ran <;> rw [ran] at seen
    · exact seen
    · split
      · exact seen
      · exact trans_of Observed seen (ih _)

theorem repeatsName_observed (e : DirEntry) (offsets : List Nat)
    (s : State) : Observed s (repeatsName dir e offsets s).2 := by
  induction offsets generalizing s with
  | nil => exact refl s
  | cons off rest ih =>
    have seen := readDirEntry_reads dir off s
    unfold repeatsName
    split <;> rename_i ran <;> rw [ran] at seen
    · exact trans_of Observed seen (ih _)
    · split
      · exact seen
      · exact trans_of Observed seen (ih _)

theorem walkEntry_observed (walk : Walk) (off : Nat) (s : State) :
    Observed s (walkEntry dir walk off s).2 := by
  have seen := readDirEntry_reads dir off s
  unfold walkEntry
  split <;> rename_i ran <;> rw [ran] at seen
  · exact seen
  · split
    · exact seen
    · exact trans_of Observed seen (repeatsName_observed dir _ _ _)

theorem walkEntries_observed (offsets : List Nat) (walk : Walk) (s : State) :
    Observed s (walkEntries dir offsets walk s).2 := by
  induction offsets generalizing walk s with
  | nil => exact refl s
  | cons off rest ih => exact trans_of Observed (walkEntry_observed dir walk off s) (ih _ _)

theorem walkDirectory_observed (dirId : UInt32) (walk : Walk) (s : State) :
    Observed s (walkDirectory dirId walk s).2 := by
  unfold walkDirectory
  split
  · exact refl s
  dsimp only
  split
  · exact refl s
  · exact walkEntries_observed ..

theorem walkLoop_observed (fuel : Nat) (walk : Walk) (s : State) :
    Observed s (walkLoop fuel walk s).2 := by
  induction fuel generalizing walk s with
  | zero => exact refl s
  | succ fuel ih =>
    unfold walkLoop
    split
    · exact refl s
    · exact trans_of Observed (walkDirectory_observed _ _ s) (ih _ _)

theorem check_observed (s : State) : Observed s (check s).2 := by
  unfold check
  split
  · exact refl s
  have first : Observed s { s with
      disk := (s.disk.read s.volume.superblock.journalLba.toNat 1).2 } :=
    ⟨rfl, s.disk.read_keeps _ _⟩
  exact trans_of Observed first (walkLoop_observed (maxInodes + 1) Walk.start _)

/-! ## Requests -/

theorem createNode_starts (type : UInt16) (path : CString) (owner : Option Ownership)
    (now : UInt64) :
    Starts (createNode type path owner now) :=
  .after requireMounted_reads fun _ => .after .get fun _ => .after (.ofOption _) fun relative =>
    .after (.ofOption _) fun (_, leaf) => .after (.require _) fun _ =>
      .after (inodeOfType_reads _ _) fun parent =>
        .mutation (createNode_good type relative leaf owner now parent _)

theorem writeInPlace_starts (placed : inode.Placed) (id : Fin 4096) (inodeId : UInt32)
    (off n : UInt64) (buf : Option (Nat → UInt8)) (now : UInt64) :
    Starts (writeInPlace id inodeId inode off n buf now) := by
  have written : Along Begun (putBytes inode off n buf) :=
    (putBytes_wrote placed off n buf).mono fun _ _ wrote _ => wrote.aside
  have flushed : Along Observed
      (Fallible.perform fun s => if n ≠ 0 then flushDisk s else (true, s)) := by
    refine Along.perform fun s => ?_
    split
    · exact ⟨rfl, s.disk.flush_keeps⟩
    · exact refl s
  refine .bind written fun _ => .after flushed fun _ => ?_
  unfold touchTime
  split
  · exact .mutation (touchTime_good id inodeId _ now)
  · refine .bind ((refreshSize_aside _ inodeId).mono fun _ _ aside _ => aside) fun reply => ?_
    exact ⟨.pure _, fun _ _ _ _ bad => nomatch bad⟩

theorem writeFile_starts (off n : UInt64) (buf : Option (Nat → UInt8))
    (truncate : Bool) (now : UInt64) : Starts (writeFile k off n buf truncate now) := by
  refine .after requireMounted_reads fun _ => .after (useRecord_reads k false) fun r =>
    .after (inodeOfType_reads _ _) fun id => .currentInode id fun inode placed => ?_
  dsimp only
  generalize (if n = 0 then _ else _ : Nat) = requiredSize
  split
  · refine .mutation ⟨?_, ?_, nofun⟩
    · exact writeGrowing_edited id _ _ _ _ _ _ _
    · exact refreshSize_aside _
  · exact writeInPlace_starts placed ..

theorem truncateFile_starts (size now : UInt64) : Starts (truncateFile k size now) :=
  .after requireMounted_reads fun _ => .after (useRecord_reads k false) fun _ =>
    .after (inodeOfType_reads _ _) fun id => .mutation (truncate_good id _ size now)

theorem unlinkFile_starts : Starts (unlinkFile k) :=
  .after requireMounted_reads fun _ => .after (useRecord_reads k false) fun r =>
    .after (.ofOption _) fun parent => .after (inodeOfType_reads _ _) fun id =>
      .mutation (dropName_good r id parent)

theorem removeDirectory_starts : Starts (removeDirectory k) :=
  .after requireMounted_reads fun _ => .after (useRecord_reads k true) fun r =>
    .after (.ofOption _) fun parent => .after (inodeOfType_reads _ _) fun id =>
      .after (currentInode_reads id) fun inode =>
        .after (Along.perform fun s => childLoop_observed inode _ s) fun _ =>
          .mutation (dropName_good r id parent)

theorem renamePath_starts (oldPath newPath : CString) : Starts (renamePath oldPath newPath) := by
  refine .after requireMounted_reads fun _ => .after .get fun _ => .after (.ofOption _) fun _ =>
    .after (.ofOption _) fun (k, target) => .after (.ofOption _) fun newRelative =>
      .after (.ofOption _) fun (newParentPath, newLeaf) => .after (.require _) fun _ =>
        .after (.require _) fun _ => .after (.ofOption _) fun oldParent =>
          .after (inodeOfType_reads _ _) fun newParent => .after (.require _) fun _ =>
            .mutation ⟨?_, fun _ => (setRecords_aside _).bind fun _ => .pure _, nofun⟩
  exact (removeDirectoryEntry_edited oldParent target.name).bind fun _ =>
    (addDirectoryEntry_edited newParent _ _ newLeaf).bind fun _ => .pure _

theorem setOwnership_starts (k : Option (Fin 4095)) (ownership : Ownership) :
    Starts (setOwnership k ownership) :=
  .after .get fun _ => .after (.ofOption _) fun _ => .after requireMounted_reads fun _ =>
    .after (.ofOption _) fun id => .after (currentInode_reads id) fun _ =>
      .after (.require _) fun _ =>
        .mutation ⟨Along.bind (editInode_edited id (fun _ => rfl) fun _ => rfl) fun _ => .pure _,
          fun _ => .pure _, nofun⟩

theorem Request.begin_starts (req : Request) (now : UInt64) : Starts (req.begin now) := by
  cases req with
  | createFile | createDirectory => exact createNode_starts ..
  | writeFile k off n buf truncate =>
    exact writeFile_starts ..
  | truncateFile k size => exact truncateFile_starts ..
  | unlinkFile k => exact unlinkFile_starts k
  | removeDirectory k => exact removeDirectory_starts k
  | renamePath oldPath newPath => exact renamePath_starts ..
  | setOwnership k ownership => exact setOwnership_starts ..

/-! ## Running a mutation -/

section

variable (steady : Steady s)
include steady

theorem Steady.snapshot : Sane s.snapshot := ⟨steady.sane.layout, steady.sane.placed⟩

/-- What a commit of a mutation starts from. -/
theorem Steady.known {point : State}
    (frame : DataOnly s.snapshot point) : KnownHome point.volume point.disk := by
  intro _ settled
  have volume := frame.volume
  rw [volume] at settled
  rw [show point.volume.snapshot = s.volume.metadata by rw [volume]; rfl]
  exact (steady.home settled).data frame.touches

/-- Rolling back to the snapshot. -/
theorem Steady.restored (metadata : t.volume.snapshot = s.volume.metadata)
    (superblock : t.volume.snapshotSuperblock = s.volume.superblock)
    (home : t.volume.fullCommitPending = false →
      HomeHolds (metadataSector s.volume.metadata) t.disk) : Steady t.restore := by
  refine ⟨⟨(congrArg _ superblock).trans steady.sane.layout, ?_⟩, fun settled => ?_⟩
  · change t.volume.snapshot.Placed
    rw [metadata]
    exact steady.sane.placed
  · change HomeHolds (metadataSector t.volume.snapshot) t.disk
    rw [metadata]
    exact home settled

theorem Mutation.Good.commit_steady {mutation : Mutation} (good : mutation.Good) :
    Steady (mutation.commit s).2 := by
  obtain ⟨frame, sane⟩ := good.prepare s.snapshot steady.snapshot
  unfold Mutation.commit Mutation.prepared
  cases ran : mutation.prepare s.snapshot with
  | mk out t =>
    rw [ran] at frame sane
    have volume := frame.volume
    cases out with
    | none =>
      refine steady.restored (by rw [volume]; rfl) (by rw [volume]; rfl) (fun settled => ?_)
      rw [volume] at settled
      exact (steady.home settled).data frame.touches
    | some inodeId =>
      have effect := commitMetadata_effect sane.layout (steady.known frame)
      dsimp only
      cases committed : commitMetadata t with
      | mk done last =>
        rw [committed] at effect
        cases done with
        | true =>
          refine ⟨⟨effect.volume.layout.trans sane.layout, ?_⟩, fun _ => (effect.worked rfl).1⟩
          rw [effect.volume.metadata]
          exact sane.placed
        | false =>
          refine steady.restored ?_ ?_ (fun settled => ?_)
          · rw [effect.volume.snapshot, volume]
            rfl
          · rw [effect.volume.snapshotSuperblock, volume]
            rfl
          rcases effect.failed rfl with pending | ⟨old, _, keeps⟩
          · rw [settled] at pending
            cases pending
          · rw [volume] at old
            exact ((steady.home old).data frame.touches).keeps keeps

/-- A mutation leaves a steady volume, whatever the device did to it. -/
theorem Mutation.Good.run_steady {mutation : Mutation} (good : mutation.Good) :
    Steady (mutation.run s).2 := by
  have kept := good.commit_steady steady
  unfold Mutation.run
  split <;> rename_i ran <;> rw [ran] at kept
  · exact kept.aside (good.finish _ _)
  · split
    · exact kept
    · next rest tolerated => exact kept.aside (good.tolerate rest tolerated _)

/-- A request leaves a steady volume, whatever the device did to it. -/
theorem Request.run_steady (req : Request) (now : UInt64) : Steady (req.run now s).2 := by
  have starts := req.begin_starts now
  have kept := steady.aside (starts.along s steady.sane)
  unfold Request.run
  cases began : req.begin now s with
  | mk out t =>
    rw [began] at kept
    cases out with
    | none =>
      rw [bind_none began]
      exact kept
    | some step =>
      rw [bind_some began]
      cases step with
      | finished reply => exact kept
      | mutation mutation =>
        exact (starts.good s mutation t steady.sane began).run_steady kept

/-- A request commits what it snapshot from a steady volume. -/
theorem Request.commitPoint_known {req : Request} {now : UInt64} {point : State}
    (commits : req.commitPoint now s = some point) :
    KnownHome point.volume point.disk ∧ Sane point := by
  have starts := req.begin_starts now
  have kept := steady.aside (starts.along s steady.sane)
  unfold Request.commitPoint at commits
  split at commits
  · next mutation t began =>
    rw [began] at kept
    have good := starts.good s mutation t steady.sane began
    obtain ⟨frame, sane⟩ := good.prepare t.snapshot kept.snapshot
    split at commits
    · next inodeId last prepared =>
      cases commits
      rw [Mutation.prepared] at prepared
      rw [prepared] at frame sane
      exact ⟨kept.known frame, sane⟩
    · cases commits
  · cases commits

end

end SavanXP.SxFS
