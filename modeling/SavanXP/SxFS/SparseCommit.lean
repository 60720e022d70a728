import SavanXP.SxFS.OperationFrames
import SavanXP.SxFS.CommitRuns

/-!
# A sparse commit writes as much as a full one

A commit logs only what differs from the snapshot, unless an earlier one
failed.  On every state a mounted volume can reach, the snapshot is what the
device has at home, so that nothing it leaves out is missing there.
-/

namespace SavanXP.SxFS

open SavanXP.Library Fallible

/-- A volume slot about to be mounted from a device. -/
def probe (mountPoint : Path) (med : Nat → Sector) (size : Nat) (writable : Bool)
    (plan : List Fate) : State where
  volume := { Volume.blank with mountPoint := mountPoint }
  disk := Disk.boot med size writable plan

/-- The states of a volume mounted from some medium, after any public
operations on a device that may fail at any command. -/
inductive Reachable : State → Prop
  | mount {mountPoint : Path} {med : Nat → Sector} {size : Nat} {writable : Bool}
      {plan : List Fate} {s : State}
      (done : loadFilesystemFromDevice (probe mountPoint med size writable plan) = (true, s)) :
      Reachable s
  | request {s : State} (reached : Reachable s) (req : Request) (now : UInt64) :
      Reachable (req.run now s).2
  | readFile {s : State} (reached : Reachable s) (k : Fin 4095)
      (off n : UInt64) : Reachable (readFile k off n s).2
  | check {s : State} (reached : Reachable s) : Reachable (check s).2
  | sync {s : State} (reached : Reachable s) : Reachable (sync s).2

/-- The states in which the driver calls `commitMetadata`: in a request, or in
the ownership stamp of a mount. -/
inductive CommitCall : State → Prop
  | request {s point : State} {req : Request} {now : UInt64} (reached : Reachable s)
      (commits : req.commitPoint now s = some point) : CommitCall point
  | stamp {mountPoint : Path} {med : Nat → Sector} {size : Nat} {writable : Bool}
      {plan : List Fate} {tree point : State}
      (loaded : loadTree (probe mountPoint med size writable plan) = (some (), tree))
      (begun : beginStamp tree = .inr point) : CommitCall point

/-! ## Volumes that are not writable -/

variable {s : State}

theorem requireMounted_none (unmounted : s.volume.status ≠ .mounted) :
    requireMounted s = (none, s) := by
  unfold requireMounted
  rw [bind_some (rfl : get s = (some s, s)), require,
    if_neg (by simpa using unmounted)]

/-- Without a writable mount a request ends at its first checks. -/
theorem Request.begin_unmounted (unmounted : s.volume.status ≠ .mounted) (req : Request)
    (now : UInt64) : req.begin now s = (none, s) := by
  have stops := requireMounted_none unmounted
  cases req with
  | createFile | createDirectory | writeFile | truncateFile | unlinkFile | removeDirectory
  | renamePath =>
      exact bind_none stops
  | setOwnership k ownership =>
    change SxFS.setOwnership k ownership s = _
    unfold SxFS.setOwnership
    rw [bind_some (rfl : get s = (some s, s))]
    generalize ownedInode s.volume.records k = named
    cases named with
    | none => rfl
    | some inodeId =>
      rw [bind_some (rfl : ofOption (some inodeId) s = (some inodeId, s))]
      exact bind_none stops

/-! ## The invariant -/

theorem Steady.clearJournal (steady : Steady s) (dur : Durability) :
    Steady (clearJournal dur s).2 := by
  obtain ⟨volume, touches⟩ := writeSectors_touches s.volume.superblock.journalLba.toNat
    [JournalHeader.codec JournalHeader.zero] dur s
  have here := (s.volume.superblock.layout steady.sane.layout).journalLba
  unfold SxFS.clearJournal
  refine steady.carried ?_ ?_ ?_ touches (fun i _ v written => ?_)
  case refine_4 =>
    rw [here] at written
    exact homeLba_ne_journalLba i (mem_cells_single.mp written).1
  all_goals rw [volume]

theorem sync_steady (steady : Steady s) : Steady (sync s).2 := by
  obtain ⟨sealed, _⟩ := steady.superblocks s.volume.superblock.sequence flagClean .durable
  unfold sync
  split
  · exact steady
  split
  · exact steady
  unfold allOf
  split
  · next middle ran =>
    rw [ran] at sealed
    have cleared := sealed.clearJournal .durable
    unfold allOf
    split <;> rename_i res <;> rw [res] at cleared <;> exact cleared
  · next middle stopped =>
    rw [stopped] at sealed
    exact sealed

theorem probe_settled (mountPoint : Path) (med : Nat → Sector) (size : Nat) (writable : Bool)
    (plan : List Fate) (a : Nat) (v : Sector)
    (held : (probe mountPoint med size writable plan).disk.possible a v) : v = med a :=
  possible_boot.mp held

/-- Every writable volume that can be reached is steady. -/
theorem Reachable.steady (reached : Reachable s) (mounted : s.volume.status = .mounted) :
    Steady s := by
  induction reached with
  | mount done => exact loadFilesystemFromDevice_steady (probe_settled _ _ _ _ _) done mounted
  | @request s reached req now ih =>
    by_cases old : s.volume.status = .mounted
    · exact req.run_steady (ih old) now
    have same : req.run now s = (none, s) := bind_none (req.begin_unmounted old now)
    rw [same] at mounted
    exact absurd mounted old
  | @readFile s reached k off n ih =>
    have seen := readFile_reads k off n s
    exact (ih (seen.volume ▸ mounted)).aside seen.aside
  | @check s reached ih =>
    have seen := check_observed s
    exact (ih (seen.volume ▸ mounted)).aside seen.aside
  | @sync s reached ih =>
    by_cases old : s.volume.status = .mounted
    · exact sync_steady (ih old)
    have same : (SxFS.sync s).2 = s := by
      unfold SxFS.sync
      split <;> rfl
    rw [same] at mounted
    exact absurd mounted old

/-- A commit always starts from a snapshot of what is at home. -/
theorem CommitCall.known {point : State} (call : CommitCall point) :
    KnownHome point.volume point.disk ∧ Sane point := by
  cases call with
  | @request s point req now reached commits =>
    refine Request.commitPoint_known (reached.steady ?_) commits
    by_contra unmounted
    rw [Request.commitPoint, req.begin_unmounted unmounted now] at commits
    cases commits
  | @stamp mountPoint med size writable plan tree point loaded begun =>
    have mounted : tree.volume.status = .mounted := by
      by_contra unmounted
      rw [beginStamp, if_pos unmounted] at begun
      cases begun
    have steady := loadTree_steady (probe_settled _ _ _ _ _) loaded mounted
    rw [beginStamp_mounted mounted] at begun
    have stamping := stampChanged_commits steady begun
    refine ⟨stamping.known, stamping.layout, ?_⟩
    rw [stamping.metadata]
    exact applyDefaultOwnership_placed _ steady.sane.placed

/-- Whenever the driver commits, an intact snapshot is what the device returns
for home, and a commit that works leaves home as memory has it, in every
sector. -/
theorem commitMetadata_sparse_is_full {point : State} (call : CommitCall point) :
    (point.volume.snapshotValid = true → point.volume.fullCommitPending = false →
      ∀ index, index < journalMetadataSectors →
        point.disk.view (homeLba index) = metadataSector point.volume.snapshot index) ∧
    ∀ later, commitMetadata point = (true, later) → ∀ index, index < journalMetadataSectors →
      later.disk.view (homeLba index) = metadataSector later.volume.metadata index := by
  obtain ⟨known, sane⟩ := call.known
  refine ⟨fun valid settled index inside => (known valid settled).view inside,
    fun later committed index inside => ?_⟩
  have effect := commitMetadata_effect sane.layout known
  rw [committed] at effect
  exact (effect.worked rfl).1.view inside

/-! ## A call on the fresh volume -/

theorem inodeForId_inodeIdOf (id : Fin 4096) : inodeForId (inodeIdOf id) = some id := by
  have v : (inodeIdOf id).toNat = id.val + 1 := ofNat_toNat (by omega)
  have nonzero : inodeIdOf id ≠ 0 := by
    intro zero
    rw [zero] at v
    exact absurd v (by simp)
  unfold inodeForId
  rw [dif_pos ⟨nonzero, by omega⟩]
  simp [v]

theorem currentInode_wp {post : Inode → State → Prop} {fails : State → Prop} (id : Fin 4096) :
    wp (currentInode id) post fails s ↔ post (s.volume.metadata.inodes id) s := Iff.rfl

/-- chmod of the root reaches its commit. -/
theorem setOwnership_commits {s : State} (mounted : s.volume.status = .mounted)
    {ownership : Ownership}
    (fits : modeMatchesType ownership.mode (s.volume.metadata.inodes 0).type = true)
    (now : UInt64) :
    ∃ point, (Request.setOwnership none ownership).commitPoint now s = some point := by
  have checked : wp ((Request.setOwnership none ownership).begin now)
      (fun step t => t = s ∧ ∃ id, step = .mutation
        { prepare := do
            editInode id fun inode => inode.withOwnership ownership
            pure (inodeIdOf 0)
          finish := fun _ => pure .done }) (fun _ => False) s := by
    change wp (setOwnership none ownership) _ _ s
    unfold setOwnership requireMounted
    simp only [wp_bind, wp_get, wp_ofOption, wp_require, currentInode_wp, wp_pure, ownedInode]
    refine ⟨fun inodeId named => ?_, fun bad => by cases bad⟩
    obtain rfl : inodeIdOf 0 = inodeId := Option.some.inj named
    rw [inodeForId_inodeIdOf]
    refine ⟨fun _ => ⟨fun id same => ?_, fun bad => by cases bad⟩,
      fun bad => absurd mounted (by simpa using bad)⟩
    obtain rfl := Option.some.inj same
    exact ⟨fun _ => ⟨trivial, 0, rfl⟩, fun bad => by rw [fits] at bad; cases bad⟩
  obtain ⟨_, t, ran, _, id, rfl⟩ := checked.gives
  rw [Request.commitPoint, ran]
  exact ⟨_, rfl⟩

/-- An empty root has no records. -/
theorem rebuildRecordCache_empty
    (dir : (s.volume.metadata.inodes 0).type = inodeDirectory)
    (empty : (s.volume.metadata.inodes 0).size = 0) :
    wp rebuildRecordCache
      (fun _ t => t = { s with volume := s.volume.setRecords fun _ => none })
      (fun _ => False) s := by
  have offsets : entryOffsets (s.volume.metadata.inodes 0) = [] := by
    simp [entryOffsets, empty]
  unfold rebuildRecordCache buildRecordRecursive
  simp only [wp_bind, wp_update, wp_ofOption, currentInode_wp, wp_require]
  refine ⟨fun id found => ?_, fun bad => ?_⟩
  · obtain rfl : 0 = id := Option.some.inj ((inodeForId_inodeIdOf 0).symm.trans found)
    refine ⟨fun _ => ?_, fun refused => ?_⟩
    · change wp (List.foldlM _ _ (entryOffsets (s.volume.metadata.inodes 0))) _ _ _
      rw [offsets]
      rfl
    · change (decide ((s.volume.metadata.inodes 0).type = inodeDirectory) && !false) = false
        at refused
      rw [dir] at refused
      cases refused
  · cases bad

/-- A recovered volume with an empty root mounts. -/
theorem loadTree_empty {start loaded : State} (ran : loadMetadata start = (.writable, loaded))
    (valid : homeMetadataIsValid loaded.volume.superblock loaded.volume.metadata = true)
    (dir : (loaded.volume.metadata.inodes 0).type = inodeDirectory)
    (empty : (loaded.volume.metadata.inodes 0).size = 0) :
    ∃ tree, loadTree start = (some (), tree) ∧ tree.volume.status = .mounted ∧
      tree.volume.metadata = loaded.volume.metadata := by
  obtain ⟨_, _, built, rfl⟩ := (rebuildRecordCache_empty dir empty).gives
  unfold loadTree
  rw [ran]
  dsimp only
  rw [if_neg (by rw [valid]; decide), built]
  exact ⟨_, rfl, rfl, rfl⟩

theorem loadFilesystemFromDevice_of_tree {start tree : State}
    (loaded : loadTree start = (some (), tree)) :
    loadFilesystemFromDevice start = (true, stampOwnership tree) := by
  rw [loadFilesystemFromDevice, loaded]

/-- Ownership leaves types alone. -/
theorem applyDefaultOwnership_type (recs : Records) (md : Metadata) (id : Fin 4096) :
    ((applyDefaultOwnership recs md).2.inodes id).type = (md.inodes id).type := by
  refine @applyDefaultOwnership_keeps _
    (fun changed => (changed.2.inodes id).type = (md.inodes id).type) _ rfl
    (fun path o changed held => ?_)
  unfold defaultInodeOwnership
  dsimp only
  split
  · by_cases same : id = o
    · subst same
      rw [Metadata.setInode_self]
      exact held
    · rw [Metadata.setInode_other _ _ same]
      exact held
  · exact held

/-- A medium that recovers to an empty root is mounted writable. -/
theorem reachable_of_empty {mountPoint : Path} {med : Nat → Sector} {size : Nat}
    {plan : List Fate} {loaded : State}
    (ran : loadMetadata (probe mountPoint med size true plan) = (.writable, loaded))
    (valid : homeMetadataIsValid loaded.volume.superblock loaded.volume.metadata = true)
    (dir : (loaded.volume.metadata.inodes 0).type = inodeDirectory)
    (empty : (loaded.volume.metadata.inodes 0).size = 0) :
    ∃ s, Reachable s ∧ s.volume.status = .mounted ∧
      (s.volume.metadata.inodes 0).type = inodeDirectory := by
  obtain ⟨tree, here, mounted, same⟩ := loadTree_empty ran valid dir empty
  obtain ⟨_, status, owned⟩ := stampOwnership_steady
    (loadTree_steady (probe_settled _ _ _ _ _) here mounted) mounted
  refine ⟨stampOwnership tree, .mount (loadFilesystemFromDevice_of_tree here), status, ?_⟩
  rw [owned, applyDefaultOwnership_type, same, dir]

theorem fresh_reachable : ∃ s, Reachable s ∧ s.volume.status = .mounted ∧
    (s.volume.metadata.inodes 0).type = inodeDirectory := by
  obtain ⟨loaded, ran, _, content⟩ := freshImage_mounts { Volume.blank with mountPoint := [] }
  have recovery := loadMetadata_recovers ⟨{ Volume.blank with mountPoint := [] },
    Disk.boot freshImage 8192 true []⟩ (.quiet (freshImage_quiet []).1)
  rw [ran] at recovery
  have valid := ((recovery nofun).loaded nofun).2
  refine reachable_of_empty ran valid ?_ ?_
  all_goals
    rw [content]
    rfl

theorem commitMetadata_sparse_is_full_fresh : ∃ point, CommitCall point ∧
    ((point.volume.snapshotValid = true → point.volume.fullCommitPending = false →
      ∀ index, index < journalMetadataSectors →
        point.disk.view (homeLba index) = metadataSector point.volume.snapshot index) ∧
    ∀ later, commitMetadata point = (true, later) → ∀ index, index < journalMetadataSectors →
      later.disk.view (homeLba index) = metadataSector later.volume.metadata index) := by
  obtain ⟨state, reached, mounted, directory⟩ := fresh_reachable
  obtain ⟨point, commits⟩ := @setOwnership_commits state mounted ⟨0, 0, 0x41c0⟩
    (by rw [directory]; decide) 0
  exact ⟨point, .request reached commits, commitMetadata_sparse_is_full (.request reached commits)⟩

end SavanXP.SxFS
