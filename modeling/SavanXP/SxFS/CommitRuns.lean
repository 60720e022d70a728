import SavanXP.SxFS.Mkfs

/-!
# Runs of commits

A run changes the metadata and commits it, again and again, on a device whose
commands may fail and whose power may go at any point.  The ordering points of a
commit only order, so a cut can also undo commits that had finished, the last ones
first; what is left is always the metadata after some of the commits.
-/

namespace SavanXP.SxFS

open SavanXP.Library List Function

/-- A mutation as far as the journal is concerned: snapshot, change, commit. -/
def commitChange (md : Metadata) : Action State :=
  fun s => commitMetadata
    { s with volume := { s.volume.snapshotMetadata with metadata := md } }

/-- Commit one change after the other up to the first that fails; also says how
many finished. -/
def commitRun : State → List Metadata → Nat × State
  | s, [] => (0, s)
  | s, md :: rest =>
    match commitChange md s with
    | (false, s) => (0, s)
    | (true, s) => let (finished, s) := commitRun s rest; (finished + 1, s)

/-- Media that power cuts during any number of mounts can leave. -/
inductive RecoveryCuts (size : Nat) : (Nat → Sector) → (Nat → Sector) → Prop
  | none (med : Nat → Sector) : RecoveryCuts size med med
  | cut {med image last : Nat → Sector} (volume : Volume) (plan : List Fate)
      (left : (loadMetadata ⟨volume, Disk.boot med size true plan⟩).2.disk.Leaves image)
      (rest : RecoveryCuts size image last) : RecoveryCuts size med last

/-- The metadata in memory is at home, valid, and the journal is quiet. -/
structure Settled (total : UInt32) (s : State) : Prop where
  layout : s.volume.superblock.layoutValid = true
  size : s.volume.superblock.totalSectors = total
  quiet : Quiet total (metadataSector s.volume.metadata) s.disk
  valid : ValidFor total s.volume.metadata

variable {total : UInt32}

theorem Quiet.of_sectors {old new : Nat → Sector} {disk : Disk Sector}
    (quiet : Quiet total old disk) (same : ∀ i < journalMetadataSectors, old i = new i) :
    Quiet total new disk :=
  quiet.weaken (fun _ off => off) (fun i ins _ here => here.trans (same i ins))
    (fun _ _ _ _ => trivial)

variable {s : State}

theorem Settled.withPlan (settled : Settled total s) (plan : List Fate) :
    Settled total (s.withPlan plan) :=
  ⟨settled.layout, settled.size, settled.quiet.keeps (s.disk.withPlan_keeps plan), settled.valid⟩

/-- A volume that was mounted writable is settled. -/
theorem settled_of_load {target : Nat → Sector} {pre start : State}
    (bootable : Bootable total target pre.disk)
    (mounted : loadMetadata pre = (.writable, start)) : Settled total start := by
  have spec := loadMetadata_recovers pre bootable
  rw [mounted] at spec
  have recovery := spec nofun
  obtain ⟨content, valid⟩ := recovery.loaded nofun
  refine ⟨recovery.layout, recovery.size, ?_, ?_⟩
  · exact (recovery.settled rfl).of_sectors fun i ins => (content i ins).symm
  · exact recovery.size ▸ validFor_of_valid recovery.layout valid

/-- A cut in this epoch leaves metadata of the list. -/
def Shows (total : UInt32) (mds : List Metadata) (disk : Disk Sector) : Prop :=
  ∃ old ∈ mds, ∃ new ∈ mds,
    Interrupted total (metadataSector old) (metadataSector new) disk

variable {size : Nat}

theorem Shows.mono {mds more : List Metadata} {disk : Disk Sector} (shows : Shows total mds disk)
    (within : mds ⊆ more) : Shows total more disk := by
  obtain ⟨old, oldListed, new, newListed, interrupted⟩ := shows
  exact ⟨old, within oldListed, new, within newListed, interrupted⟩

theorem Shows.boot {mds : List Metadata} {disk : Disk Sector}
    {image : Nat → Sector} (shows : Shows total mds disk) (left : disk.Image image)
    (room : total.toNat ≤ size) :
    ∃ md ∈ mds, ∀ plan, Bootable total (metadataSector md) (Disk.boot image size true plan) := by
  obtain ⟨old, oldListed, new, newListed, interrupted⟩ := shows
  rcases interrupted.boot left room with bootable | bootable
  · exact ⟨old, oldListed, bootable⟩
  · exact ⟨new, newListed, bootable⟩

/-- The epochs that a mounted volume holds back show what was mounted. -/
theorem past_of_load {medium : Nat → Sector} {volume : Volume} {start : State}
    (copies : Copies total (Disk.boot medium size true []))
    (mounted : loadMetadata ⟨volume, Disk.boot medium size true []⟩ = (.writable, start)) :
    ∀ epoch ∈ start.disk.past, Shows total [start.volume.metadata] (start.disk.before epoch) := by
  have spec := loadMetadata_recovers ⟨volume, Disk.boot medium size true []⟩
    (bootable_boot copies fun _ _ => rfl)
  rw [mounted] at spec
  obtain ⟨content, _⟩ := (spec nofun).loaded nofun
  have again := (loadMetadata_spec ⟨volume, Disk.boot medium size true []⟩
    (fun _ interrupted => interrupted) (fun _ closed => absurd closed not_mem_nil)
    (bootable_boot copies fun i ins => (content i ins).symm)).2.1
  rw [mounted] at again
  exact fun epoch closed =>
    ⟨_, mem_singleton_self _, _, mem_singleton_self _, again epoch closed⟩

variable {md : Metadata}

/-- One change of a settled volume. -/
theorem commitChange_spec {seen : List Metadata} (settled : Settled total s)
    (valid : ValidFor total md)
    (past : ∀ epoch ∈ s.disk.past, Shows total seen (s.disk.before epoch)) :
    (∀ epoch ∈ (commitChange md s).2.disk.past,
      Shows total (md :: s.volume.metadata :: seen) ((commitChange md s).2.disk.before epoch)) ∧
    ((commitChange md s).1 = true →
      Settled total (commitChange md s).2 ∧ (commitChange md s).2.volume.metadata = md) ∧
    ((commitChange md s).1 = false →
      Interrupted total (metadataSector s.volume.metadata) (metadataSector md)
        (commitChange md s).2.disk) := by
  obtain ⟨same, recorded, worked, failed⟩ := commitMetadata_spec
    { s with volume := { s.volume.snapshotMetadata with metadata := md } }
    settled.layout settled.size settled.quiet (fun _ _ _ _ => rfl)
    (fun _ interrupted => ⟨_, mem_cons_of_mem _ mem_cons_self, md, mem_cons_self, interrupted⟩)
    (fun epoch closed => (past epoch closed).mono fun _ listed =>
      mem_cons_of_mem _ (mem_cons_of_mem _ listed))
  refine ⟨recorded, fun done => ?_, fun stopped => (failed stopped).1⟩
  have content : (commitChange md s).2.volume.metadata = md := same.metadata
  refine ⟨⟨same.layout.trans settled.layout, same.total.trans settled.size, ?_, ?_⟩, content⟩
  · rw [content]
    exact (worked done).1
  · rw [content]
    exact valid

/-- A run leaves the last finished commit, or an interrupted one after it; the epochs
held back show earlier ones too. -/
theorem commitRun_interrupted {start : State} {changes seen : List Metadata}
    (settled : Settled total start) (valid : ∀ md ∈ changes, ValidFor total md)
    (past : ∀ epoch ∈ start.disk.past, Shows total seen (start.disk.before epoch)) :
    Shows total (((start.volume.metadata :: changes).take ((commitRun start changes).1 + 2)).drop
        (commitRun start changes).1) (commitRun start changes).2.disk ∧
      ∀ epoch ∈ (commitRun start changes).2.disk.past,
        Shows total (seen ++
          (start.volume.metadata :: changes).take ((commitRun start changes).1 + 2))
          ((commitRun start changes).2.disk.before epoch) := by
  induction changes generalizing start seen with
  | nil =>
    refine ⟨⟨_, mem_singleton_self _, _, mem_singleton_self _, .quiet settled.quiet⟩,
      fun epoch closed => (past epoch closed).mono (subset_append_left ..)⟩
  | cons md rest ih =>
    have here := valid md mem_cons_self
    obtain ⟨recorded, worked, failed⟩ := commitChange_spec settled here past
    unfold commitRun
    split
    · next t stopped =>
      rw [stopped] at failed recorded
      refine ⟨⟨_, mem_cons_self, md, mem_cons_of_mem _ mem_cons_self, failed rfl⟩,
        fun epoch closed => (recorded epoch closed).mono fun shown listed => ?_⟩
      simp only [mem_cons, mem_append, take_succ_cons] at listed ⊢
      tauto
    · next t done =>
      rw [done] at worked recorded
      obtain ⟨settledLater, content⟩ := worked rfl
      have run := ih settledLater (fun o inRest => valid o (mem_cons_of_mem _ inRest)) recorded
      rw [content] at run
      refine ⟨run.1, fun epoch closed => (run.2 epoch closed).mono fun shown listed => ?_⟩
      simp only [mem_cons, mem_append, take_succ_cons] at listed ⊢
      tauto

theorem RecoveryCuts.bootable {target : Nat → Sector} {med last : Nat → Sector}
    (cuts : RecoveryCuts size med last) (room : total.toNat ≤ size)
    (start : ∀ plan, Bootable total target (Disk.boot med size true plan)) :
    ∀ plan, Bootable total target (Disk.boot last size true plan) := by
  induction cuts with
  | none med => exact start
  | cut volume plan left rest ih =>
    obtain ⟨interrupted, past, _⟩ := loadMetadata_spec ⟨volume, _⟩
      (fun _ interrupted => interrupted) (fun _ closed => absurd closed not_mem_nil) (start plan)
    refine ih fun t => ?_
    rcases left with image | ⟨epoch, closed, image⟩
    · exact (interrupted.boot image room).elim (· t) (· t)
    · exact ((past epoch closed).boot image room).elim (· t) (· t)

theorem Settled.large (settled : Settled total s) : dataLba < total.toNat :=
  settled.size ▸ (s.volume.superblock.layout settled.layout).total

/-- After any cuts during mounting, the next mount reads the same metadata. -/
theorem RecoveryCuts.mounts {image last : Nat → Sector}
    (recoveries : RecoveryCuts size image last) (room : total.toNat ≤ size)
    (large : dataLba < total.toNat) (volume : Volume)
    (bootable : ∀ plan, Bootable total (metadataSector md) (Disk.boot image size true plan))
    (valid : ValidFor total md) :
    ∃ s, loadMetadata ⟨volume, Disk.boot last size true []⟩ = (.writable, s) ∧
      s.volume.metadata = md := by
  obtain ⟨s, out, _, content⟩ := loadMetadata_works
    ⟨volume, Disk.boot last size true []⟩ ⟨rfl, rfl, rfl⟩
    (recoveries.bootable room bootable []) large valid
  exact ⟨s, out, content⟩

/-! ## A fresh volume -/

/-- The size of a small volume. -/
def freshTotal : UInt32 := 8192

def freshRoot : Inode := initInode (UInt32.ofNat rootInode) inodeDirectory []

def freshImage : Nat → Sector := mkfsImage freshTotal freshRoot fun _ => zeroSector

theorem freshImage_made : mkfs freshTotal 0 0 0 (fun _ => zeroSector) = some freshImage := rfl

theorem freshImage_quiet (plan : List Fate) :
    Quiet freshTotal (metadataSector (mkfsMetadata freshRoot))
        (Disk.boot freshImage 8192 true plan) ∧ ValidFor freshTotal (mkfsMetadata freshRoot) := by
  have room : freshTotal.toNat ≤ 8192 := by decide
  obtain ⟨root, rooted, quiet, valid⟩ := mkfs_sound freshImage_made room plan
  cases rooted
  exact ⟨quiet, valid⟩

/-- Mounting the fresh volume works. -/
theorem freshImage_mounts (volume : Volume) :
    ∃ s, loadMetadata ⟨volume, Disk.boot freshImage 8192 true []⟩ = (.writable, s) ∧
      Working s ∧ s.volume.metadata = mkfsMetadata freshRoot := by
  obtain ⟨quiet, valid⟩ := freshImage_quiet []
  exact loadMetadata_works ⟨volume, Disk.boot freshImage 8192 true []⟩ ⟨rfl, rfl, rfl⟩
    (.quiet quiet) (by decide) valid

/-- The metadata with another modification time on one inode. -/
def Metadata.touch (md : Metadata) (id : Fin 4096) (mtime : UInt64) : Metadata :=
  { md with inodes := update md.inodes id { md.inodes id with mtime := mtime } }

theorem Metadata.touch_inode (md : Metadata) (id o : Fin 4096) (mtime : UInt64) :
    (md.touch id mtime).inodes o =
      if o = id then { md.inodes id with mtime := mtime } else md.inodes o := by
  simp only [Metadata.touch, update_apply]

theorem Metadata.touch_valid (valid : ValidFor total md) (id : Fin 4096) (mtime : UInt64) :
    ValidFor total (md.touch id mtime) := by
  intro sb layout size
  have plain := (homeMetadataIsValid_iff layout md).mp (valid sb layout size)
  have same (o : Fin 4096) : ∃ stamp, (md.touch id mtime).inodes o =
      { md.inodes o with mtime := stamp } := by
    rw [Metadata.touch_inode]
    split
    · next here => exact ⟨mtime, by rw [here]⟩
    · exact ⟨(md.inodes o).mtime, rfl⟩
  refine (homeMetadataIsValid_iff layout _).mpr ⟨plain.1, fun o => ?_, ?_⟩
  · obtain ⟨stamp, here⟩ := same o
    unfold inodeOk
    rw [here]
    exact plain.2.1 o
  · have sectors : (fun o => ((md.touch id mtime).inodes o).sectors) =
        fun o => (md.inodes o).sectors := by
      funext o
      obtain ⟨stamp, here⟩ := same o
      rw [here]
      rfl
    rw [sectors]
    exact plain.2.2

/-! ## Runs without failed commits -/

/-- After power cuts during a run of commits and during the recoveries after it, the
next mount reads back exactly the metadata after some of the commits, at most one more
than had finished; if the device held no closed epoch back, after all that had
finished. -/
theorem commitRun_crash_prefix {total : UInt32} {size : Nat} {medium image last : Nat → Sector}
    {mounted : State} (volume remounted : Volume) (plan : List Fate) (changes : List Metadata)
    (copies : Copies total (Disk.boot medium size true []))
    (load : loadMetadata ⟨volume, Disk.boot medium size true []⟩ = (.writable, mounted))
    (valid : ∀ md ∈ changes, homeMetadataIsValid mounted.volume.superblock md = true)
    (cut : (commitRun (mounted.withPlan plan) changes).2.disk.Leaves image)
    (recoveries : RecoveryCuts size image last) :
    ∃ commits md state, commits ≤ (commitRun (mounted.withPlan plan) changes).1 + 1 ∧
      ((commitRun (mounted.withPlan plan) changes).2.disk.Image image →
        (commitRun (mounted.withPlan plan) changes).1 ≤ commits) ∧
      (mounted.volume.metadata :: changes)[commits]? = some md ∧
      loadMetadata ⟨remounted, Disk.boot last size true []⟩ = (.writable, state) ∧
      state.volume.metadata = md := by
  have settled := settled_of_load (bootable_boot copies fun _ _ => rfl) load
  have good : ∀ md ∈ mounted.volume.metadata :: changes, ValidFor total md :=
    forall_mem_cons.mpr ⟨settled.valid, fun md inRun =>
      settled.size ▸ validFor_of_valid settled.layout (valid md inRun)⟩
  have mounts {commits : Nat} {md : Metadata}
      (listed : (mounted.volume.metadata :: changes)[commits]? = some md)
      (bootable : ∀ plan, Bootable total (metadataSector md) (Disk.boot image size true plan)) :=
    recoveries.mounts copies.room settled.large remounted bootable
      (good md (mem_of_getElem? listed))
  have held := past_of_load copies load
  obtain ⟨current, past⟩ := commitRun_interrupted (settled.withPlan plan)
    (fun md inRun => good md (mem_cons_of_mem _ inRun)) fun epoch closed => held epoch closed
  generalize commitRun (mounted.withPlan plan) changes = run at *
  by_cases now : run.2.disk.Image image
  · obtain ⟨md, shown, bootable⟩ := current.boot now copies.room
    obtain ⟨i, shown⟩ := mem_iff_getElem?.mp shown
    rw [getElem?_drop, getElem?_take] at shown
    split at shown
    · obtain ⟨state, loaded, content⟩ := mounts shown bootable
      exact ⟨run.1 + i, md, state, by omega, fun _ => by omega, shown, loaded, content⟩
    · cases shown
  · obtain ⟨epoch, closed, left⟩ := cut.resolve_left now
    obtain ⟨md, shown, bootable⟩ := (past epoch closed).boot left copies.room
    have listed : md ∈ (mounted.volume.metadata :: changes).take (run.1 + 2) := by
      simpa [State.withPlan] using shown
    obtain ⟨commits, listed⟩ := mem_iff_getElem?.mp listed
    rw [getElem?_take] at listed
    split at listed
    · obtain ⟨state, loaded, content⟩ := mounts listed bootable
      exact ⟨commits, md, state, by omega, fun image => absurd image now, listed, loaded, content⟩
    · cases listed

theorem commitRun_crash_prefix_fresh :
    ∃ mounted state : State,
      loadMetadata ⟨Volume.blank, Disk.boot freshImage 8192 true []⟩ = (.writable, mounted) ∧
      loadMetadata ⟨Volume.blank, Disk.boot (commitRun (mounted.withPlan [.ok, .cut fun _ => true])
        [(mkfsMetadata freshRoot).touch 0 1]).2.disk.medium 8192 true []⟩ = (.writable, state) ∧
      (state.volume.metadata = mkfsMetadata freshRoot ∨
        state.volume.metadata = (mkfsMetadata freshRoot).touch 0 1) := by
  obtain ⟨quiet, valid⟩ := freshImage_quiet []
  obtain ⟨mounted, load, working, content⟩ := freshImage_mounts Volume.blank
  have settled := settled_of_load (.quiet quiet) load
  obtain ⟨_, md, state, _, _, which, loaded, same⟩ := commitRun_crash_prefix Volume.blank
    Volume.blank [.ok, .cut fun _ => true] [(mkfsMetadata freshRoot).touch 0 1] quiet.copies load
    (fun md inRun => by
      rw [mem_singleton.mp inRun]
      exact (Metadata.touch_valid valid 0 1) _ settled.layout settled.size)
    (.inl ⟨fun _ => false, by rw [select_none]⟩) (.none _)
  refine ⟨mounted, state, load, loaded, ?_⟩
  have listed := mem_of_getElem? which
  rw [same, ← content]
  simpa [content] using listed

/-! ## A finished commit that is lost -/

/-- The action gives up no epoch that is held back. -/
def HoldsBack (action : Action State) : Prop :=
  ∀ epoch s, epoch ∈ s.disk.past → epoch ∈ (action s).2.disk.past

theorem allOf_holdsBack {actions : List (Action State)}
    (each : ∀ action ∈ actions, HoldsBack action) : HoldsBack (allOf actions) := by
  induction actions with
  | nil => exact fun _ _ closed => closed
  | cons action rest ih =>
    obtain ⟨first, others⟩ := forall_mem_cons.mp each
    intro epoch s closed
    have after := first epoch s closed
    unfold allOf
    split <;> rename_i ran <;> rw [ran] at after
    · exact ih others epoch _ after
    · exact after

theorem writeSectors_holdsBack (lba : Nat) (data : List Sector) :
    HoldsBack (writeSectors lba data .cached) :=
  fun _ _ closed => Disk.writeCached_past closed lba data

theorem flushDisk_holdsBack : HoldsBack flushDisk := fun _ _ closed => Disk.flush_past closed

theorem writeSuperblocks_holdsBack (seq flags : UInt32) :
    HoldsBack (writeSuperblocks seq flags .cached) := by
  intro epoch s closed
  refine allOf_holdsBack (fun action listed => ?_) epoch _ closed
  simp only [mem_cons, not_mem_nil, or_false] at listed
  rcases listed with rfl | rfl <;> exact writeSectors_holdsBack _ _

theorem transfer_holdsBack (map : Bytes 196) (baseLba : Nat) :
    HoldsBack (transferMetadataSectors map baseLba true) := by
  have loop : ∀ left i, HoldsBack (transferLoop map (writeRun baseLba) left i) := by
    intro left
    induction left with
    | zero => exact fun _ _ _ closed => closed
    | succ left ih =>
      intro i epoch s closed
      unfold transferLoop
      split
      · exact closed
      split
      · exact ih _ epoch s closed
      dsimp only
      generalize runEnd map _ _ _ = last
      have after : epoch ∈ (writeRun baseLba i last s).2.disk.past :=
        Disk.writeCached_past closed ..
      split <;> rename_i ran <;> rw [ran] at after
      · exact after
      · exact ih _ epoch _ after
  exact loop _ 0

/-- A commit holds the epoch back in which it began. -/
theorem commitMetadata_holds_back {s : State} (working : Working s) :
    ∃ t, commitMetadata s = (true, t) ∧ ∃ epoch ∈ t.disk.past, epoch.medium = s.disk.medium := by
  unfold commitMetadata
  dsimp only
  split
  · refine ⟨_, onDisk_eq working.healthy.flush, s.disk.epoch, mem_cons_self, rfl⟩
  have place := s.volume.superblock.layout working.layout
  have sealed : Works (allOf (sealSteps (s.volume.superblock.sequence + 1))) :=
    (writeSuperblocks_sure _ _ _).works.cons <| (clearJournal_works _).cons <|
      flushDisk_sure.works.cons <| Triple.nil fun _ done => done
  have works := (applySteps_sure (buildDirtyMap s.volume).1 (s.volume.superblock.sequence + 1)
    working.layout).works.append sealed
  obtain ⟨t, ran, _⟩ := Works.run works working
  rw [commitSteps, ran]
  refine ⟨_, rfl, ?_⟩
  -- the payload is cached over the same medium, and the first ordering point keeps it
  have transfers : Works (transferMetadataSectors (buildDirtyMap s.volume).1
      (s.volume.superblock.journalLba.toNat + 1) true) :=
    (transfer_sure _ (by rw [place.journalLba]; decide)).works
  obtain ⟨staged, stages, after⟩ := transfers.run working
  obtain ⟨_, _, writes, wrote, _⟩ := (transfer_write _ _ s s rfl).1 (congrArg Prod.fst stages)
  rw [stages] at wrote
  have flushes : flushDisk staged = (true, { staged with disk := staged.disk.settle }) :=
    onDisk_eq after.healthy.flush
  have rest : HoldsBack (allOf ((applySteps (buildDirtyMap s.volume).1
      (s.volume.superblock.sequence + 1) s.volume.superblock).drop 2 ++
        sealSteps (s.volume.superblock.sequence + 1))) := by
    refine allOf_holdsBack fun action listed => ?_
    simp only [applySteps, sealSteps, drop_succ_cons, drop_zero, cons_append, nil_append,
      mem_cons, not_mem_nil, or_false] at listed
    rcases listed with rfl | rfl | rfl | rfl | rfl | rfl | rfl | rfl
    · exact writeSectors_holdsBack _ _
    · exact writeSuperblocks_holdsBack _ _
    · exact flushDisk_holdsBack
    · exact transfer_holdsBack _ _
    · exact flushDisk_holdsBack
    · exact writeSuperblocks_holdsBack _ _
    · exact fun epoch s closed => writeSectors_holdsBack _ _ epoch s closed
    · exact flushDisk_holdsBack
  have kept := rest staged.disk.epoch { staged with disk := staged.disk.settle } mem_cons_self
  have same : t = (allOf ((applySteps (buildDirtyMap s.volume).1
      (s.volume.superblock.sequence + 1) s.volume.superblock).drop 2 ++
        sealSteps (s.volume.superblock.sequence + 1))
      { staged with disk := staged.disk.settle }).2 := by
    refine (congrArg Prod.snd ran).symm.trans ?_
    simp only [applySteps, cons_append, allOf, stages, flushes, drop_succ_cons, drop_zero]
  exact ⟨_, same ▸ kept, wrote.medium⟩

/-- The only commit of the run has finished, and the cut undoes it: all of its epochs
were held back. -/
theorem commitRun_loses_finished : ∃ (mounted state : State) (image : Nat → Sector),
    loadMetadata ⟨Volume.blank, Disk.boot freshImage 8192 true []⟩ = (.writable, mounted) ∧
    (commitRun mounted [(mkfsMetadata freshRoot).touch 0 1]).1 = 1 ∧
    (commitRun mounted [(mkfsMetadata freshRoot).touch 0 1]).2.disk.Leaves image ∧
    loadMetadata ⟨Volume.blank, Disk.boot image 8192 true []⟩ = (.writable, state) ∧
    state.volume.metadata ≠ (mkfsMetadata freshRoot).touch 0 1 := by
  obtain ⟨quiet, valid⟩ := freshImage_quiet []
  obtain ⟨mounted, load, working, content⟩ := freshImage_mounts Volume.blank
  have settled := settled_of_load (.quiet quiet) load
  obtain ⟨t, committed, epoch, closed, medium⟩ := commitMetadata_holds_back
    (s := { mounted with volume := { mounted.volume.snapshotMetadata with
      metadata := (mkfsMetadata freshRoot).touch 0 1 } }) { working with }
  have run : commitRun mounted [(mkfsMetadata freshRoot).touch 0 1] = (1, t) := by
    rw [commitRun, commitChange, committed]
    rfl
  have room : freshTotal.toNat ≤ 8192 := by decide
  have bootable := (Interrupted.boot (.quiet settled.quiet)
    ⟨fun _ => false, by rw [select_none]⟩ room).elim id id
  obtain ⟨state, loaded, same⟩ := (RecoveryCuts.none mounted.disk.medium).mounts room
    settled.large Volume.blank bootable settled.valid
  refine ⟨mounted, state, mounted.disk.medium, load, by rw [run], ?_, loaded, ?_⟩
  · rw [run]
    refine .inr ⟨epoch, closed, fun _ => false, ?_⟩
    rw [select_none]
    exact medium.symm
  · rw [same, content]
    intro equal
    have stamps := congrArg (fun md : Metadata => (md.inodes 0).mtime) equal
    rw [Metadata.touch_inode, if_pos rfl] at stamps
    revert stamps
    decide

end SavanXP.SxFS
