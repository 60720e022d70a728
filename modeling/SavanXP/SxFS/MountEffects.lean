import SavanXP.SxFS.CommitEffects
import SavanXP.SxFS.RecoverySafety
import SavanXP.SxFS.Placement
import SavanXP.SxFS.Operations

/-!
# What mounting leaves in memory and at home

Mounting any medium, sound or not, that ends writable leaves home as the
metadata in memory has it, with every extent in the data region.
-/

namespace SavanXP.SxFS

open SavanXP.Library
open SavanXP.Library.Fallible (Along)

/-! ## Recovery -/

/-- The volume differs from `old` at most in superblock and metadata. -/
def Volume.Refilled (old volume : Volume) : Prop :=
  volume = { old with superblock := volume.superblock, metadata := volume.metadata }

theorem Volume.Restamped.refilled {old volume : Volume} (same : old.Restamped volume) :
    old.Refilled volume := by
  rw [Volume.Refilled, same.metadata]
  exact same.frame

theorem Volume.Refilled.trans {first second third : Volume} (one : first.Refilled second)
    (two : second.Refilled third) : first.Refilled third := by
  have chained : third = _ := two
  rw [one] at chained
  exact chained

/-- What a recovery that ended writable leaves. -/
structure Writable (old s : State) : Prop where
  frame : old.volume.Refilled s.volume
  layout : s.volume.superblock.layoutValid = true
  home : HomeHolds (metadataSector s.volume.metadata) s.disk

theorem HomeHolds.copies {content : Nat → Sector} {disk t : Disk Sector} {sb : Superblock}
    (home : HomeHolds content disk) (touches : disk.Touches (copyWrite sb) t) :
    HomeHolds content t :=
  home.touches touches fun i _ _ written => written.1.ne_homeLba i rfl

theorem recoverHome_writable {s t : State} (layout : s.volume.superblock.layoutValid = true)
    (home : HomeHolds (metadataSector s.volume.metadata) s.disk)
    (done : recoverHome s = (.writable, t)) : Writable s t := by
  obtain ⟨volume, touches⟩ := writeSuperblocks_touches s.volume.superblock.sequence flagClean
    .durable s
  unfold recoverHome at done
  split at done
  · cases done
  split at done
  · cases done
    exact ⟨rfl, layout, home⟩
  split at done
  · next last wrote =>
    cases done
    rw [wrote] at volume touches
    have same : s.volume.Restamped t.volume := volume ▸ Volume.restamped_stamped _ _ _
    exact ⟨same.refilled, same.layout.trans layout, same.metadata ▸ home.copies touches⟩
  · cases done

/-- Home sectors below `bound` have been rewritten. -/
structure HomeRewritten (md : Metadata) (bound : Nat) (disk : Disk Sector) : Prop where
  done : ∀ i, i < bound → disk.view (homeLba i) = metadataSector md i
  durable : 0 < bound → disk.cached = []

variable {md : Metadata}

theorem HomeRewritten.holds {disk : Disk Sector}
    (rewritten : HomeRewritten md journalMetadataSectors disk) :
    HomeHolds (metadataSector md) disk := by
  intro i ins v held
  rw [only_of_durable (rewritten.durable (by decide)) held]
  exact rewritten.done i ins

section Replay

variable {old : Volume}

theorem homeRewritten_step {i last : Nat} : Triple (At old anyPast (HomeRewritten old.metadata i))
      (writeSectors (homeLba i) (metadataRun old.metadata i last) .durable)
      (At old anyPast (HomeRewritten old.metadata last)) (At old anyPast fun _ => True) := by
  refine write_step (fun _ _ => trivial) (fun _ _ _ _ => trivial)
    (fun disk t held touches view durable => ⟨fun pos below => ?_, fun _ => durable rfl⟩)
  rw [view, view_metadataRun below]
  split
  · exact held.done pos ‹_›
  · rfl

theorem writeHomeMetadata_home (layout : old.superblock.layoutValid = true) :
    Triple (At old anyPast fun _ => True) writeHomeMetadata
      (At old anyPast (HomeHolds (metadataSector old.metadata)))
        (At old anyPast fun _ => True) := by
  intro s held
  have ran := home_step layout (fun _ => homeRewritten_step) s
    ⟨held.1, ⟨fun _ bad => (by omega), fun bad => (by omega)⟩, held.2.2⟩
  exact ⟨fun worked => ⟨(ran.1 worked).1, (ran.1 worked).2.1.holds, (ran.1 worked).2.2⟩, ran.2⟩

/-- Superblocks and header of a replay lie outside home. -/
theorem replay_home (layout : old.superblock.layoutValid = true) (seq : UInt32) :
    Triple (At old anyPast fun _ => True)
      (allOf [writeHomeMetadata, writeSuperblocks seq flagClean .durable, clearJournal .durable])
      (At old anyPast (HomeHolds (metadataSector old.metadata)))
        (At old anyPast fun _ => True) := by
  have stamp : Triple (At old anyPast (HomeHolds (metadataSector old.metadata)))
      (writeSuperblocks seq flagClean .durable)
      (At old anyPast (HomeHolds (metadataSector old.metadata))) (At old anyPast fun _ => True) :=
    superblocks_step (fun _ _ => trivial) layout (fun _ _ _ _ _ _ => trivial)
      (fun _ _ _ home touches good _ =>
        home.touches touches fun i _ v new => (good _ v new).1.ne_homeLba i rfl)
  have clear : Triple (At old anyPast (HomeHolds (metadataSector old.metadata)))
      (clearJournal .durable) (At old anyPast (HomeHolds (metadataSector old.metadata)))
      (At old anyPast fun _ => True) := by
    refine clear_step layout (write_step (fun _ _ => trivial) (fun _ _ _ _ => trivial)
      (fun _ _ home touches _ _ => home.touches touches fun i _ v new => ?_))
    exact homeLba_ne_journalLba i (mem_cells_single.mp new).1
  exact (writeHomeMetadata_home layout).cons <| stamp.cons <| clear.cons <|
    Triple.nil fun _ done => done

end Replay

theorem replayJournal_writable {hdr : JournalHeader} {s t : State}
    (layout : s.volume.superblock.layoutValid = true)
    (done : replayJournal hdr s = (.writable, t)) : Writable s t := by
  have reading := transfer_read hdr.replayMap (s.volume.superblock.journalLba.toNat + 1)
    s s rfl
  unfold replayJournal at done
  split at done
  · cases done
  · next middle ran =>
    rw [ran] at reading
    obtain ⟨_, _, frame, _⟩ := reading.1 rfl
    have superblock : middle.volume.superblock = s.volume.superblock := by rw [frame]
    have refilled : s.volume.Refilled middle.volume := by
      rw [Volume.Refilled, superblock]
      exact frame
    have layoutMiddle : middle.volume.superblock.layoutValid = true := superblock ▸ layout
    have steps := replay_home layoutMiddle hdr.sequence middle
      ⟨Volume.Restamped.refl _, trivial, fun _ _ => trivial⟩
    split at done
    · cases done
    split at done
    · next last wrote =>
      cases done
      rw [wrote] at steps
      obtain ⟨same, home, _⟩ := steps.1 rfl
      exact ⟨refilled.trans same.refilled, same.layout.trans layoutMiddle, same.metadata ▸ home⟩
    · cases done

variable {s t : State}

theorem recoverJournal_writable (layout : s.volume.superblock.layoutValid = true)
    (home : HomeHolds (metadataSector s.volume.metadata) s.disk)
    (done : recoverJournal s = (.writable, t)) : Writable s t := by
  have keeps := s.disk.read_keeps s.volume.superblock.journalLba.toNat 1
  unfold recoverJournal at done
  split at done
  · cases done
  · next buf disk found =>
    rw [found] at keeps
    dsimp only at done
    have recovered : Writable { s with disk := disk } t := by
      split at done
      · exact @recoverHome_writable { s with disk := disk } t layout (home.keeps keeps) done
      · exact @replayJournal_writable _ { s with disk := disk } t layout done
    exact { recovered with }

/-! ## Loading -/

variable {med : Nat → Sector}

/-- Mounting a medium that ends writable has home in memory. -/
theorem loadMetadata_writable (settled : ∀ a v, s.disk.possible a v → v = med a)
    (done : loadMetadata s = (.writable, t)) :
    t.volume.superblock.layoutValid = true ∧
      HomeHolds (metadataSector t.volume.metadata) t.disk := by
  rcases loadMetadata_cases s with
    ⟨failed, _⟩ | ⟨_, v, middle, _, _, valid, keeps, frame, content, same⟩
  · rw [done] at failed
    cases failed
  rw [same] at done
  have layout : middle.volume.superblock.layoutValid = true := by
    rw [frame]
    exact Superblock.layoutValid_of_valid valid
  have home : HomeHolds (metadataSector middle.volume.metadata) middle.disk := by
    have only (a : Nat) : ∀ v, middle.disk.possible a v → v = med a :=
      keeps.only (settled a) fun _ bad => bad.elim
    intro i ins v held
    rw [content i ins, only _ v held]
    exact (only _ _ (middle.disk.view_possible _)).symm
  have recovered := recoverJournal_writable layout home done
  exact ⟨recovered.layout, recovered.home⟩

/-! ## The record cache -/

/-- The record cache changed and data on the device at most. -/
structure Aside (s t : State) : Prop where
  volume : t.volume = s.volume.setRecords t.volume.records
  touches : s.disk.Touches inData t.disk

instance : IsPreorder State Aside where
  refl _ := ⟨rfl, Disk.Touches.refl _ _⟩
  trans s middle t one two := by
    refine ⟨?_, one.touches.trans two.touches⟩
    rw [two.volume, one.volume]
    rfl

theorem Wrote.aside (wrote : Wrote s t) : Aside s t := by
  refine ⟨?_, wrote.touches⟩
  rw [wrote.volume]
  rfl

theorem Observed.aside (seen : Observed s t) : Aside s t := seen.wrote.aside

theorem setRecords_aside (records : State → Records) : Along Aside (Fallible.update fun s =>
    { s with volume := s.volume.setRecords (records s) }) :=
  Along.update fun _ => ⟨rfl, Disk.Touches.refl _ _⟩

/-- Building the record cache only reads the device. -/
theorem buildRecordRecursive_aside (levels : Nat) (inodeId : UInt32) (path : Path)
    (visited : Fin 4096 → Bool) :
    Along Aside (buildRecordRecursive levels inodeId path visited) := by
  induction levels generalizing inodeId path visited with
  | zero => exact .fail
  | succ levels ih =>
    refine (Along.ofOption _).bind fun id => (Along.idle fun _ => rfl).bind fun dir =>
      (Along.require _).bind fun _ => Along.foldlM (fun flags off => ?_) _ _
    refine ((readDirEntry_reads dir off).mono fun _ _ => Observed.aside).bind fun e => ?_
    split
    · exact .pure _
    refine Along.get.bind fun _ => (Along.ofOption _).bind fun _ => (Along.require _).bind fun _ =>
      (Along.ofOption _).bind fun _ => Along.bind ?_ fun _ => ?_
    · exact Along.get.bind fun _ => (Along.ofOption _).bind fun _ => setRecords_aside _
    · split
      · exact ih _ _ _
      · exact .pure _

theorem rebuildRecordCache_aside : Along Aside rebuildRecordCache :=
  (setRecords_aside _).bind fun _ => (buildRecordRecursive_aside _ _ _ _).bind fun _ => .pure ()

/-! ## Ownership -/

/-- The loop of `applyDefaultOwnership` keeps what giving one default keeps. -/
theorem applyDefaultOwnership_keeps {holds : Nat × Metadata → Prop} (records : Records)
    (start : holds (0, md))
    (step : ∀ path id changed, holds changed → holds (defaultInodeOwnership path id changed)) :
    holds (applyDefaultOwnership records md) := by
  unfold applyDefaultOwnership
  generalize List.finRange 4095 = slots
  generalize first : defaultInodeOwnership [] 0 (0, md) = changed
  have held : holds changed := first ▸ step [] 0 _ start
  clear first
  induction slots generalizing changed with
  | nil => exact held
  | cons k rest ih =>
    refine ih _ ?_
    dsimp only
    split
    · exact held
    · split
      · exact held
      · exact step _ _ _ held

theorem applyDefaultOwnership_unchanged {records : Records}
    (none : (applyDefaultOwnership records md).1 = 0) :
    (applyDefaultOwnership records md).2 = md := by
  refine @applyDefaultOwnership_keeps _ (fun changed => changed.1 = 0 → changed.2 = md)
    records (fun _ => rfl) (fun path id changed held => ?_) none
  unfold defaultInodeOwnership
  dsimp only
  split
  · exact fun bad => absurd bad (Nat.succ_ne_zero _)
  · exact held

theorem applyDefaultOwnership_placed (records : Records) (placed : md.Placed) :
    (applyDefaultOwnership records md).2.Placed := by
  refine @applyDefaultOwnership_keeps _ (fun changed => changed.2.Placed) records placed
    fun path id changed held => ?_
  unfold defaultInodeOwnership
  dsimp only
  split
  · exact held.setInode id ((held id).like rfl rfl)
  · exact held

/-! ## Mounted volumes -/

/-- The layout is the format's and the extents lie in the data region. -/
structure Sane (s : State) : Prop where
  layout : s.volume.superblock.layoutValid = true
  placed : s.volume.metadata.Placed

/-- A writable volume between two operations. -/
structure Steady (s : State) : Prop where
  sane : Sane s
  home : s.volume.fullCommitPending = false →
    HomeHolds (metadataSector s.volume.metadata) s.disk

/-- Steps outside home that leave layout and metadata alone. -/
theorem Steady.carried {fresh : Nat → Sector → Prop} (steady : Steady s)
    (layout : t.volume.superblock.layoutValid = s.volume.superblock.layoutValid)
    (metadata : t.volume.metadata = s.volume.metadata)
    (pending : t.volume.fullCommitPending = s.volume.fullCommitPending)
    (touches : s.disk.Touches fresh t.disk)
    (outside : ∀ i < journalMetadataSectors, ∀ v, ¬ fresh (homeLba i) v) : Steady t := by
  refine ⟨⟨layout.trans steady.sane.layout, metadata ▸ steady.sane.placed⟩, fun settled => ?_⟩
  rw [metadata]
  exact (steady.home (pending.symm.trans settled)).touches touches outside

theorem homeLba_not_inData {i : Nat} (ins : i < journalMetadataSectors) (v : Sector) :
    ¬ inData (homeLba i) v :=
  Nat.not_le.mpr (homeLba_lt ins)

theorem Steady.aside (steady : Steady s) (aside : Aside s t) : Steady t := by
  have volume := aside.volume
  refine steady.carried ?_ ?_ ?_ aside.touches fun _ ins => homeLba_not_inData ins
  all_goals
    rw [volume]
    rfl

theorem loadTree_steady (settled : ∀ a v, s.disk.possible a v → v = med a)
    (done : loadTree s = (some (), t)) (mounted : t.volume.status = .mounted) : Steady t := by
  unfold loadTree at done
  split at done
  · cases done
  · next recovery loaded notFailed ran =>
    split at done
    · cases done
    · next passed =>
      have valid : homeMetadataIsValid loaded.volume.superblock loaded.volume.metadata = true := by
        simpa using passed
      split at done
      · cases done
      · next last built =>
        cases done
        cases recovery with
        | failed => exact absurd rfl notFailed
        | readOnly => cases mounted
        | writable =>
          obtain ⟨layout, home⟩ := loadMetadata_writable settled ran
          have steady : Steady loaded :=
            ⟨⟨layout, Metadata.placed_of_valid layout valid⟩, fun _ => home⟩
          have aside := rebuildRecordCache_aside loaded
          rw [built] at aside
          have kept := steady.aside aside
          have home : HomeHolds (metadataSector last.volume.metadata) last.disk := by
            rw [show last.volume.metadata = loaded.volume.metadata by rw [aside.volume]; rfl]
            exact home.touches aside.touches fun _ ins => homeLba_not_inData ins
          exact ⟨⟨kept.sane.layout, kept.sane.placed⟩, fun _ => home⟩

/-- Rewriting the superblocks keeps a volume steady. -/
theorem Steady.superblocks (steady : Steady s) (seq flags : UInt32) (dur : Durability) :
    Steady (writeSuperblocks seq flags dur s).2 ∧
      (writeSuperblocks seq flags dur s).2.volume.status = s.volume.status ∧
      (writeSuperblocks seq flags dur s).2.volume.metadata = s.volume.metadata := by
  obtain ⟨volume, touches⟩ := writeSuperblocks_touches seq flags dur s
  have same : s.volume.Restamped (writeSuperblocks seq flags dur s).2.volume :=
    volume ▸ Volume.restamped_stamped _ _ _
  refine ⟨steady.carried same.layout same.metadata ?_ touches
    (fun i _ _ written => written.1.ne_homeLba i rfl), ?_, same.metadata⟩
  all_goals rw [same.frame]

variable {tree : State}

theorem beginStamp_mounted (mounted : tree.volume.status = .mounted) :
    beginStamp tree = stampChanged tree
      (applyDefaultOwnership tree.volume.records tree.volume.metadata).1
      (applyDefaultOwnership tree.volume.records tree.volume.metadata).2 := by
  rw [beginStamp, if_neg (not_not_intro mounted)]

/-- What `stampOwnership` commits was snapshot from a steady volume. -/
structure Stamping (tree : State) (md : Metadata) (point : State) : Prop where
  known : KnownHome point.volume point.disk
  layout : point.volume.superblock.layoutValid = true
  records : point.volume.records = tree.volume.records
  status : point.volume.status = tree.volume.status
  snapshot : point.volume.snapshot = tree.volume.metadata
  superblock : point.volume.snapshotSuperblock = tree.volume.superblock
  metadata : point.volume.metadata = md
  disk : point.disk = tree.disk

theorem stampChanged_commits {point : State} {changed : Nat} (steady : Steady tree)
    (begun : stampChanged tree changed md = .inr point) : Stamping tree md point := by
  unfold stampChanged at begun
  dsimp only at begun
  split at begun
  · cases begun
  split at begun <;> cases begun
  exact ⟨fun _ settled => steady.home settled, steady.sane.layout, rfl, rfl, rfl, rfl, rfl, rfl⟩

/-- Without a commit the stamp changes at most the superblock. -/
theorem stampChanged_steady {done : State} {changed : Nat} (steady : Steady tree)
    (unchanged : changed = 0 → md = tree.volume.metadata)
    (begun : stampChanged tree changed md = .inl done) :
    Steady done ∧ done.volume.status = tree.volume.status ∧ done.volume.metadata = md := by
  unfold stampChanged at begun
  dsimp only at begun
  split at begun
  · next nothing =>
    cases begun
    obtain rfl := unchanged nothing.2
    exact ⟨⟨⟨steady.sane.layout, steady.sane.placed⟩, steady.home⟩, rfl, rfl⟩
  · split at begun
    · next nothing =>
      obtain rfl := unchanged nothing
      obtain rfl := Sum.inl.inj begun
      refine Steady.superblocks ?_ _ _ _
      exact ⟨⟨steady.sane.layout, steady.sane.placed⟩, steady.home⟩
    · cases begun

/-- After the stamp the volume is steady and everything has an owner. -/
theorem stampOwnership_steady (steady : Steady tree) (mounted : tree.volume.status = .mounted) :
    Steady (stampOwnership tree) ∧ (stampOwnership tree).volume.status = .mounted ∧
      (stampOwnership tree).volume.metadata =
        (applyDefaultOwnership tree.volume.records tree.volume.metadata).2 := by
  unfold stampOwnership
  split
  · next done begun =>
    rw [beginStamp_mounted mounted] at begun
    obtain ⟨kept, status, content⟩ :=
      stampChanged_steady steady applyDefaultOwnership_unchanged begun
    exact ⟨kept, status.trans mounted, content⟩
  · next point begun =>
    rw [beginStamp_mounted mounted] at begun
    obtain ⟨known, layout, records, status, snapshot, superblock, content, disk⟩ :=
      stampChanged_commits steady begun
    have owned := applyDefaultOwnership_placed tree.volume.records steady.sane.placed
    have effect := commitMetadata_effect layout known
    split
    · next t ran =>
      rw [ran] at effect
      refine ⟨⟨⟨effect.volume.layout.trans layout, ?_⟩, fun _ => (effect.worked rfl).1⟩, ?_,
        effect.volume.metadata.trans content⟩
      · rw [effect.volume.metadata, content]
        exact owned
      · rw [effect.volume.status, status, mounted]
    · next t ran =>
      rw [ran] at effect
      have again : t.volume.restoreMetadata.ownInMemory.metadata = t.volume.metadata := by
        change (applyDefaultOwnership t.volume.records t.volume.snapshot).2 = _
        rw [effect.volume.records, records, effect.volume.snapshot, snapshot,
          effect.volume.metadata, content]
      have back : t.volume.snapshotSuperblock = tree.volume.superblock :=
        effect.volume.snapshotSuperblock.trans superblock
      refine ⟨⟨⟨?_, ?_⟩, fun settled => ?_⟩, ?_, again.trans (effect.volume.metadata.trans content)⟩
      · exact (congrArg _ back).trans steady.sane.layout
      · rw [again, effect.volume.metadata, content]
        exact owned
      · rw [again]
        rcases effect.failed rfl with pending | kept
        · rw [show t.volume.fullCommitPending = false from settled] at pending
          cases pending
        · exact kept.2.1
      · change t.volume.status = .mounted
        rw [effect.volume.status, status, mounted]

/-- A volume mounted writable is steady. -/
theorem loadFilesystemFromDevice_steady (settled : ∀ a v, s.disk.possible a v → v = med a)
    (done : loadFilesystemFromDevice s = (true, t))
    (mounted : t.volume.status = .mounted) : Steady t := by
  unfold loadFilesystemFromDevice at done
  split at done
  · cases done
  · next _ tree loaded =>
    obtain rfl := congrArg Prod.snd done
    by_cases writable : tree.volume.status = .mounted
    · exact (stampOwnership_steady (loadTree_steady settled loaded writable) writable).1
    have kept : (stampOwnership tree).volume.status = tree.volume.status := by
      unfold stampOwnership beginStamp
      rw [if_pos writable]
      rfl
    exact absurd (kept.symm.trans mounted) writable

end SavanXP.SxFS
