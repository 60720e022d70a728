import SavanXP.SxFS.CommitRuns

/-!
# Runs with failed commits

Every caller of `commitMetadata` rolls memory back when it fails.  The next
commit is a full one.  It reuses the journal slots of the failed one, whose
header may still be armed.
-/

namespace SavanXP.SxFS

open SavanXP.Library List

/-- A change whose failed commit is rolled back in memory. -/
def attemptChange (md : Metadata) : Action State :=
  fun s =>
    match commitChange md s with
    | (true, s) => (true, s)
    | (false, s) => (false, { s with volume := s.volume.restoreMetadata })

/-- Attempt all changes.  The first component lists what a remount may show: the
last change that was committed and those attempted after it. -/
def attemptRun : List Metadata × State → List Metadata → List Metadata × State
  | (candidates, s), [] => (candidates, s)
  | (candidates, s), md :: rest =>
    match attemptChange md s with
    | (true, s) => attemptRun ([md], s) rest
    | (false, s) => attemptRun (md :: candidates, s) rest

/-- No header that recovery would replay is on the medium or in the cache. -/
def Disarmed (disk : Disk Sector) : Prop :=
  ∀ v, disk.possible journalLba v → armed v = false

/-- Every attempt of the run starts with the journal disarmed. -/
def attemptsDisarmed : State → List Metadata → Prop
  | _, [] => True
  | s, md :: rest =>
    Disarmed s.disk ∧ attemptsDisarmed (attemptChange md s).2 rest

variable {s : State} {total : UInt32}

/-- What holds between the attempts of a run. -/
structure Attempted (total : UInt32) (seen candidates : List Metadata) (s : State) : Prop where
  layout : s.volume.superblock.layoutValid = true
  size : s.volume.superblock.totalSectors = total
  valid : ∀ md ∈ candidates, ValidFor total md
  medium : Shows total candidates s.disk
  listed : candidates ⊆ seen
  past : ∀ epoch ∈ s.disk.past, Shows total seen (s.disk.before epoch)
  current : s.volume.fullCommitPending = false →
    s.volume.metadata ∈ candidates ∧
      Quiet total (metadataSector s.volume.metadata) s.disk

theorem Settled.attempted {seen : List Metadata}
    (settled : Settled total s) (listed : s.volume.metadata ∈ seen)
    (past : ∀ epoch ∈ s.disk.past, Shows total seen (s.disk.before epoch)) :
    Attempted total seen [s.volume.metadata] s :=
  ⟨settled.layout, settled.size, fun _ listed => mem_singleton.mp listed ▸ settled.valid,
    ⟨_, mem_singleton_self _, _, mem_singleton_self _, .quiet settled.quiet⟩,
    fun _ here => mem_singleton.mp here ▸ listed, past,
    fun _ => ⟨mem_singleton_self _, settled.quiet⟩⟩

section Attempts

variable {total : UInt32} {seen candidates : List Metadata} {s : State} {md : Metadata}

section

variable (attempted : Attempted total seen candidates s)
include attempted

/-- With the journal disarmed one candidate is at home, and memory knows which
unless a full commit is due. -/
theorem Attempted.home (disarmed : Disarmed s.disk) :
    ∃ old ∈ candidates, Quiet total (metadataSector old) s.disk ∧
      (s.volume.fullCommitPending = false → old = s.volume.metadata) := by
  cases pending : s.volume.fullCommitPending with
  | false =>
    obtain ⟨listed, quiet⟩ := attempted.current pending
    exact ⟨_, listed, quiet, fun _ => rfl⟩
  | true =>
    obtain ⟨old, oldListed, new, newListed, interrupted⟩ := attempted.medium
    rcases interrupted.quiet_of_disarmed disarmed with quiet | quiet
    · exact ⟨old, oldListed, quiet, nofun⟩
    · exact ⟨new, newListed, quiet, nofun⟩

theorem attemptChange_spec (disarmed : Disarmed s.disk) (valid : ValidFor total md)
    (inSeen : md ∈ seen) :
    ((attemptChange md s).1 = true → Attempted total seen [md] (attemptChange md s).2) ∧
      ((attemptChange md s).1 = false →
        Attempted total seen (md :: candidates) (attemptChange md s).2) := by
  obtain ⟨old, listed, quiet, known⟩ := attempted.home disarmed
  obtain ⟨same, recorded, worked, failed⟩ := commitMetadata_spec
    { s with volume := { s.volume.snapshotMetadata with metadata := md } }
    attempted.layout attempted.size quiet
    (fun _ settled _ _ => congrArg (metadataSector · _) (known settled))
    (fun _ interrupted => ⟨old, attempted.listed listed, md, inSeen, interrupted⟩)
    attempted.past
  have both : ∀ o ∈ md :: candidates, ValidFor total o := by
    intro o here
    rcases mem_cons.mp here with rfl | pre
    · exact valid
    · exact attempted.valid o pre
  unfold attemptChange
  split
  · next t done =>
    rw [commitChange] at done
    rw [done] at same recorded worked
    obtain ⟨settled, _⟩ := worked rfl
    refine ⟨fun _ => ⟨same.layout.trans attempted.layout, same.total.trans attempted.size, ?_,
      ⟨md, mem_singleton_self _, md, mem_singleton_self _, .quiet settled⟩,
      fun _ here => mem_singleton.mp here ▸ inSeen, recorded, fun _ => ?_⟩,
      (fun stopped => by cases stopped)⟩
    · intro o here
      rw [mem_singleton.mp here]
      exact valid
    · rw [show t.volume.metadata = md from same.metadata]
      exact ⟨mem_singleton_self _, settled⟩
  · next t stopped =>
    rw [commitChange] at stopped
    rw [stopped] at same recorded failed
    obtain ⟨interrupted, s'⟩ := failed rfl
    have superblock : t.volume.restoreMetadata.superblock = s.volume.superblock :=
      same.snapshotSuperblock
    have restored : t.volume.restoreMetadata.metadata = s.volume.metadata := same.snapshot
    refine ⟨(fun done => by cases done), fun _ => ⟨superblock ▸ attempted.layout,
      superblock ▸ attempted.size, both, ⟨old, mem_cons_of_mem _ listed, md,
        mem_cons_self, interrupted⟩, cons_subset.mpr ⟨inSeen, attempted.listed⟩, recorded,
      fun settled => ?_⟩⟩
    rcases s' with due | ⟨pre, _, kept⟩
    · have off : t.volume.fullCommitPending = false := settled
      cases due.symm.trans off
    · rw [restored, ← known pre]
      exact ⟨mem_cons_of_mem _ listed, kept⟩

theorem attemptRun_spec {attempts : List Metadata}
    (valid : ∀ md ∈ attempts, ValidFor total md ∧ md ∈ seen)
    (disarmed : attemptsDisarmed s attempts) :
    Attempted total seen (attemptRun (candidates, s) attempts).1
      (attemptRun (candidates, s) attempts).2 := by
  induction attempts generalizing candidates s with
  | nil => exact attempted
  | cons md rest ih =>
    obtain ⟨here, others⟩ := forall_mem_cons.mp valid
    obtain ⟨worked, failed⟩ := attemptChange_spec attempted disarmed.1 here.1 here.2
    have t := disarmed.2
    unfold attemptRun
    split
    · next last done =>
      rw [done] at worked t
      exact ih (worked rfl) others t
    · next last stopped =>
      rw [stopped] at failed t
      exact ih (failed rfl) others t

end

end Attempts

/-- After failed commits a remount shows the metadata that was mounted or that of one
attempt, as long as no attempt starts over an armed header.  If the device held no
closed epoch back, it shows the last committed metadata or that of one attempt after
it. -/
theorem attemptRun_crash_atomic {total : UInt32} {size : Nat} {medium image last : Nat → Sector}
    {mounted : State} (volume remounted : Volume) (plan : List Fate) (attempts : List Metadata)
    (copies : Copies total (Disk.boot medium size true []))
    (load : loadMetadata ⟨volume, Disk.boot medium size true []⟩ = (.writable, mounted))
    (valid : ∀ md ∈ attempts, homeMetadataIsValid mounted.volume.superblock md = true)
    (disarmed : attemptsDisarmed (mounted.withPlan plan) attempts)
    (cut : (attemptRun ([mounted.volume.metadata], mounted.withPlan plan) attempts).2.disk.Leaves
      image)
    (recoveries : RecoveryCuts size image last) :
    ∃ md ∈ mounted.volume.metadata :: attempts,
      ((attemptRun ([mounted.volume.metadata], mounted.withPlan plan) attempts).2.disk.Image image →
        md ∈ (attemptRun ([mounted.volume.metadata], mounted.withPlan plan) attempts).1) ∧
      ∃ state, loadMetadata ⟨remounted, Disk.boot last size true []⟩ = (.writable, state) ∧
        state.volume.metadata = md := by
  have settled := settled_of_load (bootable_boot copies fun _ _ => rfl) load
  have good : ∀ md ∈ mounted.volume.metadata :: attempts, ValidFor total md :=
    forall_mem_cons.mpr ⟨settled.valid, fun md inRun =>
      settled.size ▸ validFor_of_valid settled.layout (valid md inRun)⟩
  have held := past_of_load copies load
  have attempted := attemptRun_spec ((settled.withPlan plan).attempted mem_cons_self
    fun epoch closed => (held epoch closed).mono (by simp [State.withPlan])) (fun md inRun =>
      ⟨good md (mem_cons_of_mem _ inRun), mem_cons_of_mem _ inRun⟩) disarmed
  change Attempted total _ (attemptRun ([mounted.volume.metadata], _) attempts).1
    (attemptRun ([mounted.volume.metadata], _) attempts).2 at attempted
  generalize attemptRun ([mounted.volume.metadata], mounted.withPlan plan) attempts = run at *
  by_cases now : run.2.disk.Image image
  · obtain ⟨md, listed, bootable⟩ := attempted.medium.boot now copies.room
    exact ⟨md, attempted.listed listed, fun _ => listed, recoveries.mounts copies.room
      settled.large remounted bootable (attempted.valid md listed)⟩
  · obtain ⟨epoch, closed, left⟩ := cut.resolve_left now
    obtain ⟨md, listed, bootable⟩ := (attempted.past epoch closed).boot left copies.room
    exact ⟨md, listed, fun image => absurd image now, recoveries.mounts copies.room
      settled.large remounted bootable (good md listed)⟩

theorem attemptRun_crash_atomic_fresh :
    ∃ mounted state : State,
      loadMetadata ⟨Volume.blank, Disk.boot freshImage 8192 true []⟩ = (.writable, mounted) ∧
      loadMetadata ⟨Volume.blank, Disk.boot (attemptRun ([mounted.volume.metadata],
        mounted.withPlan [.ok, .fail (fun _ => true) (fun _ => false)])
        [(mkfsMetadata freshRoot).touch 0 1]).2.disk.medium 8192 true []⟩ = (.writable, state) ∧
      state.volume.metadata ∈ (attemptRun ([mounted.volume.metadata],
        mounted.withPlan [.ok, .fail (fun _ => true) (fun _ => false)])
        [(mkfsMetadata freshRoot).touch 0 1]).1 := by
  obtain ⟨quiet, valid⟩ := freshImage_quiet []
  obtain ⟨mounted, load, working, content⟩ := freshImage_mounts Volume.blank
  have settled := settled_of_load (.quiet quiet) load
  obtain ⟨md, _, listed, state, loaded, same⟩ := attemptRun_crash_atomic Volume.blank Volume.blank
    [.ok, .fail (fun _ => true) (fun _ => false)] [(mkfsMetadata freshRoot).touch 0 1]
    quiet.copies load
    (fun md inRun => by
      rw [mem_singleton.mp inRun]
      exact (Metadata.touch_valid valid 0 1) _ settled.layout settled.size)
    ⟨(settled.withPlan _).quiet.header, trivial⟩
    (.inl ⟨fun _ => false, by rw [select_none]⟩) (.none _)
  exact ⟨mounted, state, load, loaded,
    same ▸ listed ⟨fun _ => false, by rw [select_none]⟩⟩

/-! ## A failed commit that leaves its header armed -/

/-- A command that fails without any effect. -/
def refused : Fate := .fail (fun _ => false) (fun _ => false)

theorem commitMetadata_failed (s : State) {t : State} (dirty : (buildDirtyMap s.volume).2 ≠ 0)
    (ran : allOf (commitSteps (buildDirtyMap s.volume).1 (s.volume.superblock.sequence + 1)
      s.volume.superblock) s = (false, t)) :
    commitMetadata s =
      (false, { t with volume := { t.volume with fullCommitPending := true } }) := by
  unfold commitMetadata
  generalize buildDirtyMap s.volume = built at dirty ran
  dsimp only at dirty ran ⊢
  rw [if_neg dirty, ran]

theorem sealSteps_refused (working : Working s) (seq : UInt32) (rest : List Fate) :
    allOf (sealSteps seq) (s.withPlan (refused :: rest)) =
      (false, State.withPlan { s with volume := { s.volume with
            superblock := s.volume.superblock.stamped seq flagClean } } rest) := by
  have range : s.disk.inRange primarySbLba 1 = true := working.inRange (by decide) (by decide)
  have first (v : Sector) (volume : Volume) :
      writeSectors primarySbLba [v] .cached ⟨volume, s.disk.withPlan (refused :: rest)⟩ =
        (false, ⟨volume, s.disk.withPlan rest⟩) := by
    unfold writeSectors onDisk
    dsimp only
    rw [refused, working.healthy.writeCached_refused range]
  unfold sealSteps writeSuperblocks
  simp only [allOf]
  rw [show (s.withPlan (refused :: rest)).disk = s.disk.withPlan (refused :: rest) from rfl, first]
  rfl

/-- The volume a change is committed from. -/
def State.changed (s : State) (md : Metadata) : State :=
  { s with volume := { s.volume.snapshotMetadata with metadata := md } }

theorem Working.changed (working : Working s) (md : Metadata) :
    Working (s.changed md) :=
  { working with }

theorem commitChange_failed {md : Metadata} {plan : List Fate} {t : State}
    (dirty : (buildDirtyMap (s.changed md).volume).2 ≠ 0)
    (ran : allOf (commitSteps (buildDirtyMap (s.changed md).volume).1
      (s.volume.superblock.sequence + 1) s.volume.superblock)
      ((s.changed md).withPlan plan) = (false, t)) :
    commitChange md (s.withPlan plan) =
      (false, { t with volume := { t.volume with fullCommitPending := true } }) :=
  commitMetadata_failed ((s.changed md).withPlan plan) dirty ran

/-- The device refuses the first command after the third ordering point. -/
theorem commitChange_refused (settled : Settled total s)
    (working : Working s) {md : Metadata} (dirty : (buildDirtyMap (s.changed md).volume).2 ≠ 0) :
    ∃ n t, (∀ rest, commitChange md (s.withPlan (replicate n .ok ++ refused :: rest)) =
          (false, State.withPlan t rest)) ∧ Working t ∧ t.volume.fullCommitPending = true ∧
      t.volume.snapshotSuperblock = s.volume.superblock ∧
      (commitEntry (s.changed md).volume).Armed total (metadataSector md) t.disk := by
  have changed := working.changed md
  have applies := applySteps_sure (buildDirtyMap (s.changed md).volume).1
    ((s.changed md).volume.superblock.sequence + 1) changed.layout
  obtain ⟨n, ran⟩ := applies.scripted _ changed
  obtain ⟨applied, done, after⟩ := applies.works.run changed
  have landed := applySteps_triple (fun disk _ => (trivial : anyPast disk))
    (@unmapped_of_buildDirtyMap (s.changed md).volume
    (metadataSector s.volume.metadata) fun _ _ _ _ => rfl) changed.layout settled.size
    (s.changed md) ⟨Volume.Restamped.refl _, settled.quiet, fun _ _ => trivial⟩
  rw [done] at ran landed
  obtain ⟨same, armed, _⟩ := landed.1 rfl
  refine ⟨n, { applied with volume := { applied.volume with
    superblock := applied.volume.superblock.stamped (s.volume.superblock.sequence + 1) flagClean
    fullCommitPending := true } }, fun rest => ?_,
    ⟨after.healthy, ?_, ?_⟩, rfl, ?_, armed⟩
  · have steps : allOf (commitSteps (buildDirtyMap (s.changed md).volume).1
        ((s.changed md).volume.superblock.sequence + 1) (s.changed md).volume.superblock)
        ((s.changed md).withPlan (replicate n .ok ++ refused :: rest)) =
        (false, State.withPlan { applied with volume := { applied.volume with
          superblock := applied.volume.superblock.stamped (s.volume.superblock.sequence + 1)
            flagClean } } rest) := by
      rw [commitSteps, allOf_append, ran (refused :: rest)]
      exact sealSteps_refused after _ rest
    exact commitChange_failed dirty steps
  · exact (Superblock.layoutValid_stamped _ _ _).trans after.layout
  · change (Superblock.stamped _ _ _).totalSectors.toNat ≤ _
    exact after.room
  · rw [same.frame]
    rfl

/-- The power goes at the first ordering point. -/
theorem commitChange_cut (working : Working s)
    (pending : s.volume.fullCommitPending = true) (md : Metadata) : ∃ n logged writes, (∀ mask, ∃ t,
        commitChange md (s.withPlan (replicate n .ok ++ [.cut mask])) =
          (false, t) ∧ t.disk = (Disk.withPlan logged []).lose mask) ∧ s.disk.Wrote writes logged ∧
      s.disk.Touches (mappedWrite (buildDirtyMap (s.changed md).volume).1 md
        (journalLba + 1) journalMetadataSectors) logged ∧ ∀ a v, (a, v) ∈ writes ↔
        mappedWrite (buildDirtyMap (s.changed md).volume).1 md (journalLba + 1)
          journalMetadataSectors a v := by
  have changed := working.changed md
  have place := s.volume.superblock.layout working.layout
  have full : (buildDirtyMap (s.changed md).volume).2 ≠ 0 := by
    intro nothing
    have clean := ((buildDirtyMap_spec (s.changed md).volume).2.mp nothing) 0 (by decide)
    have due : (s.changed md).volume.fullCommitPending = true := pending
    simp [Volume.sectorDirty, due] at clean
  have ins : journalLba + 1 + journalMetadataSectors ≤ dataLba := by decide
  have transfers := transfer_sure (buildDirtyMap (s.changed md).volume).1 ins
  obtain ⟨n, ran⟩ := transfers.scripted _ changed
  obtain ⟨worked, after⟩ := transfers.works.result changed
  obtain ⟨_, touches, writes, wrote, exact⟩ := (transfer_write
    (buildDirtyMap (s.changed md).volume).1 (journalLba + 1) (s.changed md) _ rfl).1 worked
  refine ⟨n, _, writes, fun mask => ?_, wrote, touches, exact⟩
  generalize logging : (transferMetadataSectors (buildDirtyMap (s.changed md).volume).1
    (journalLba + 1) true (s.changed md)).2 = logged at ran after
  have steps : allOf (commitSteps (buildDirtyMap (s.changed md).volume).1
      (s.volume.superblock.sequence + 1) s.volume.superblock)
      ((s.changed md).withPlan (replicate n .ok ++ [.cut mask])) =
      (false, { logged with disk := (logged.disk.withPlan []).lose mask }) := by
    rw [commitSteps, applySteps, place.journalLba, cons_append, allOf,
      show transferMetadataSectors (buildDirtyMap (s.changed md).volume).1 (journalLba + 1) true
        ((s.changed md).withPlan (replicate n .ok ++ [.cut mask])) =
        (true, logged.withPlan [.cut mask]) from ran [.cut mask]]
    dsimp only
    rw [cons_append, allOf, show flushDisk (logged.withPlan [.cut mask]) =
        (false, { logged with disk := (logged.disk.withPlan []).lose mask }) from by
      unfold flushDisk onDisk
      dsimp only [State.withPlan]
      rw [after.healthy.flush_cut]]
  exact ⟨_, commitChange_failed full steps, rfl⟩

/-- A commit that fails after its third ordering point, then a power cut during
the next one: the armed header of the first replays a slot of the second. -/
theorem attemptRun_mixes (settled : Settled total s)
    (working : Working s) (first second : Metadata) {here there : Nat}
    (hereInside : here < journalMetadataSectors) (thereInside : there < journalMetadataSectors)
    (apart : there ≠ here) {size : Nat} (room : total.toNat ≤ size)
    (hereChanged : metadataSector first here ≠ metadataSector s.volume.metadata here)
    (thereChanged : metadataSector first there ≠ metadataSector s.volume.metadata there) :
    ∃ plan image, (attemptRun ([s.volume.metadata], s.withPlan plan) [first, second]).2.disk.Image
        image ∧ (attemptRun ([s.volume.metadata], s.withPlan plan) [first, second]).1 =
        [second, first, s.volume.metadata] ∧ Copies total (Disk.boot image size true []) ∧
      recovered image here = metadataSector second here ∧
      recovered image there = metadataSector first there := by
  have changed {i : Nat} (ins : i < journalMetadataSectors)
      (differs : metadataSector first i ≠ metadataSector s.volume.metadata i) :
      Bits.test (buildDirtyMap (s.changed first).volume).1 i = true := by
    rw [(buildDirtyMap_spec _).1, decide_eq_true ins, Bool.true_and, Volume.sectorDirty,
      Bool.or_eq_true, decide_eq_true_eq]
    exact .inr differs
  have dirty : (buildDirtyMap (s.changed first).volume).2 ≠ 0 := by
    intro nothing
    have clean := (buildDirtyMap_spec (s.changed first).volume).2.mp nothing here hereInside
    have mapped := changed hereInside hereChanged
    rw [(buildDirtyMap_spec _).1, clean, Bool.and_false] at mapped
    cases mapped
  obtain ⟨one, failed, stops, failedWorks, due, snapshotSb, armed⟩ :=
    commitChange_refused settled working dirty
  have restoredWorks :
      Working { failed with volume := failed.volume.restoreMetadata } := by
    refine ⟨failedWorks.healthy, (congrArg _ snapshotSb).trans working.layout, ?_⟩
    change failed.volume.snapshotSuperblock.totalSectors.toNat ≤ failed.disk.sectorCount
    rw [snapshotSb, settled.size]
    exact armed.copies.room
  obtain ⟨two, logged, writes, cuts, wrote, touches, exact⟩ :=
    commitChange_cut restoredWorks due second
  have phase : Phase total
      (fun v => v = (commitEntry (s.changed first).volume).header)
      (fun i v => v = metadataSector first i) (fun _ _ => True) logged :=
    (armed.weaken (fun _ same => same) (fun _ _ _ same => same)
      (fun _ _ _ _ => trivial)).touchSlots touches (fun _ _ _ => trivial)
  obtain ⟨mask, selected⟩ := exists_select_filter
    (fun write => decide (write = (slotLba here, metadataSector second here))) logged.cached
  have image : logged.Image (store (select mask logged.cached) logged.medium) := ⟨mask, rfl⟩
  obtain ⟨t, stopsAgain, laterDisk⟩ := cuts mask
  have final : attemptRun ([s.volume.metadata], s.withPlan
      (replicate one .ok ++ refused :: (replicate two .ok ++ [.cut mask])))
      [first, second] = ([second, first, s.volume.metadata],
        { t with volume := t.volume.restoreMetadata }) := by
    have one : attemptChange first (s.withPlan
        (replicate one .ok ++ refused :: (replicate two .ok ++ [.cut mask]))) =
        (false, State.withPlan { failed with volume := failed.volume.restoreMetadata }
          (replicate two .ok ++ [.cut mask])) := by
      rw [attemptChange, stops]
      rfl
    have two : attemptChange second
        (State.withPlan { failed with volume := failed.volume.restoreMetadata }
          (replicate two .ok ++ [.cut mask])) =
        (false, { t with volume := t.volume.restoreMetadata }) := by
      rw [attemptChange, stopsAgain]
    rw [attemptRun, one]
    dsimp only
    rw [attemptRun, two]
    rfl
  have replayed {i : Nat} (ins : i < journalMetadataSectors)
      (differs : metadataSector first i ≠ metadataSector s.volume.metadata i) :
      recovered (store (select mask logged.cached) logged.medium) i =
        store (select mask logged.cached) logged.medium (slotLba i) := by
    rw [recovered, phase.header _ (image.possible journalLba),
      (commitEntry (s.changed first).volume).covers i ins]
    exact if_pos (changed ins differs)
  refine ⟨_, _, ?_, congrArg Prod.fst final, phase.copies.boot image.possible room true [], ?_, ?_⟩
  · rw [final]
    rw [laterDisk]
    exact ⟨fun _ => false, rfl⟩
  · rw [replayed hereInside hereChanged, selected]
    refine store_agreed (mem_filter.mpr ⟨?_, decide_eq_true rfl⟩) (fun o listed => ?_)
    · rw [wrote.cached]
      refine mem_append_right _ ((exact _ _).mpr ⟨here, hereInside, ?_, rfl, rfl⟩)
      rw [(buildDirtyMap_spec _).1, decide_eq_true hereInside, Bool.true_and, Volume.sectorDirty,
        show (State.changed { failed with volume := failed.volume.restoreMetadata }
          second).volume.fullCommitPending = true from due, Bool.or_true, Bool.true_or]
    · exact congrArg Prod.snd (of_decide_eq_true (mem_filter.mp listed).2)
  · rw [replayed thereInside thereChanged, selected, store_other, wrote.medium]
    · exact armed.slot there thereInside _ (.inl rfl) (changed thereInside thereChanged)
    intro write listed same
    have kept := of_decide_eq_true (mem_filter.mp listed).2
    rw [kept] at same
    exact apart (slotLba_inj same).symm

/-- The two changes of the run: both touch the root, the first also another
sector of the inode table. -/
def firstChange : Metadata := ((mkfsMetadata freshRoot).touch 0 1).touch 4 1

def secondChange : Metadata := (mkfsMetadata freshRoot).touch 0 2

theorem sector_ne_of_mtime {left right : Metadata} (id : Fin 4096)
    (ne : (left.inodes id).mtime ≠ (right.inodes id).mtime) :
    metadataSector left (inodeTableIndex + id.val / 4) ≠
      metadataSector right (inodeTableIndex + id.val / 4) := by
  intro same
  exact ne (congrArg Inode.mtime (Metadata.inode_of_sector id same))

/-- After a failed commit and a cut during the next one, the fresh volume mounts
with metadata that no commit wrote, or not at all. -/
theorem attemptRun_mixture :
    ∃ (mounted : State) (plan : List Fate) (image : Nat → Sector),
      loadMetadata ⟨Volume.blank, Disk.boot freshImage 8192 true []⟩ = (.writable, mounted) ∧
      (∀ md ∈ [firstChange, secondChange],
        homeMetadataIsValid mounted.volume.superblock md = true) ∧
      (attemptRun ([mounted.volume.metadata], mounted.withPlan plan)
        [firstChange, secondChange]).2.disk.Image image ∧
      ∀ md ∈ (attemptRun ([mounted.volume.metadata], mounted.withPlan plan)
        [firstChange, secondChange]).1, ∀ state,
        loadMetadata ⟨Volume.blank, Disk.boot image 8192 true []⟩ = (.writable, state) →
        state.volume.metadata ≠ md := by
  obtain ⟨quiet, valid⟩ := freshImage_quiet []
  obtain ⟨mounted, load, working, content⟩ := freshImage_mounts Volume.blank
  have settled := settled_of_load (.quiet quiet) load
  have times (id : Fin 4096) : ((mkfsMetadata freshRoot).inodes id).mtime = 0 := by
    change (if id.val = rootInode - 1 then freshRoot else Inode.zero).mtime = 0
    split <;> rfl
  have first (id : Fin 4096) : (firstChange.inodes id).mtime = if id = 4 then 1 else
      if id = 0 then 1 else 0 := by
    simp only [firstChange, Metadata.touch_inode]
    split_ifs <;> simp_all
  have second (id : Fin 4096) : (secondChange.inodes id).mtime = if id = 0 then 2 else 0 := by
    simp only [secondChange, Metadata.touch_inode]
    split_ifs <;> simp_all
  have size : freshTotal.toNat ≤ 8192 := by decide
  obtain ⟨plan, image, left, candidates, copies, root, other⟩ := attemptRun_mixes settled working
    firstChange secondChange
    (show inodeTableIndex + (0 : Fin 4096).val / 4 < journalMetadataSectors by decide)
    (show inodeTableIndex + (4 : Fin 4096).val / 4 < journalMetadataSectors by decide)
    (by decide) size
    (sector_ne_of_mtime 0 (by rw [content, first, times]; decide))
    (sector_ne_of_mtime 4 (by rw [content, first, times]; decide))
  refine ⟨mounted, plan, image, load, ?_, left, ?_⟩
  · intro md listed
    have sound : ValidFor freshTotal md := by
      rcases mem_cons.mp listed with rfl | last
      · exact Metadata.touch_valid (Metadata.touch_valid valid 0 1) 4 1
      · rw [mem_singleton.mp last]
        exact Metadata.touch_valid valid 0 2
    exact sound _ settled.layout settled.size
  · intro md listed state loaded same
    have spec := loadMetadata_recovers ⟨Volume.blank, Disk.boot image 8192 true []⟩
      (bootable_boot copies fun _ _ => rfl)
    rw [loaded] at spec
    obtain ⟨sectors, _⟩ := (spec nofun).loaded nofun
    have rootSector := (sectors _ (by decide)).trans root
    have otherSector := (sectors _ (by decide)).trans other
    rw [same] at rootSector otherSector
    rw [candidates] at listed
    simp only [mem_cons, not_mem_nil, or_false] at listed
    rcases listed with rfl | rfl | rfl
    · exact sector_ne_of_mtime 4 (by rw [first, second]; decide) otherSector
    · exact sector_ne_of_mtime 0 (by rw [first, second]; decide) rootSector
    · exact sector_ne_of_mtime 0 (by rw [content, second, times]; decide) rootSector

end SavanXP.SxFS
