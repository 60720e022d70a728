import SavanXP.SxFS.CrashPhases

/-!
# Commits and recovery are atomic

Each step of `commitMetadata` takes the device from one phase to the next, and
each step of `recoverJournal` keeps what the medium is recovered to.
-/

namespace SavanXP.SxFS

open SavanXP.Library

/-! ## Steps that only stamp the superblock in memory -/

/-- The volume differs from `pre` at most in its stamped superblock. -/
structure Volume.Restamped (pre volume : Volume) : Prop where
  frame : volume = { pre with superblock := volume.superblock }
  layout : volume.superblock.layoutValid = pre.superblock.layoutValid
  total : volume.superblock.totalSectors = pre.superblock.totalSectors

theorem Volume.Restamped.refl (volume : Volume) : volume.Restamped volume := ⟨rfl, rfl, rfl⟩

theorem Volume.Restamped.trans {first second third : Volume} (one : first.Restamped second)
    (two : second.Restamped third) : first.Restamped third := by
  refine ⟨?_, two.layout.trans one.layout, two.total.trans one.total⟩
  have chained := two.frame
  rw [one.frame] at chained
  exact chained

theorem Volume.Restamped.metadata {pre volume : Volume} (same : pre.Restamped volume) :
    volume.metadata = pre.metadata := by
  rw [same.frame]

theorem Volume.restamped_stamped (volume : Volume) (seq flags : UInt32) :
    volume.Restamped { volume with superblock := volume.superblock.stamped seq flags } :=
  ⟨rfl, Superblock.layoutValid_stamped _ _ _, Superblock.stamped_totalSectors _ _ _⟩

/-- The state of a step in a phase of the device; `history` holds of the epochs that
the device may hold back. -/
def At (pre : Volume) (history phase : Disk Sector → Prop) (s : State) : Prop :=
  pre.Restamped s.volume ∧ phase s.disk ∧
    ∀ epoch ∈ s.disk.past, history (s.disk.before epoch)

/-- Nothing is asked of the epochs held back. -/
abbrev anyPast : Disk Sector → Prop := fun _ => True

/-- The writes of a pair of superblocks. -/
def copyWrite (sb : Superblock) (a : Nat) (v : Sector) : Prop :=
  isCopy a ∧ v = Superblock.codec sb

theorem writeSuperblocks_touches (seq flags : UInt32) (dur : Durability) (s : State) :
    (writeSuperblocks seq flags dur s).2.volume =
        { s.volume with superblock := s.volume.superblock.stamped seq flags } ∧
      s.disk.Touches (copyWrite (s.volume.superblock.stamped seq flags))
        (writeSuperblocks seq flags dur s).2.disk := by
  unfold writeSuperblocks
  generalize s.volume.superblock.stamped seq flags = sb
  have fresh (lba : Nat) (copy : isCopy lba) : ∀ a v,
      (a, v) ∈ cells lba [Superblock.codec sb] → copyWrite sb a v := by
    intro a v written
    obtain ⟨rfl, rfl⟩ := mem_cells_single.mp written
    exact ⟨copy, rfl⟩
  dsimp only
  generalize within : ({ s with volume := { s.volume with superblock := sb } } : State) = start
  have same : start.disk = s.disk := by rw [← within]
  have first := writeSectors_touches primarySbLba [Superblock.codec sb] dur start
  rw [same] at first
  unfold allOf
  split
  · next middle ran =>
    rw [ran] at first
    have second := writeSectors_touches secondarySbLba [Superblock.codec sb] dur middle
    have touched := (first.2.mono (fresh primarySbLba (.inl rfl))).trans
      (second.2.mono (fresh secondarySbLba (.inr rfl)))
    have volume := second.1.trans first.1
    unfold allOf
    split <;> rename_i res <;> rw [res] at touched volume <;> rw [← within] at volume
    all_goals exact ⟨volume, touched⟩
  · next middle stopped =>
    rw [stopped, ← within] at first
    exact ⟨first.1, first.2.mono (fresh primarySbLba (.inl rfl))⟩

variable {seq flags : UInt32} {dur : Durability}

/-- Superblock writes that work change no other sector a read returns. -/
theorem writeSuperblocks_view
    {s t : State} (done : writeSuperblocks seq flags dur s = (true, t))
    {a : Nat} (other : ¬ isCopy a) : t.disk.view a = s.disk.view a := by
  unfold writeSuperblocks at done
  generalize s.volume.superblock.stamped seq flags = sb at done
  dsimp only at done
  unfold allOf at done
  split at done
  · next middle first =>
    unfold allOf at done
    split at done
    · next last second =>
      obtain rfl : last = t := congrArg Prod.snd done
      rw [writeSectors_view second, writeSectors_view first]
      have apart (lba : Nat) (copy : isCopy lba) :
          ∀ write ∈ cells lba [Superblock.codec sb], write.1 ≠ a := by
        rintro write written rfl
        exact other ((mem_cells_single.mp written).1 ▸ copy)
      rw [store_other (apart _ (.inr rfl)), store_other (apart _ (.inl rfl))]
    · cases done
  · cases done

theorem copyWrite_valid {sb : Superblock} (valid : sb.layoutValid = true) (seq flags : UInt32)
    {a : Nat} {v : Sector} (written : copyWrite (sb.stamped seq flags) a v) :
    isCopy a ∧ copyValid v = true ∧ (Superblock.codec.symm v).totalSectors = sb.totalSectors := by
  obtain ⟨copy, rfl⟩ := written
  simp only [copyValid, Equiv.symm_apply_apply]
  exact ⟨copy, Superblock.valid_stamped valid _ _, Superblock.stamped_totalSectors _ _ _⟩

section Steps

variable {pre : Volume} {history phase after fails : Disk Sector → Prop}

section

variable (kept : ∀ disk, fails disk → history disk)
include kept

theorem transfer_step {map : Bytes 196} {baseLba : Nat} (touched : ∀ disk t, phase disk →
      disk.Touches (mappedWrite map pre.metadata baseLba journalMetadataSectors) t →
      fails t) (worked : ∀ disk t writes, phase disk →
      disk.Touches (mappedWrite map pre.metadata baseLba journalMetadataSectors) t →
      disk.Wrote writes t → (∀ a v, (a, v) ∈ writes ↔
        mappedWrite map pre.metadata baseLba journalMetadataSectors a v) →
      after t) : Triple (At pre history phase) (transferMetadataSectors map baseLba true)
      (At pre history after) (At pre history fails) := by
  rintro s ⟨same, held, past⟩
  have step := transfer_write map baseLba s s rfl
  rw [same.metadata] at step
  refine ⟨fun done => ?_, fun failed => ?_⟩
  · obtain ⟨volume, touches, writes, wrote, exact⟩ := step.1 done
    exact ⟨volume ▸ same, worked _ _ writes held touches wrote exact,
      touches.recorded (fun _ touches => kept _ (touched _ _ held touches)) past⟩
  · obtain ⟨volume, touches⟩ := step.2 failed
    exact ⟨volume ▸ same, touched _ _ held touches,
      touches.recorded (fun _ touches => kept _ (touched _ _ held touches)) past⟩

theorem flush_step (failed : ∀ disk t, phase disk → disk.Keeps t → fails t)
    (worked : ∀ disk t, phase disk → disk.Keeps t →
      (∀ a v, t.possible a v → v = disk.view a) → after t) :
    Triple (At pre history phase) flushDisk (At pre history after) (At pre history fails) := by
  rintro s ⟨same, held, past⟩
  have recorded := s.disk.flush_keeps.recorded
    (fun _ keeps => kept _ (failed _ _ held keeps)) past
  refine ⟨fun done => ⟨same, ?_, recorded⟩,
    fun _ => ⟨same, failed _ _ held s.disk.flush_keeps, recorded⟩⟩
  exact worked _ _ held s.disk.flush_keeps
    (fun a v => Disk.flush_true_possible (Prod.ext done rfl))

theorem write_step {lba : Nat} {data : List Sector} (touched : ∀ disk t, phase disk →
      disk.Touches (fun a v => (a, v) ∈ cells lba data) t → fails t)
    (worked : ∀ disk t, phase disk → disk.Touches (fun a v => (a, v) ∈ cells lba data) t →
      t.view = store (cells lba data) disk.view →
      (dur = .durable → t.cached = []) → after t) :
    Triple (At pre history phase) (writeSectors lba data dur) (At pre history after)
      (At pre history fails) := by
  rintro s ⟨same, held, past⟩
  obtain ⟨volume, touches⟩ := writeSectors_touches lba data dur s
  have recorded := touches.recorded (fun _ touches => kept _ (touched _ _ held touches)) past
  refine ⟨fun done => ⟨volume ▸ same, ?_, recorded⟩,
    fun _ => ⟨volume ▸ same, touched _ _ held touches, recorded⟩⟩
  refine worked _ _ held touches (writeSectors_view (Prod.ext done rfl)) ?_
  rintro rfl
  exact writeSectors_durable (Prod.ext done rfl)

end

/-- The journal is cleared by a write of its header. -/
theorem clear_step (layout : pre.superblock.layoutValid = true)
    (write : Triple (At pre history phase)
      (writeSectors journalLba [JournalHeader.codec .zero] dur) (At pre history after)
      (At pre history fails)) :
    Triple (At pre history phase) (clearJournal dur) (At pre history after)
      (At pre history fails) := by
  intro s held
  have here := (s.volume.superblock.layout (held.1.layout.trans layout)).journalLba
  unfold clearJournal
  rw [here]
  exact write s held

/-- Home is written region after region. -/
theorem home_step (layout : pre.superblock.layoutValid = true) {reached : Nat → Disk Sector → Prop}
    (write : ∀ {i last}, last ≤ journalMetadataSectors → Triple (At pre history (reached i))
      (writeSectors (homeLba i) (metadataRun pre.metadata i last) .durable)
      (At pre history (reached last)) (At pre history fails)) :
    Triple (At pre history (reached 0)) writeHomeMetadata
      (At pre history (reached journalMetadataSectors)) (At pre history fails) := by
  intro s held
  have place := s.volume.superblock.layout (held.1.layout.trans layout)
  unfold writeHomeMetadata
  dsimp only
  rw [place.blockBitmapLba, place.inodeBitmapLba, place.inodeTableLba, held.1.metadata]
  exact ((write (by decide)).cons <| (write (by decide)).cons <| (write (by decide)).cons <|
    Triple.nil fun _ done => done) s held

theorem superblocks_step (kept : ∀ disk, fails disk → history disk)
    (layout : pre.superblock.layoutValid = true)
    (touched : ∀ disk t fresh, phase disk → disk.Touches fresh t →
      (∀ a v, fresh a v → isCopy a ∧ copyValid v = true ∧
        (Superblock.codec.symm v).totalSectors = pre.superblock.totalSectors) → fails t)
    (worked : ∀ disk t fresh, phase disk → disk.Touches fresh t →
      (∀ a v, fresh a v → isCopy a ∧ copyValid v = true ∧
        (Superblock.codec.symm v).totalSectors = pre.superblock.totalSectors) →
      (∀ a, ¬ isCopy a → t.view a = disk.view a) → after t) :
    Triple (At pre history phase) (writeSuperblocks seq flags dur) (At pre history after)
      (At pre history fails) := by
  rintro s ⟨same, held, past⟩
  obtain ⟨volume, touches⟩ := writeSuperblocks_touches seq flags dur s
  have stamped : pre.Restamped (writeSuperblocks seq flags dur s).2.volume :=
    volume ▸ same.trans (Volume.restamped_stamped _ _ _)
  have good := fun a v => @copyWrite_valid _ (same.layout.trans layout) seq flags a v
  simp only [same.total] at good
  have recorded := touches.recorded
    (fun _ touches => kept _ (touched _ _ _ held touches good)) past
  refine ⟨fun done => ⟨stamped, ?_, recorded⟩,
    fun _ => ⟨stamped, touched _ _ _ held touches good, recorded⟩⟩
  exact worked _ _ _ held touches good (fun a other =>
    writeSuperblocks_view (Prod.ext done rfl) other)

end Steps

/-! ## Arming and clearing the header -/

variable {disk : Disk Sector}

namespace Entry

variable {e : Entry} {pre : Volume} {total : UInt32} {home : Nat → Sector}
  {history fails : Disk Sector → Prop}

/-- A header write is in the cache. -/
def HeaderIssued (e : Entry) (total : UInt32) (home : Nat → Sector) (header : Sector)
    (disk : Disk Sector) : Prop :=
  e.Arming total home disk ∧ disk.view journalLba = header

/-- The armed header is on the medium. -/
def Armed (e : Entry) (total : UInt32) (home : Nat → Sector) (disk : Disk Sector) : Prop :=
  Phase total (fun v => v = e.header) (fun i v => v = home i)
    e.logged disk

theorem Armed.arming (armed : e.Armed total home disk) : e.Arming total home disk :=
  armed.weaken (fun _ on => .inr on) (fun _ _ _ same => same) (fun _ _ _ same => same)

section

variable (kept : ∀ disk, fails disk → history disk)
  (failed : ∀ disk, e.Arming total home disk → fails disk)
include kept failed

/-- Writing a header that is the entry's own or disarmed. -/
theorem header_step {phase : Disk Sector → Prop} {header : Sector}
    (arming : ∀ disk, phase disk → e.Arming total home disk)
    (fresh : armed header = false ∨ header = e.header) :
    Triple (At pre history phase) (writeSectors journalLba [header] .cached)
      (At pre history (e.HeaderIssued total home header)) (At pre history fails) :=
  write_step kept
    (fun _ _ held touches => failed _ ((arming _ held).touchHeader touches fresh))
    (fun _ _ held touches view _ => by
      refine ⟨(arming _ held).touchHeader touches fresh, ?_⟩
      rw [view, store_cells_single])

theorem unsealed_step (layout : pre.superblock.layoutValid = true)
    (size : pre.superblock.totalSectors = total) {header : Sector} :
    Triple (At pre history (e.HeaderIssued total home header)) (writeSuperblocks seq flags .cached)
      (At pre history (e.HeaderIssued total home header)) (At pre history fails) := by
  subst size
  exact superblocks_step kept layout
    (fun _ _ _ held touches good => failed _ (held.1.touchCopies touches good))
    (fun _ _ _ held touches good view => ⟨held.1.touchCopies touches good,
      (view _ fun copy => Nat.lt_irrefl _ copy.lt).trans held.2⟩)

theorem arm_step : Triple (At pre history (e.HeaderIssued total home e.header)) flushDisk
      (At pre history (e.Armed total home)) (At pre history fails) :=
  flush_step kept
    (fun _ _ held keeps => failed _ (held.1.keeps keeps))
    (fun _ _ held keeps only => held.1.settled only keeps held.2
      (fun _ ins => held.1.viewHome ins) (fun _ ins => held.1.viewSlot ins))

theorem seal_step (layout : pre.superblock.layoutValid = true)
    (size : pre.superblock.totalSectors = total) :
    Triple (At pre history (e.Armed total home)) (writeSuperblocks seq flags dur)
      (At pre history (e.Armed total home)) (At pre history fails) := by
  subst size
  exact superblocks_step kept layout
    (fun _ _ _ held touches good => failed _ (Armed.arming (held.touchCopies touches good)))
    (fun _ _ _ held touches good _ => held.touchCopies touches good)

theorem disarm_step : Triple (At pre history (e.HeaderIssued total home clearedHeader)) flushDisk
      (At pre history (Quiet total home)) (At pre history fails) :=
  flush_step kept
    (fun _ _ held keeps => failed _ (held.1.keeps keeps))
    (fun _ _ held keeps only => held.1.settled only keeps (held.2 ▸ armed_clearedHeader)
      (fun _ ins => held.1.viewHome ins) (fun _ _ => trivial))

end

end Entry

/-! ## A commit -/

/-- The entry a commit logs. -/
def commitEntry (volume : Volume) : Entry where
  header := JournalHeader.codec
    (journalHeaderFor (buildDirtyMap volume).1 (volume.superblock.sequence + 1))
  map := (buildDirtyMap volume).1
  target := metadataSector volume.metadata
  isArmed := (replays_journalHeaderFor _ _ 0).1
  covers i _ := (replays_journalHeaderFor _ _ i).2

/-- Sectors of a place that reads return as the entry's target wherever it
replays. -/
def Entry.visible (e : Entry) (place : Nat → Nat) (disk : Disk Sector) : Prop :=
  ∀ i, i < journalMetadataSectors → Bits.test e.map i = true →
    disk.view (place i) = e.target i

theorem view_of_wrote {map : Bytes 196} {md : Metadata} {baseLba i : Nat} {disk t : Disk Sector}
    {writes : List (Nat × Sector)} (wrote : disk.Wrote writes t) (exact : ∀ a v, (a, v) ∈ writes ↔
      mappedWrite map md baseLba journalMetadataSectors a v) (ins : i < journalMetadataSectors)
    (mapped : Bits.test map i = true) : t.view (baseLba + i) = metadataSector md i := by
  rw [wrote.view]
  refine store_agreed ((exact _ _).mpr ⟨i, ins, mapped, rfl, rfl⟩) (fun other written => ?_)
  obtain ⟨pos, below, set, place, content⟩ := (exact _ _).mp written
  obtain rfl : i = pos := Nat.add_left_cancel place
  exact content

section Commit

variable {pre : Volume} {total : UInt32} {old : Nat → Sector} {history : Disk Sector → Prop}
  (kept : ∀ disk, Interrupted total old (metadataSector pre.metadata) disk → history disk)

/-- The slots have been written, the header has not. -/
def Staged (pre : Volume) (total : UInt32) (old : Nat → Sector) (disk : Disk Sector) : Prop :=
  Quiet total old disk ∧ (commitEntry pre).visible slotLba disk

def Logged (pre : Volume) (total : UInt32) (old : Nat → Sector) (disk : Disk Sector) : Prop :=
  Phase total (fun v => armed v = false) (fun i v => v = old i)
    (commitEntry pre).logged disk

/-- The home sectors have been written. -/
def Applying (pre : Volume) (total : UInt32) (disk : Disk Sector) : Prop :=
  (commitEntry pre).Replaying total disk ∧ (commitEntry pre).visible homeLba disk

include kept in
theorem stage_step : Triple (At pre history (Quiet total old))
      (transferMetadataSectors (buildDirtyMap pre).1 (journalLba + 1) true)
      (At pre history (Staged pre total old))
      (At pre history (Interrupted total old (metadataSector pre.metadata))) :=
  transfer_step kept
    (fun _ _ quiet touches => .quiet (quiet.touchSlots touches fun _ _ _ => trivial))
    (fun _ _ _ quiet touches wrote exact =>
      ⟨quiet.touchSlots touches fun _ _ _ => trivial, fun _ => view_of_wrote wrote exact⟩)

include kept in
theorem log_step : Triple (At pre history (Staged pre total old)) flushDisk
    (At pre history (Logged pre total old))
      (At pre history (Interrupted total old (metadataSector pre.metadata))) :=
  flush_step kept
    (fun _ _ staged keeps => .quiet (staged.1.keeps keeps))
    (fun _ _ staged keeps only => staged.1.settled only keeps staged.1.viewHeader
      (fun _ ins => staged.1.viewHome ins)
      (fun i ins mapped => staged.2 i ins mapped))

theorem Logged.arming (logged : Logged pre total old disk) :
    (commitEntry pre).Arming total old disk :=
  logged.weaken (fun _ off => .inl off) (fun _ _ _ same => same) (fun _ _ _ same => same)

variable (unmapped : ∀ i < journalMetadataSectors, Bits.test (buildDirtyMap pre).1 i = false →
    old i = metadataSector pre.metadata i)

include unmapped in
theorem Entry.Armed.replaying (armed : (commitEntry pre).Armed total old disk) :
    (commitEntry pre).Replaying total disk := by
  refine Phase.weaken armed (fun _ same => same) (fun i ins v same => ?_)
    (fun _ _ _ same => same)
  by_cases mapped : Bits.test (buildDirtyMap pre).1 i = true
  · exact .inl mapped
  · right
    rw [same]
    exact unmapped i ins (by simpa using mapped)

include kept unmapped in
theorem apply_step : Triple (At pre history ((commitEntry pre).Armed total old))
      (transferMetadataSectors (buildDirtyMap pre).1 blockBitmapLba true)
      (At pre history (Applying pre total))
      (At pre history (Interrupted total old (metadataSector pre.metadata))) := by
  have placed : ∀ a v,
      mappedWrite (buildDirtyMap pre).1 pre.metadata blockBitmapLba journalMetadataSectors
        a v →
      ∃ i, i < journalMetadataSectors ∧ a = homeLba i ∧
        (Bits.test (buildDirtyMap pre).1 i = true ∨ v = metadataSector pre.metadata i) := by
    rintro a v ⟨i, ins, mapped, place, content⟩
    exact ⟨i, ins, place, .inl mapped⟩
  exact transfer_step kept
    (fun _ _ held touches => .replaying (commitEntry pre) rfl
      ((held.replaying unmapped).touchHome touches placed))
    (fun _ _ _ held touches wrote exact => ⟨(held.replaying unmapped).touchHome touches placed,
      fun _ => view_of_wrote wrote exact⟩)

include kept in
theorem settle_step : Triple (At pre history (Applying pre total)) flushDisk
      (At pre history ((commitEntry pre).Armed total (metadataSector pre.metadata)))
      (At pre history (Interrupted total old (metadataSector pre.metadata))) :=
  flush_step kept
    (fun _ _ held keeps => .replaying (commitEntry pre) rfl (held.1.keeps keeps))
    (fun disk _ held keeps only => held.1.settled only keeps held.1.viewHeader (fun i ins => by
        rcases held.1.viewHome ins with mapped | same
        · exact held.2 i ins mapped
        · exact same)
      (fun _ ins => held.1.viewSlot ins))

include unmapped in
theorem armingOld (disk : Disk Sector) (arming : (commitEntry pre).Arming total old disk) :
    Interrupted total old (metadataSector pre.metadata) disk :=
  .arming (commitEntry pre) old rfl unmapped (.inl rfl) arming

theorem armingNew (disk : Disk Sector)
    (arming : (commitEntry pre).Arming total (metadataSector pre.metadata) disk) :
    Interrupted total old (metadataSector pre.metadata) disk :=
  .arming (commitEntry pre) _ rfl (fun _ _ _ => rfl) (.inr rfl) arming

section

variable (layout : pre.superblock.layoutValid = true) (size : pre.superblock.totalSectors = total)
include layout size

include kept unmapped in
/-- Up to the third ordering point: the new metadata is home, the header still
armed. -/
theorem applySteps_triple : Triple (At pre history (Quiet total old))
      (allOf (applySteps (buildDirtyMap pre).1 (pre.superblock.sequence + 1) pre.superblock))
      (At pre history ((commitEntry pre).Armed total (metadataSector pre.metadata)))
      (At pre history (Interrupted total old (metadataSector pre.metadata))) := by
  have place := pre.superblock.layout layout
  unfold applySteps
  rw [place.journalLba, place.blockBitmapLba]
  exact (stage_step kept).cons <| (log_step kept).cons <|
    (Entry.header_step kept (armingOld unmapped) (fun _ => Logged.arming) (.inr rfl)).cons <|
    (Entry.unsealed_step kept (armingOld unmapped) layout size).cons <|
    (Entry.arm_step kept (armingOld unmapped)).cons <| (apply_step kept unmapped).cons <|
    (settle_step kept).cons <| Triple.nil fun _ done => done

include kept in
theorem sealSteps_triple (seq : UInt32) :
    Triple (At pre history ((commitEntry pre).Armed total (metadataSector pre.metadata)))
      (allOf (sealSteps seq)) (At pre history (Quiet total (metadataSector pre.metadata)))
      (At pre history (Interrupted total old (metadataSector pre.metadata))) := by
  have clear := clear_step layout (Entry.header_step kept (@armingNew pre total old)
    (fun _ => Entry.Armed.arming) (.inl armed_clearedHeader))
  exact (Entry.seal_step kept armingNew layout size).cons <| clear.cons <|
    (Entry.disarm_step kept armingNew).cons <| Triple.nil fun _ done => done

include kept unmapped in
/-- Every step of a commit moves to the next phase, or leaves an interrupted
commit. -/
theorem commitSteps_triple : Triple (At pre history (Quiet total old))
      (allOf (commitSteps (buildDirtyMap pre).1 (pre.superblock.sequence + 1)
        pre.superblock)) (At pre history (Quiet total (metadataSector pre.metadata)))
      (At pre history (Interrupted total old (metadataSector pre.metadata))) :=
  (applySteps_triple kept unmapped layout size).append (sealSteps_triple kept layout size _)

end

end Commit

/-- The volume after a commit: only the superblock and the commit's own
bookkeeping can differ. -/
structure Volume.Committed (pre volume : Volume) : Prop where
  status : volume.status = pre.status
  metadataReady : volume.metadataReady = pre.metadataReady
  mountPoint : volume.mountPoint = pre.mountPoint
  metadata : volume.metadata = pre.metadata
  records : volume.records = pre.records
  snapshot : volume.snapshot = pre.snapshot
  snapshotSuperblock : volume.snapshotSuperblock = pre.snapshotSuperblock
  layout : volume.superblock.layoutValid = pre.superblock.layoutValid
  total : volume.superblock.totalSectors = pre.superblock.totalSectors

theorem Volume.Restamped.committed {pre volume : Volume} (same : pre.Restamped volume) :
    pre.Committed volume := by
  refine ⟨?_, ?_, ?_, ?_, ?_, ?_, ?_, same.layout, same.total⟩ <;> rw [same.frame]

/-- What memory knows of home: unless a full commit is due, the snapshot. -/
def Tracked (volume : Volume) (old : Nat → Sector) : Prop :=
  volume.snapshotValid = true → volume.fullCommitPending = false →
    ∀ i, i < journalMetadataSectors → old i = metadataSector volume.snapshot i

theorem unmapped_of_tracked {volume : Volume} {old : Nat → Sector} (tracked : Tracked volume old)
    {i : Nat} (ins : i < journalMetadataSectors) (clean : volume.sectorDirty i = false) :
    volume.fullCommitPending = false ∧ volume.snapshotValid = true ∧
      old i = metadataSector volume.metadata i := by
  simp only [Volume.sectorDirty, Bool.or_eq_false_iff, Bool.not_eq_false', decide_eq_false_iff_not,
    not_not] at clean
  obtain ⟨⟨valid, settled⟩, same⟩ := clean
  exact ⟨settled, valid, (tracked valid settled i ins).trans same.symm⟩

theorem unmapped_of_buildDirtyMap {volume : Volume} {old : Nat → Sector}
    (tracked : Tracked volume old) (i : Nat) (ins : i < journalMetadataSectors)
    (missing : Bits.test (buildDirtyMap volume).1 i = false) :
    old i = metadataSector volume.metadata i := by
  rw [(buildDirtyMap_spec volume).1 i, decide_eq_true ins, Bool.true_and] at missing
  exact (unmapped_of_tracked tracked ins missing).2.2

/-- `commitMetadata` from a quiet device: it ends quiet in the new metadata, or
interrupted with a full commit due, or changed nothing.  The epochs it closes were
interrupted commits. -/
theorem commitMetadata_spec (s : State) {total : UInt32} {old : Nat → Sector}
    {history : Disk Sector → Prop} (layout : s.volume.superblock.layoutValid = true)
    (size : s.volume.superblock.totalSectors = total)
    (quiet : Quiet total old s.disk) (tracked : Tracked s.volume old)
    (kept : ∀ disk, Interrupted total old (metadataSector s.volume.metadata) disk → history disk)
    (past : ∀ epoch ∈ s.disk.past, history (s.disk.before epoch)) :
    s.volume.Committed (commitMetadata s).2.volume ∧
      (∀ epoch ∈ (commitMetadata s).2.disk.past,
        history ((commitMetadata s).2.disk.before epoch)) ∧ ((commitMetadata s).1 = true →
        Quiet total (metadataSector s.volume.metadata) (commitMetadata s).2.disk ∧
          (commitMetadata s).2.volume.fullCommitPending = false) ∧ ((commitMetadata s).1 = false →
        Interrupted total old (metadataSector s.volume.metadata) (commitMetadata s).2.disk ∧
        ((commitMetadata s).2.volume.fullCommitPending = true ∨ s.volume.fullCommitPending = false ∧
          (∀ i < journalMetadataSectors, old i = metadataSector s.volume.metadata i) ∧
          Quiet total old (commitMetadata s).2.disk)) := by
  have none := (buildDirtyMap_spec s.volume).2
  unfold commitMetadata
  generalize built : buildDirtyMap s.volume = res at none
  dsimp only at none ⊢
  split
  · next nothing =>
    have clean := none.mp nothing
    have same : ∀ i < journalMetadataSectors,
        old i = metadataSector s.volume.metadata i :=
      fun i ins => (unmapped_of_tracked tracked ins (clean i ins)).2.2
    have settled : s.volume.fullCommitPending = false :=
      (unmapped_of_tracked tracked (by decide) (clean 0 (by decide))).1
    have still : Quiet total old s.disk.flush.2 := quiet.keeps s.disk.flush_keeps
    refine ⟨⟨rfl, rfl, rfl, rfl, rfl, rfl, rfl, rfl, rfl⟩, s.disk.flush_keeps.recorded
      (fun _ keeps => kept _ (.quiet (quiet.keeps keeps))) past, fun _ => ⟨?_, settled⟩,
      fun _ => ⟨.quiet still, .inr ⟨settled, same, still⟩⟩⟩
    exact still.weaken (fun _ off => off)
      (fun i ins _ here => here.trans (same i ins)) (fun _ _ _ _ => trivial)
  · have steps := commitSteps_triple kept (unmapped_of_buildDirtyMap tracked) layout size s
      ⟨Volume.Restamped.refl _, quiet, past⟩
    rw [built] at steps
    split
    · next t stopped =>
      rw [stopped] at steps
      obtain ⟨same, interrupted, recorded⟩ := steps.2 rfl
      exact ⟨{ same.committed with }, recorded, nofun, fun _ => ⟨interrupted, .inl rfl⟩⟩
    · next t finished =>
      rw [finished] at steps
      obtain ⟨same, settled, recorded⟩ := steps.1 rfl
      exact ⟨{ same.committed with }, recorded, fun _ => ⟨settled, rfl⟩, nofun⟩

end SavanXP.SxFS
