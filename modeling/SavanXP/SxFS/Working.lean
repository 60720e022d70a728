import SavanXP.SxFS.JournalSpec

/-!
# The journal on a healthy device

On a device that is large enough and on which every command works, every step
of a commit and of a recovery works.
-/

namespace SavanXP.SxFS

open SavanXP.Library List

/-- The volume's layout fits a device on which everything works. -/
structure Working (s : State) : Prop where
  healthy : s.disk.Healthy
  layout : s.volume.superblock.layoutValid = true
  room : s.volume.superblock.totalSectors.toNat ≤ s.disk.sectorCount

/-- The action works on a healthy device and leaves it healthy. -/
def Works (action : Action State) : Prop :=
  Triple Working action Working (fun _ => False)

variable {s : State} {action : Action State}

theorem Works.result (works : Works action) (working : Working s) :
    (action s).1 = true ∧ Working (action s).2 := by
  have step := works s working
  cases worked : (action s).1 with
  | true => exact ⟨rfl, step.1 worked⟩
  | false => exact (step.2 worked).elim

theorem Works.run (works : Works action) (working : Working s) :
    ∃ t, action s = (true, t) ∧ Working t :=
  ⟨_, Prod.ext (works.result working).1 rfl, (works.result working).2⟩

theorem Works.of_result (result : ∀ s, Working s → (action s).1 = true ∧ Working (action s).2) :
    Works action := by
  intro s working
  obtain ⟨worked, after⟩ := result s working
  exact ⟨fun _ => after, fun failed => (by rw [worked] at failed; cases failed)⟩

variable {lba : Nat}

theorem Working.inRange (working : Working s) {n : Nat} (some : 0 < n)
    (inside : lba + n ≤ dataLba) : s.disk.inRange lba n = true := by
  have total := (s.volume.superblock.layout working.layout).total
  have room := working.room
  exact Disk.inRange_iff.mpr ⟨some, by omega⟩

/-! ## Devices that work up to some command -/

/-- The volume on a device with the given fates ahead of it. -/
def State.withPlan (s : State) (plan : List Fate) : State :=
  { s with disk := s.disk.withPlan plan }

/-- The action takes a number of commands that the state determines. -/
def Scripted (action : Action State) : Prop :=
  ∀ s, Working s → ∃ n, ∀ rest,
    action (s.withPlan (List.replicate n .ok ++ rest)) =
      (true, (action s).2.withPlan rest)

/-- The action works, and its commands can be counted. -/
structure Sure (action : Action State) : Prop where
  works : Works action
  scripted : Scripted action

namespace Sure

theorem nil : Sure (allOf []) := ⟨Triple.nil fun _ done => done, fun _ _ => ⟨0, fun _ => rfl⟩⟩

theorem cons {others : List (Action State)} (first : Sure action) (second : Sure (allOf others)) :
    Sure (allOf (action :: others)) := by
  refine ⟨first.works.cons second.works, fun s working => ?_⟩
  obtain ⟨t, done, after⟩ := first.works.run working
  obtain ⟨one, ran⟩ := first.scripted s working
  obtain ⟨two, rest⟩ := second.scripted _ after
  rw [done] at ran
  refine ⟨one + two, fun plan => ?_⟩
  rw [replicate_add, append_assoc, allOf, ran, allOf, done]
  exact rest plan

/-- A number of commands that leave a healthy device of the same size. -/
theorem ofCommand (n : Nat) (result : ∀ s, Working s → ∃ disk : Disk Sector, disk.Healthy ∧
      disk.sectorCount = s.disk.sectorCount ∧ action s = (true, { s with disk := disk }) ∧
      ∀ rest, action (s.withPlan (List.replicate n .ok ++ rest)) =
        (true, { s with disk := disk.withPlan rest })) : Sure action := by
  constructor
  · refine Works.of_result fun s working => ?_
    obtain ⟨disk, healthy, size, ran, -⟩ := result s working
    rw [ran]
    exact ⟨rfl, healthy, working.layout, size.symm ▸ working.room⟩
  · intro s working
    obtain ⟨disk, -, -, ran, scripted⟩ := result s working
    rw [ran]
    exact ⟨n, scripted⟩

end Sure

theorem onDisk_eq {command : Disk Sector → Bool × Disk Sector} {done : Bool}
    {disk : Disk Sector} (ran : command s.disk = (done, disk)) :
    onDisk command s = (done, { s with disk := disk }) := by
  rw [onDisk, ran]

theorem flushDisk_sure : Sure flushDisk :=
  .ofCommand 1 fun s working => ⟨s.disk.settle, working.healthy.settle, rfl,
    onDisk_eq working.healthy.flush, fun rest => onDisk_eq (working.healthy.flush_scripted rest)⟩

theorem writeSectors_sure {data : List Sector} (dur : Durability) (some : 0 < data.length)
    (inside : lba + data.length ≤ dataLba) : Sure (writeSectors lba data dur) := by
  have range {s} (working : Working s) := working.inRange some inside
  cases dur with
  | cached =>
    exact .ofCommand 1 fun s working => ⟨_, working.healthy.push _, rfl,
      onDisk_eq (working.healthy.writeCached (range working)),
      fun rest => onDisk_eq (working.healthy.writeCached_scripted (range working) rest)⟩
  | durable =>
    exact .ofCommand 3 fun s working => ⟨_, (working.healthy.push _).harden, rfl,
      onDisk_eq (working.healthy.write (range working)),
      fun rest => onDisk_eq (working.healthy.write_scripted (range working) rest)⟩

theorem writeSector_sure (v : Sector) (dur : Durability) (inside : lba < dataLba) :
    Sure (writeSectors lba [v] dur) :=
  writeSectors_sure dur Nat.one_pos inside

theorem writeSuperblocks_sure (seq flags : UInt32) (dur : Durability) :
    Sure (writeSuperblocks seq flags dur) := by
  have both (sb : Superblock) : Sure (allOf [writeSectors primarySbLba [Superblock.codec sb] dur,
      writeSectors secondarySbLba [Superblock.codec sb] dur]) :=
    (writeSector_sure _ dur (by decide)).cons <|
      (writeSector_sure _ dur (by decide)).cons .nil
  have stamped {s : State} (working : Working s) : Working { s with
      volume := { s.volume with superblock := s.volume.superblock.stamped seq flags } } := by
    refine ⟨working.healthy, (Superblock.layoutValid_stamped _ _ _).trans working.layout, ?_⟩
    have total := Superblock.stamped_totalSectors s.volume.superblock seq flags
    exact working.room
  exact ⟨.of_result fun s working => (both _).works.result (stamped working), fun s working =>
      (both (s.volume.superblock.stamped seq flags)).scripted _ (stamped working)⟩

theorem clearJournal_works (dur : Durability) : Works (clearJournal dur) := by
  refine Works.of_result fun s working => ?_
  unfold clearJournal
  rw [(s.volume.superblock.layout working.layout).journalLba]
  exact (writeSector_sure _ dur (by decide)).works.result working

theorem metadataRun_length (md : Metadata) (i last : Nat) :
    (metadataRun md i last).length = last - i := by
  simp [metadataRun]

variable {baseLba i last : Nat}

theorem writeRun_sure (order : i < last) (inside : baseLba + last ≤ dataLba) :
    Sure (writeRun baseLba i last) := by
  have range {s} (working : Working s) : s.disk.inRange (baseLba + i)
      (metadataRun s.volume.metadata i last).length = true := by
    rw [metadataRun_length]
    exact working.inRange (by omega) (by omega)
  exact .ofCommand 1 fun s working => ⟨_, working.healthy.push _, rfl,
    onDisk_eq (working.healthy.writeCached (range working)),
    fun rest => onDisk_eq (working.healthy.writeCached_scripted (range working) rest)⟩

theorem readRun_works (order : i < last) (inside : baseLba + last ≤ dataLba) :
    Works (readRun baseLba i last) := by
  refine Works.of_result fun s working => ?_
  have range : s.disk.inRange (baseLba + i) (last - i) = true :=
    working.inRange (by omega) (by omega)
  unfold readRun
  rw [working.healthy.read range]
  exact ⟨rfl, working.healthy, working.layout, working.room⟩

variable (map : Bytes 196)

theorem transfer_works (baseLba : Nat) (write : Bool)
    (inside : baseLba + journalMetadataSectors ≤ dataLba) :
    Works (transferMetadataSectors map baseLba write) := by
  refine transferLoop_triple _ (fun _ => Working) _ (fun _ _ _ _ working => working) ?_
    journalMetadataSectors 0 (by omega) (Nat.zero_le _)
  intro i last order below _
  cases write with
  | true => exact (writeRun_sure order (by omega)).works
  | false => exact readRun_works order (by omega)

theorem writeHomeMetadata_works : Works writeHomeMetadata := by
  refine Works.of_result fun s working => ?_
  have place := s.volume.superblock.layout working.layout
  unfold writeHomeMetadata
  dsimp only
  rw [place.blockBitmapLba, place.inodeBitmapLba, place.inodeTableLba]
  have run {lba i last : Nat} (order : i < last) (below : lba + (last - i) ≤ dataLba) :
      Works (writeSectors lba (metadataRun s.volume.metadata i last) .durable) :=
    (writeSectors_sure .durable (by rw [metadataRun_length]; omega)
      (by rw [metadataRun_length]; exact below)).works
  have steps : Works (allOf [
      writeSectors blockBitmapLba (metadataRun s.volume.metadata 0 inodeBitmapIndex) .durable,
      writeSectors inodeBitmapLba
        (metadataRun s.volume.metadata inodeBitmapIndex inodeTableIndex) .durable,
      writeSectors inodeTableLba
        (metadataRun s.volume.metadata inodeTableIndex journalMetadataSectors) .durable]) :=
    (run (by decide) (by decide)).cons <| (run (by decide) (by decide)).cons <|
      (run (by decide) (by decide)).cons <| Triple.nil fun _ done => done
  exact steps.result working

theorem transferLoop_scripted (inside : baseLba + journalMetadataSectors ≤ dataLba) (left i : Nat) :
    Scripted (transferLoop map (writeRun baseLba) left i) := by
  induction left generalizing i with
  | zero => exact fun _ _ => ⟨0, fun _ => rfl⟩
  | succ left ih =>
    intro s working
    unfold transferLoop
    by_cases past : journalMetadataSectors ≤ i
    · simp only [past, if_true]
      exact ⟨0, fun _ => rfl⟩
    simp only [past, if_false]
    by_cases mapped : Bits.test map i = true
    · simp only [mapped, Bool.not_true, Bool.false_eq_true, if_false]
      obtain ⟨above, below⟩ := metadataRegionEnd_bounds (Nat.lt_of_not_le past)
      obtain ⟨low, high, _⟩ := runEnd_bounds map (metadataRegionEnd i)
        (metadataRegionEnd i - (i + 1)) (i + 1) above
      generalize runEnd map (metadataRegionEnd i)
        (metadataRegionEnd i - (i + 1)) (i + 1) = last at low high
      have order : i < last := by omega
      have bound : baseLba + last ≤ dataLba := by omega
      obtain ⟨t, done, after⟩ := (writeRun_sure order bound).works.run working
      obtain ⟨one, ran⟩ := (writeRun_sure order bound).scripted s working
      obtain ⟨two, rest⟩ := ih last _ after
      rw [done] at ran
      refine ⟨one + two, fun plan => ?_⟩
      rw [replicate_add, append_assoc, ran, done]
      exact rest plan
    · have unmapped : Bits.test map i = false := by simpa using mapped
      simp only [unmapped, Bool.not_false, if_true]
      exact ih (i + 1) s working

theorem transfer_sure (inside : baseLba + journalMetadataSectors ≤ dataLba) :
    Sure (transferMetadataSectors map baseLba true) :=
  ⟨transfer_works map baseLba true inside,
    transferLoop_scripted map inside journalMetadataSectors 0⟩

theorem applySteps_sure (seq : UInt32) {sb : Superblock}
    (layout : sb.layoutValid = true) : Sure (allOf (applySteps map seq sb)) := by
  have place := sb.layout layout
  unfold applySteps
  rw [place.journalLba, place.blockBitmapLba]
  have hdr : Sure (writeSectors journalLba
      [JournalHeader.codec (journalHeaderFor map seq)] .cached) :=
    writeSector_sure _ .cached (by decide)
  exact (transfer_sure map (by decide)).cons <| flushDisk_sure.cons <| hdr.cons <|
    (writeSuperblocks_sure _ _ _).cons <|
    flushDisk_sure.cons <| (transfer_sure map (by decide)).cons <| flushDisk_sure.cons .nil

end SavanXP.SxFS
