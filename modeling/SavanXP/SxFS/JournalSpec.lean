import SavanXP.SxFS.Journal

/-!
# What the parts of a commit do

One specification for each function of the journal: the dirty map, the
transfers, the superblock writes and the cleared header.
-/

namespace SavanXP.SxFS

open SavanXP.Library List

/-! ## Superblocks -/

structure Superblock.Layout (sb : Superblock) : Prop where
  journalLba : sb.journalLba.toNat = SxFS.journalLba
  blockBitmapLba : sb.blockBitmapLba.toNat = SxFS.blockBitmapLba
  blockBitmapSectors : sb.blockBitmapSectors.toNat = SxFS.blockBitmapSectors
  inodeBitmapLba : sb.inodeBitmapLba.toNat = SxFS.inodeBitmapLba
  inodeBitmapSectors : sb.inodeBitmapSectors.toNat = SxFS.inodeBitmapSectors
  inodeTableLba : sb.inodeTableLba.toNat = SxFS.inodeTableLba
  inodeTableSectors : sb.inodeTableSectors.toNat = SxFS.inodeTableSectors
  dataLba : sb.dataLba.toNat = SxFS.dataLba
  total : SxFS.dataLba < sb.totalSectors.toNat
  totalMax : sb.totalSectors.toNat ≤ maxTotalSectors

variable {sb : Superblock}

theorem Superblock.layout (valid : sb.layoutValid = true) : sb.Layout := by
  simp only [layoutValid, Bool.and_eq_true, decide_eq_true_eq] at valid
  obtain ⟨⟨⟨⟨⟨⟨⟨⟨⟨⟨⟨⟨⟨⟨_, _⟩, journal⟩, _⟩, blockLba⟩, blockCount⟩, inodeLba⟩, inodeCount⟩,
    tableLba⟩, tableCount⟩, data⟩, _⟩, _⟩, total⟩, totalMax⟩ := valid
  exact ⟨journal, blockLba, blockCount, inodeLba, inodeCount, tableLba, tableCount, data,
    data ▸ UInt32.lt_iff_toNat_lt.mp total, totalMax⟩

theorem Superblock.layoutValid_of_valid (valid : superblockValid sb = true) :
    sb.layoutValid = true := by
  rw [superblockValid, Bool.and_eq_true] at valid
  exact valid.1

@[simp]
theorem Superblock.layoutValid_stamped (sb : Superblock) (seq flags : UInt32) :
    (sb.stamped seq flags).layoutValid = sb.layoutValid := rfl

theorem Superblock.valid_stamped (valid : sb.layoutValid = true) (seq flags : UInt32) :
    superblockValid (sb.stamped seq flags) = true := by
  rw [superblockValid, layoutValid_stamped, valid, Bool.true_and, decide_eq_true_eq]
  exact (superblockChecksum_withChecksum { sb with sequence := seq, flags := flags } _).symm

@[simp]
theorem Superblock.stamped_totalSectors (sb : Superblock) (seq flags : UInt32) :
    (sb.stamped seq flags).totalSectors = sb.totalSectors := rfl

theorem Superblock.dataLba_eq {left right : Superblock} (one : left.layoutValid = true)
    (two : right.layoutValid = true) : left.dataLba = right.dataLba :=
  UInt32.toNat_inj.mp ((layout one).dataLba.trans (layout two).dataLba.symm)

/-! ## The dirty map -/

theorem dirtyFold (changed : Nat → Bool) (n : Nat) (small : n ≤ 1568) :
    let res := (range n).foldl
      (fun (pair : Bytes 196 × Nat) i =>
        if changed i then (Bits.set pair.1 i true, pair.2 + 1) else pair)
      (fun _ => 0, 0)
    (∀ o, Bits.test res.1 o = (decide (o < n) && changed o)) ∧
      (res.2 = 0 ↔ ∀ i < n, changed i = false) := by
  induction n with
  | zero =>
    refine ⟨fun o => ?_, by simp⟩
    unfold Bits.test
    split
    · rw [Bits.and_mask_ne_zero]
      exact Nat.zero_testBit _
    · rfl
  | succ n ih =>
    obtain ⟨bits, none⟩ := ih (by omega)
    simp only [range_succ, foldl_append, foldl_cons, foldl_nil]
    split
    · next here =>
      refine ⟨fun o => ?_, ?_⟩
      · rw [Bits.test_set _ (by omega), bits]
        by_cases same : o = n
        · simp [same, here]
        · have split : o < n + 1 ↔ o < n := by omega
          simp [same, split]
      · constructor
        · intro bad
          omega
        · intro nothing
          rw [nothing n (by omega)] at here
          cases here
    · next here =>
      have unchanged : changed n = false := by simpa using here
      refine ⟨fun o => ?_, ?_⟩
      · rw [bits]
        by_cases same : o = n
        · simp [same, unchanged]
        · have split : o < n + 1 ↔ o < n := by omega
          simp [split]
      · rw [none]
        constructor
        · intro nothing i ins
          by_cases last : i = n
          · rw [last, unchanged]
          · exact nothing i (by omega)
        · intro nothing i ins
          exact nothing i (by omega)

/-- What the dirty map compares. -/
def Volume.sectorDirty (vol : Volume) (i : Nat) : Bool :=
  (!vol.snapshotValid || vol.fullCommitPending) ||
    decide (metadataSector vol.metadata i ≠ metadataSector vol.snapshot i)

theorem buildDirtyMap_spec (vol : Volume) : (∀ i, Bits.test (buildDirtyMap vol).1 i =
      (decide (i < journalMetadataSectors) && vol.sectorDirty i)) ∧
    ((buildDirtyMap vol).2 = 0 ↔ ∀ i < journalMetadataSectors, vol.sectorDirty i = false) := by
  unfold buildDirtyMap
  exact dirtyFold vol.sectorDirty journalMetadataSectors (by decide)

/-! ## Transfers -/

theorem runEnd_bounds (map : Bytes 196) (limit left last : Nat) (below : last ≤ limit) :
    last ≤ runEnd map limit left last ∧ runEnd map limit left last ≤ limit ∧
      ∀ i, last ≤ i → i < runEnd map limit left last → Bits.test map i = true := by
  induction left generalizing last with
  | zero => exact ⟨le_rfl, below, fun i low high => by rw [runEnd] at high; omega⟩
  | succ left ih =>
    unfold runEnd
    split
    · next continues =>
      simp only [Bool.and_eq_true, decide_eq_true_eq] at continues
      obtain ⟨low, high, mapped⟩ := ih (last + 1) continues.1
      refine ⟨by omega, high, fun i start stop => ?_⟩
      by_cases here : i = last
      · rw [here]
        exact continues.2
      · exact mapped i (by omega) stop
    · exact ⟨le_rfl, below, fun i low high => by omega⟩

variable {i : Nat}

theorem metadataRegionEnd_bounds (ins : i < journalMetadataSectors) :
    i < metadataRegionEnd i ∧ metadataRegionEnd i ≤ journalMetadataSectors := by
  unfold metadataRegionEnd
  split
  · next first => exact ⟨first, by decide⟩
  · split
    · next second => exact ⟨second, by decide⟩
    · exact ⟨ins, le_rfl⟩

variable {map : Bytes 196}

/-- The loop rule: `reached i` holds when everything below `i` has been
transferred. -/
theorem transferLoop_triple (command : Nat → Nat → Action State) (reached : Nat → State → Prop)
    (fails : State → Prop) (skip : ∀ i s, i < journalMetadataSectors → Bits.test map i = false →
      reached i s → reached (i + 1) s) (run : ∀ i last, i < last → last ≤ journalMetadataSectors →
      (∀ pos, i ≤ pos → pos < last → Bits.test map pos = true) →
      Triple (reached i) (command i last) (reached last) fails) (left i : Nat)
    (enough : journalMetadataSectors ≤ i + left) (ins : i ≤ journalMetadataSectors) :
    Triple (reached i) (transferLoop map command left i)
      (reached journalMetadataSectors) fails := by
  induction left generalizing i with
  | zero =>
    intro s held
    have done : i = journalMetadataSectors := by omega
    exact ⟨fun _ => done ▸ held, nofun⟩
  | succ left ih =>
    intro s held
    unfold transferLoop
    split
    · next past =>
      have done : i = journalMetadataSectors := by omega
      exact ⟨fun _ => done ▸ held, nofun⟩
    · next more =>
      have here : i < journalMetadataSectors := by omega
      split
      · next clear =>
        have unmapped : Bits.test map i = false := by simpa using clear
        exact ih (i + 1) (by omega) (by omega) s (skip i s here unmapped held)
      · next set =>
        have mapped : Bits.test map i = true := by simpa using set
        obtain ⟨above, below⟩ := metadataRegionEnd_bounds here
        obtain ⟨low, high, continued⟩ := runEnd_bounds map (metadataRegionEnd i)
          (metadataRegionEnd i - (i + 1)) (i + 1) above
        dsimp only
        generalize runEnd map (metadataRegionEnd i)
          (metadataRegionEnd i - (i + 1)) (i + 1) = last at low high continued
        have step := run i last (by omega) (by omega) (fun pos start stop => by
          by_cases first : pos = i
          · rw [first]
            exact mapped
          · exact continued pos (by omega) stop) s held
        split
        · next t ran =>
          rw [ran] at step
          exact ⟨nofun, fun _ => step.2 rfl⟩
        · next t ran =>
          rw [ran] at step
          exact ih last (by omega) (by omega) t (step.1 rfl)

variable {md : Metadata} {baseLba a : Nat} {v : Sector}

theorem mem_cells_metadataRun {last : Nat} : (a, v) ∈ cells (baseLba + i) (metadataRun md i last) ↔
      ∃ pos, i ≤ pos ∧ pos < last ∧ a = baseLba + pos ∧ v = metadataSector md pos := by
  rw [mem_cells]
  simp only [metadataRun, getElem?_map, Option.map_eq_some_iff]
  constructor
  · rintro ⟨off, pos, e, found, rfl⟩
    obtain ⟨ins, rfl⟩ := List.getElem?_eq_some_iff.mp found
    simp only [length_range] at ins
    simp only [getElem_range]
    exact ⟨i + off, by omega, by omega, by omega, rfl⟩
  · rintro ⟨pos, low, high, rfl, rfl⟩
    refine ⟨pos - i, by omega, pos - i, ?_, by rw [Nat.add_sub_cancel' low]⟩
    rw [getElem?_range (by omega)]

/-- The writes of a transfer: the mapped sectors below `n`. -/
def mappedWrite (map : Bytes 196) (md : Metadata) (baseLba n a : Nat) (v : Sector) :
    Prop :=
  ∃ i, i < n ∧ Bits.test map i = true ∧ a = baseLba + i ∧
    v = metadataSector md i

theorem mappedWrite_succ {n : Nat} (unmapped : Bits.test map n = false) :
    mappedWrite map md baseLba (n + 1) a v ↔ mappedWrite map md baseLba n a v := by
  simp only [mappedWrite, Nat.lt_succ_iff_lt_or_eq, or_and_right, exists_or]
  simp [unmapped]

theorem mappedWrite_run {last : Nat} (order : i < last)
    (run : ∀ pos, i ≤ pos → pos < last → Bits.test map pos = true) :
    mappedWrite map md baseLba last a v ↔ mappedWrite map md baseLba i a v ∨
        (a, v) ∈ cells (baseLba + i) (metadataRun md i last) := by
  rw [mem_cells_metadataRun]
  constructor
  · rintro ⟨pos, ins, mapped, place, content⟩
    by_cases early : pos < i
    · exact .inl ⟨pos, early, mapped, place, content⟩
    · exact .inr ⟨pos, by omega, ins, place, content⟩
  · rintro (⟨pos, ins, mapped, place, content⟩ | ⟨pos, low, high, place, content⟩)
    · exact ⟨pos, by omega, mapped, place, content⟩
    · exact ⟨pos, high, run pos low high, place, content⟩

/-- A transfer to the device writes mapped sectors only, all of them when it
works, and leaves the volume alone. -/
theorem transfer_write (map : Bytes 196) (baseLba : Nat) (old : State) :
    Triple (fun s => s = old) (transferMetadataSectors map baseLba true)
      (fun s => s.volume = old.volume ∧ old.disk.Touches
          (mappedWrite map old.volume.metadata baseLba journalMetadataSectors) s.disk ∧
        ∃ writes, old.disk.Wrote writes s.disk ∧ ∀ a v, (a, v) ∈ writes ↔
            mappedWrite map old.volume.metadata baseLba journalMetadataSectors a v)
      (fun s => s.volume = old.volume ∧ old.disk.Touches
          (mappedWrite map old.volume.metadata baseLba journalMetadataSectors) s.disk) := by
  refine (transferLoop_triple (writeRun baseLba) (fun i s => s.volume = old.volume ∧
      old.disk.Touches
        (mappedWrite map old.volume.metadata baseLba journalMetadataSectors) s.disk ∧
      ∃ writes, old.disk.Wrote writes s.disk ∧
        ∀ a v, (a, v) ∈ writes ↔ mappedWrite map old.volume.metadata baseLba i a v)
    _ ?_ ?_ journalMetadataSectors 0 (by omega) (Nat.zero_le _)).consequence ?_
      (fun s done => done) (fun s failed => failed)
  · rintro i s ins unmapped ⟨same, touches, writes, wrote, exact⟩
    exact ⟨same, touches, writes, wrote, fun a v =>
      (exact a v).trans (mappedWrite_succ unmapped).symm⟩
  · rintro i last order ins run s ⟨same, touches, writes, wrote, exact⟩
    have command := s.disk.writeCached_touches (baseLba + i)
      (metadataRun s.volume.metadata i last)
    have fresh : ∀ a v,
        (a, v) ∈ cells (baseLba + i) (metadataRun s.volume.metadata i last) →
        mappedWrite map old.volume.metadata baseLba journalMetadataSectors a v := by
      intro a v written
      rw [same] at written
      obtain ⟨pos, stop, mapped, place⟩ := (mappedWrite_run order run).mpr (.inr written)
      exact ⟨pos, by omega, mapped, place⟩
    have touched := touches.trans (command.mono fresh)
    refine ⟨fun worked => ⟨same, touched, ?_⟩, fun _ => ⟨same, touched⟩⟩
    have done := Disk.writeCached_wrote (Prod.ext worked rfl)
    refine ⟨_, wrote.trans done, fun a v => ?_⟩
    rw [mem_append, exact, mappedWrite_run order run, same]
  · rintro s rfl
    refine ⟨rfl, Disk.Touches.refl _ _, [], Disk.Wrote.nil _, fun a v => ?_⟩
    simp [mappedWrite]

/-- A transfer from the device replaces the mapped sectors in memory by what it
reads and touches nothing else. -/
theorem transfer_read (map : Bytes 196) (baseLba : Nat) (old : State) :
    Triple (fun s => s = old) (transferMetadataSectors map baseLba false)
      (fun s => old.disk.Keeps s.disk ∧ s.disk.view = old.disk.view ∧
        s.volume = { old.volume with metadata := s.volume.metadata } ∧
        ∀ i < journalMetadataSectors, metadataSector s.volume.metadata i =
            if Bits.test map i then old.disk.view (baseLba + i)
            else metadataSector old.volume.metadata i)
      (fun s => old.disk.Keeps s.disk ∧
        s.volume = { old.volume with metadata := s.volume.metadata }) := by
  refine (transferLoop_triple (readRun baseLba) (fun reached s => old.disk.Keeps s.disk ∧
      s.disk.view = old.disk.view ∧
      s.volume = { old.volume with metadata := s.volume.metadata } ∧
      ∀ i < journalMetadataSectors,
        metadataSector s.volume.metadata i =
          if i < reached ∧ Bits.test map i then old.disk.view (baseLba + i)
          else metadataSector old.volume.metadata i)
    (fun s => old.disk.Keeps s.disk ∧ s.volume = { old.volume with metadata := s.volume.metadata })
    ?_ ?_ journalMetadataSectors 0 (by omega) (Nat.zero_le _)).consequence ?_ ?_
      (fun s failed => failed)
  · rintro reached s ins unmapped ⟨keeps, same, frame, sectors⟩
    refine ⟨keeps, same, frame, fun i below => ?_⟩
    rw [sectors i below]
    by_cases here : i = reached
    · subst here
      rw [unmapped]
      simp
    · have split : i < reached + 1 ↔ i < reached := by omega
      simp only [split]
  · rintro reached last order ins run s ⟨keeps, same, frame, sectors⟩
    have command := s.disk.read_keeps (baseLba + reached) (last - reached)
    unfold readRun
    split
    · next t missing =>
      rw [missing] at command
      exact ⟨nofun, fun _ => ⟨keeps.trans command, frame⟩⟩
    · next buf t found =>
      rw [found] at command
      obtain ⟨content, ticked⟩ := Disk.read_some found
      refine ⟨fun _ => ⟨keeps.trans command, ?_, ?_, fun i below => ?_⟩, nofun⟩
      · rw [ticked, Disk.view_tick, same]
      · exact congrArg (fun vol : Volume =>
          { vol with metadata := s.volume.metadata.storeRun reached last buf }) frame
      rw [Metadata.storeRun, metadataSector_ofSectors _ below, content, same]
      by_cases early : i < reached
      · rw [if_neg (by omega), sectors i below]
        have both : i < last := by omega
        simp only [early, both, true_and]
      · by_cases late : last ≤ i
        · rw [if_neg (by omega), sectors i below, if_neg (by omega), if_neg (by omega)]
        · rw [if_pos (by omega), if_pos ⟨by omega, run i (by omega) (by omega)⟩]
          beta_reduce
          rw [Nat.add_assoc, Nat.add_sub_cancel' (Nat.le_of_not_lt early)]
  · rintro s rfl
    exact ⟨Disk.Touches.refl _ _, rfl, rfl, fun i below => by simp⟩
  · rintro s ⟨keeps, same, frame, sectors⟩
    refine ⟨keeps, same, frame, fun i below => ?_⟩
    rw [sectors i below]
    simp only [below, true_and]

/-! ## Superblock copies and the header -/

theorem writeSectors_touches (lba : Nat) (data : List Sector) (dur : Durability)
    (s : State) : ((writeSectors lba data dur s).2.volume = s.volume) ∧
      s.disk.Touches (fun a v => (a, v) ∈ cells lba data) (writeSectors lba data dur s).2.disk := by
  cases dur with
  | cached => exact ⟨rfl, s.disk.writeCached_touches lba data⟩
  | durable => exact ⟨rfl, s.disk.write_touches lba data⟩

theorem onDisk_true {command : Disk Sector → Bool × Disk Sector} {s t : State}
    (done : onDisk command s = (true, t)) : command s.disk = (true, t.disk) := by
  have worked : (command s.disk).1 = true := congrArg Prod.fst done
  exact Prod.ext worked (congrArg (fun res : Bool × State => res.2.disk) done)

theorem writeSectors_view {lba : Nat} {data : List Sector} {dur : Durability}
    {s t : State} (done : writeSectors lba data dur s = (true, t)) :
    t.disk.view = store (cells lba data) s.disk.view := by
  cases dur with
  | cached => exact (Disk.writeCached_wrote (onDisk_true done)).view
  | durable =>
    obtain ⟨drained, med⟩ := Disk.write_true (onDisk_true done)
    rw [Disk.view, drained, med]
    rfl

/-- A durable write that works leaves nothing cached. -/
theorem writeSectors_durable {lba : Nat} {data : List Sector} {s t : State}
    (done : writeSectors lba data .durable s = (true, t)) : t.disk.cached = [] :=
  (Disk.write_true (onDisk_true done)).1

end SavanXP.SxFS
