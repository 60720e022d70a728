import SavanXP.SxFS.CommitSafety

/-!
# What a commit leaves at home and in the data region

Whatever state the journal is in, a commit that works leaves the metadata in
memory at home, provided that what it skips is there already.  Its first
ordering point puts the data written before it on the medium, and it writes no
sector of the data region itself.
-/

namespace SavanXP.SxFS

open SavanXP.Library

/-- Home holds `content`, on the medium and in the cache. -/
def HomeHolds (content : Nat → Sector) (disk : Disk Sector) : Prop :=
  ∀ i, i < journalMetadataSectors → ∀ v, disk.possible (homeLba i) v →
    v = content i

variable {content : Nat → Sector}

theorem HomeHolds.touches {disk t : Disk Sector} {fresh : Nat → Sector → Prop}
    (home : HomeHolds content disk) (touches : disk.Touches fresh t)
    (outside : ∀ i < journalMetadataSectors, ∀ v, ¬ fresh (homeLba i) v) :
    HomeHolds content t :=
  fun i ins => touches.only (home i ins)
    (fun v new => (outside i ins v new).elim)

theorem HomeHolds.keeps {disk t : Disk Sector} (home : HomeHolds content disk)
    (keeps : disk.Keeps t) : HomeHolds content t :=
  home.touches keeps fun _ _ _ bad => bad

theorem HomeHolds.view {disk : Disk Sector} (home : HomeHolds content disk) {i : Nat}
    (ins : i < journalMetadataSectors) : disk.view (homeLba i) = content i :=
  home i ins _ (disk.view_possible _)

/-- The writes of a commit stay below the data region. -/
def belowData (a : Nat) (_ : Sector) : Prop := a < dataLba

/-- The data written before `base` is on the medium. -/
def DataLanded (base disk : Disk Sector) : Prop :=
  ∀ a, dataLba ≤ a → ∀ v, disk.possible a v → v = base.view a

/-- A commit that started on `base`, while it works. -/
structure Committing (base : Disk Sector) (home : Nat → Sector → Prop) (landed : Prop)
    (disk : Disk Sector) : Prop where
  touches : base.Touches belowData disk
  view : ∀ a, dataLba ≤ a → disk.view a = base.view a
  home : ∀ i, i < journalMetadataSectors → ∀ v, disk.possible (homeLba i) v →
    home i v
  data : landed → DataLanded base disk

section Committing

variable {base disk t : Disk Sector} {home : Nat → Sector → Prop} {landed : Prop}
  {fresh after : Nat → Sector → Prop} {old : Volume}

theorem Committing.step (now : Committing base home landed disk)
    (touches : disk.Touches fresh t) (below : ∀ a v, fresh a v → a < dataLba)
    (view : ∀ a, dataLba ≤ a → t.view a = disk.view a)
    (keep : ∀ i < journalMetadataSectors, ∀ v, home i v → after i v)
    (place : ∀ i < journalMetadataSectors, ∀ v, fresh (homeLba i) v → after i v) :
    Committing base after landed t := by
  refine ⟨now.touches.trans (touches.mono below), fun a high =>
    (view a high).trans (now.view a high), fun i ins => ?_, fun done => ?_⟩
  · exact touches.only (fun v held => keep i ins v (now.home i ins v held))
      (place i ins)
  · intro a high
    exact touches.only (now.data done a high)
      (fun v new => absurd (below a v new) (Nat.not_lt.mpr high))

/-- An ordering point. -/
theorem Committing.flushed (now : Committing base home landed disk) (keeps : disk.Keeps t)
    (only : ∀ a v, t.possible a v → v = disk.view a)
    (settled : ∀ i < journalMetadataSectors, after i (disk.view (homeLba i))) :
    Committing base after True t := by
  have view (a : Nat) : t.view a = disk.view a := only a _ (t.view_possible a)
  refine ⟨now.touches.trans (keeps.touches _), fun a high =>
    (view a).trans (now.view a high), fun i ins v held => ?_,
    fun _ a high v held => ?_⟩
  · rw [only _ _ held]
    exact settled i ins
  · rw [only _ _ held]
    exact now.view a high

variable {i : Nat}

theorem Committing.viewHome (now : Committing base home landed disk)
    (ins : i < journalMetadataSectors) : home i (disk.view (homeLba i)) :=
  now.home i ins _ (disk.view_possible _)

/-- Where a commit stopped. -/
def Stopped (base disk : Disk Sector) : Prop := base.Touches belowData disk

theorem Committing.stopped (now : Committing base home landed disk) (touches : disk.Touches fresh t)
    (below : ∀ a v, fresh a v → a < dataLba) : Stopped base t :=
  now.touches.trans (touches.mono below)

theorem slotLba_lt (ins : i < journalMetadataSectors) : slotLba i < dataLba := by
  simp only [slotLba, dataLba, inodeTableLba, inodeBitmapLba, blockBitmapLba, journalSectors]
  omega

theorem homeLba_lt (ins : i < journalMetadataSectors) : homeLba i < dataLba := by
  simp only [homeLba, dataLba, inodeTableLba, inodeBitmapLba, journalMetadataSectors] at ins ⊢
  omega

theorem journalLba_lt : journalLba < dataLba := by decide

theorem isCopy.lt_dataLba {a : Nat} (copy : isCopy a) : a < dataLba :=
  Nat.lt_trans copy.lt journalLba_lt

/-- Reads of the data region do not see writes below it. -/
theorem store_below {writes : List (Nat × Sector)} {view : Nat → Sector}
    (below : ∀ write ∈ writes, write.1 < dataLba) {a : Nat} (high : dataLba ≤ a) :
    store writes view a = view a :=
  store_other fun write listed same => by
    have := below write listed
    omega

variable {map : Bytes 196}

theorem committing_transfer {place : Nat → Nat} {baseLba : Nat} (shape : ∀ i, baseLba + i = place i)
    (below : ∀ i < journalMetadataSectors, place i < dataLba)
    (keep : ∀ i < journalMetadataSectors, ∀ v, home i v → after i v)
    (written : ∀ i pos, i < journalMetadataSectors →
      pos < journalMetadataSectors → Bits.test map pos = true →
      homeLba i = place pos → after i (metadataSector old.metadata pos)) :
    Triple (At old anyPast (Committing base home landed)) (transferMetadataSectors map baseLba true)
      (At old anyPast fun disk => Committing base after landed disk ∧
        ∀ i < journalMetadataSectors, Bits.test map i = true →
          disk.view (place i) = metadataSector old.metadata i) (At old anyPast (Stopped base)) := by
  have low : ∀ a v,
      mappedWrite map old.metadata baseLba journalMetadataSectors a v →
      a < dataLba := by
    rintro a v ⟨i, ins, _, rfl, _⟩
    exact shape i ▸ below i ins
  refine transfer_step (fun _ _ => trivial) (fun _ _ now touches => now.stopped touches low)
    (fun _ _ writes now touches wrote exact => ⟨?_, fun i ins mapped => ?_⟩)
  · refine now.step touches low (fun a high => ?_) keep ?_
    · rw [wrote.view]
      exact store_below (fun write listed => low write.1 write.2 ((exact _ _).mp listed)) high
    · rintro i ins v ⟨pos, bound, mapped, here, rfl⟩
      exact written i pos ins bound mapped (here.trans (shape pos))
  · rw [← shape]
    exact view_of_wrote wrote exact ins mapped

theorem committing_flush : Triple (At old anyPast (Committing base home landed)) flushDisk
      (At old anyPast (Committing base home True)) (At old anyPast (Stopped base)) :=
  flush_step (fun _ _ => trivial) (fun _ _ now keeps => now.touches.trans (keeps.touches _))
    (fun _ _ now keeps only => now.flushed keeps only fun _ ins => now.viewHome ins)

theorem committing_header (hdr : Sector) :
    Triple (At old anyPast (Committing base home landed)) (writeSectors journalLba [hdr] .cached)
      (At old anyPast (Committing base home landed)) (At old anyPast (Stopped base)) := by
  have low : ∀ a v, (a, v) ∈ cells journalLba [hdr] → a < dataLba :=
    fun a v written => (mem_cells_single.mp written).1 ▸ journalLba_lt
  refine write_step (fun _ _ => trivial) (fun _ _ now touches => now.stopped touches low)
    (fun _ _ now touches view _ => now.step touches low (fun a high => ?_)
      (fun _ _ _ same => same) (fun i _ v written => ?_))
  · rw [view]
    exact store_below (fun write listed => low write.1 write.2 listed) high
  · exact absurd (mem_cells_single.mp written).1 (homeLba_ne_journalLba i)

theorem committing_superblocks (lay : old.superblock.layoutValid = true)
    (seq flags : UInt32) (dur : Durability) :
    Triple (At old anyPast (Committing base home landed)) (writeSuperblocks seq flags dur)
      (At old anyPast (Committing base home landed)) (At old anyPast (Stopped base)) :=
  superblocks_step (fun _ _ => trivial) lay
    (fun _ _ _ now touches good => now.stopped touches fun a v new =>
      (good a v new).1.lt_dataLba)
    (fun _ _ _ now touches good view => now.step touches
      (fun a v new => (good a v new).1.lt_dataLba)
      (fun a high => view a fun copy => Nat.not_lt.mpr high copy.lt_dataLba)
      (fun _ _ _ same => same)
      (fun i _ _ new => absurd rfl ((good _ _ new).1.ne_homeLba i)))

end Committing

/-- What memory knows of home: unless a full commit is due, the snapshot. -/
def KnownHome (volume : Volume) (disk : Disk Sector) : Prop :=
  volume.snapshotValid = true → volume.fullCommitPending = false →
    HomeHolds (metadataSector volume.snapshot) disk

section Chain

variable {base : Disk Sector} {old : Volume}

/-- Home sectors a commit skips hold the metadata in memory. -/
def skippedHome (old : Volume) (i : Nat) (v : Sector) : Prop :=
  Bits.test (buildDirtyMap old).1 i = false → v = metadataSector old.metadata i

theorem KnownHome.skipped (known : KnownHome old base) (i : Nat)
    (ins : i < journalMetadataSectors) (v : Sector)
    (held : base.possible (homeLba i) v) : skippedHome old i v := by
  intro missing
  have tracked : Tracked old (metadataSector old.snapshot) := fun _ _ _ _ => rfl
  have clean := missing
  rw [(buildDirtyMap_spec old).1 i, decide_eq_true ins, Bool.true_and] at clean
  obtain ⟨settled, valid, same⟩ := unmapped_of_tracked tracked ins clean
  exact (known valid settled i ins v held).trans same

theorem committing_start (known : KnownHome old base) :
    Committing base (skippedHome old) False base :=
  ⟨Disk.Touches.refl _ _, fun _ _ => rfl, known.skipped, False.elim⟩

theorem committing_stage {landed : Prop} :
    Triple (At old anyPast (Committing base (skippedHome old) landed))
      (transferMetadataSectors (buildDirtyMap old).1 (journalLba + 1) true)
      (At old anyPast (Committing base (skippedHome old) landed)) (At old anyPast (Stopped base)) :=
  (committing_transfer (fun _ => rfl) (fun _ => slotLba_lt) (fun _ _ _ held => held)
    (fun i _ _ bound _ here => absurd here.symm (slotLba_ne_homeLba bound i))).consequence
    (fun _ held => held) (fun _ held => ⟨held.1, held.2.1.1, held.2.2⟩) (fun _ held => held)

/-- The mapped home sectors have been written. -/
def HomeWritten (base : Disk Sector) (old : Volume) (disk : Disk Sector) : Prop :=
  Committing base (skippedHome old) True disk ∧
    ∀ i, i < journalMetadataSectors → Bits.test (buildDirtyMap old).1 i = true →
      disk.view (homeLba i) = metadataSector old.metadata i

theorem committing_apply : Triple (At old anyPast (Committing base (skippedHome old) True))
      (transferMetadataSectors (buildDirtyMap old).1 blockBitmapLba true)
      (At old anyPast (HomeWritten base old)) (At old anyPast (Stopped base)) := by
  refine committing_transfer (fun _ => rfl) (fun _ => homeLba_lt) (fun _ _ _ held => held)
    (fun i pos _ _ _ here _ => ?_)
  obtain rfl : i = pos := Nat.add_left_cancel here
  rfl

/-- The metadata in memory is home. -/
def homeIs (old : Volume) (i : Nat) (v : Sector) : Prop :=
  v = metadataSector old.metadata i

theorem committing_settle : Triple (At old anyPast (HomeWritten base old)) flushDisk
      (At old anyPast (Committing base (homeIs old) True)) (At old anyPast (Stopped base)) :=
  flush_step (fun _ _ => trivial) (fun _ _ now keeps => now.1.touches.trans (keeps.touches _))
    (fun _ _ now keeps only => now.1.flushed keeps only fun i ins => by
      cases mapped : Bits.test (buildDirtyMap old).1 i with
      | true => exact now.2 i ins mapped
      | false => exact now.1.viewHome ins mapped)

theorem committing_steps (lay : old.superblock.layoutValid = true) :
    Triple (At old anyPast (Committing base (skippedHome old) False))
      (allOf (commitSteps (buildDirtyMap old).1 (old.superblock.sequence + 1) old.superblock))
      (At old anyPast (Committing base (homeIs old) True)) (At old anyPast (Stopped base)) := by
  have place := old.superblock.layout lay
  refine Triple.append (?_ : Triple _ _ (At old anyPast (Committing base (homeIs old) True)) _) ?_
  · unfold applySteps
    rw [place.journalLba, place.blockBitmapLba]
    exact committing_stage.cons <| committing_flush.cons <| (committing_header _).cons <|
      (committing_superblocks lay _ _ _).cons <| committing_flush.cons <|
      committing_apply.cons <| committing_settle.cons <| Triple.nil fun _ done => done
  · exact (committing_superblocks lay _ _ _).cons <| (clear_step lay (committing_header _)).cons <|
      committing_flush.cons <| Triple.nil fun _ done => done

end Chain

/-- What `commitMetadata` leaves, on any device and whatever the journal
holds. -/
structure CommitEffect (s : State) (done : Bool) (t : State) : Prop where
  volume : s.volume.Committed t.volume
  touches : Stopped s.disk t.disk
  worked : done = true → HomeHolds (metadataSector t.volume.metadata) t.disk ∧
    DataLanded s.disk t.disk ∧ t.volume.fullCommitPending = false
  failed : done = false → t.volume.fullCommitPending = true ∨
    s.volume.fullCommitPending = false ∧
      HomeHolds (metadataSector t.volume.metadata) t.disk ∧ s.disk.Keeps t.disk

theorem commitMetadata_effect {s : State} (lay : s.volume.superblock.layoutValid = true)
    (known : KnownHome s.volume s.disk) :
    CommitEffect s (commitMetadata s).1 (commitMetadata s).2 := by
  have none := (buildDirtyMap_spec s.volume).2
  unfold commitMetadata
  generalize built : buildDirtyMap s.volume = res at none
  dsimp only at none ⊢
  split
  · next nothing =>
    have clean := none.mp nothing
    have tracked : Tracked s.volume (metadataSector s.volume.snapshot) := fun _ _ _ _ => rfl
    obtain ⟨settled, valid, _⟩ := unmapped_of_tracked tracked (by decide) (clean 0 (by decide))
    have home : HomeHolds (metadataSector s.volume.metadata) s.disk := by
      intro i ins v held
      rw [known valid settled i ins v held]
      exact (unmapped_of_tracked tracked ins (clean i ins)).2.2
    have kept := home.keeps s.disk.flush_keeps
    refine ⟨⟨rfl, rfl, rfl, rfl, rfl, rfl, rfl, rfl, rfl⟩, s.disk.flush_keeps.touches _,
      fun done => ⟨kept, fun a _ v held => ?_, settled⟩,
      fun _ => .inr ⟨settled, kept, s.disk.flush_keeps⟩⟩
    exact Disk.flush_true_possible (Prod.ext done rfl) held
  · have steps := committing_steps lay s ⟨Volume.Restamped.refl _, committing_start known,
      fun _ _ => trivial⟩
    rw [built] at steps
    split
    · next t stopped =>
      rw [stopped] at steps
      obtain ⟨same, touches, _⟩ := steps.2 rfl
      exact ⟨{ same.committed with }, touches, nofun, fun _ => .inl rfl⟩
    · next t finished =>
      rw [finished] at steps
      obtain ⟨same, now, _⟩ := steps.1 rfl
      refine ⟨{ same.committed with }, now.touches, fun _ => ⟨?_, now.data trivial, rfl⟩,
        nofun⟩
      intro i ins v held
      rw [show t.volume.metadata = s.volume.metadata from same.metadata]
      exact now.home i ins v held

end SavanXP.SxFS
