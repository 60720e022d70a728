import SavanXP.SxFS.Directories
import SavanXP.SxFS.Validity

/-!
# Where the sectors of an inode are

Every extent in use lies in the data region: when a volume is mounted because
that was checked, and later because sectors are taken nowhere else.  So what is
written into an inode never reaches the metadata at home.
-/

namespace SavanXP.SxFS

open SavanXP.Library List Function
open SavanXP.Library.Fallible (Along)

/-- The extent is empty or lies in the data region. -/
def Extent.Placed (extent : Extent) : Prop :=
  extent.sectorCount.toNat ≠ 0 →
    dataLba ≤ extent.startLba.toNat ∧ extent.startLba.toNat + extent.sectorCount.toNat < 2 ^ 32

def Inode.Placed (inode : Inode) : Prop := ∀ extent ∈ inode.usedExtents, extent.Placed

def Metadata.Placed (md : Metadata) : Prop := ∀ id, (md.inodes id).Placed

variable {sb : Superblock} {md : Metadata}

/-- Mounting checks every extent in use. -/
theorem Metadata.placed_of_valid (lay : sb.layoutValid = true)
    (valid : homeMetadataIsValid sb md = true) : md.Placed := by
  intro id extent used _
  obtain ⟨_, each, _⟩ := (homeMetadataIsValid_iff lay md).mp valid
  have passed := extentsAreValid_mem (inodeMetadataIsValid_extents (each id).2) used
  obtain ⟨_, low, high⟩ := extentIsValid_iff.mp passed
  rw [(sb.layout lay).dataLba] at low
  exact ⟨low, high.trans_lt sb.totalSectors.toNat_lt⟩

variable {inode : Inode}

theorem Inode.mem_usedExtents {extent : Extent} : extent ∈ inode.usedExtents ↔
      ∃ i : Fin 8, i.val < inode.extentCount.toNat ∧ inode.extents i = extent := by
  simp only [Inode.usedExtents, mem_iff_getElem?, List.getElem?_take, List.getElem?_ofFn]
  constructor
  · rintro ⟨i, found⟩
    split_ifs at found with used ins
    exact ⟨⟨i, ins⟩, used, Option.some.inj found⟩
  · rintro ⟨i, used, rfl⟩
    exact ⟨i.val, by rw [if_pos used, dif_pos i.isLt]⟩

/-- The extents in use are the same. -/
theorem Inode.Placed.like {new : Inode} (placed : inode.Placed)
    (extents : new.extents = inode.extents) (n : new.extentCount = inode.extentCount) :
    new.Placed := by
  unfold Inode.Placed Inode.usedExtents
  rw [extents, n]
  exact placed

theorem Inode.placed_of_none (none : inode.extentCount = 0) : inode.Placed := by
  intro extent used
  rw [Inode.usedExtents, none] at used
  cases used

@[simp]
theorem Metadata.setInode_self (md : Metadata) (id : Fin 4096) (inode : Inode) :
    (md.setInode id inode).inodes id = inode :=
  update_self _ _ _

theorem Metadata.setInode_other (md : Metadata) {id other : Fin 4096} (inode : Inode)
    (ne : other ≠ id) : (md.setInode id inode).inodes other = md.inodes other :=
  update_of_ne ne _ _

theorem Metadata.Placed.setInode (placed : md.Placed) (id : Fin 4096) (new : inode.Placed) :
    (md.setInode id inode).Placed :=
  (forall_update_iff md.inodes fun _ inode => inode.Placed).mpr ⟨new, fun other _ => placed other⟩

theorem ofNat_toNat {v : Nat} (small : v < 2 ^ 32) : (UInt32.ofNat v).toNat = v :=
  UInt32.toNat_ofNat_of_lt' small

/-! ## Taking sectors -/

theorem findFreeRunFrom_bounds {size : Nat} {blockBitmap : Bytes size} {required first : Nat}
    (left sector runStart runLength : Nat)
    (opened : runLength ≠ 0 → runStart + runLength = sector ∧ first ≤ runStart)
    (free : ∀ v, sector ≤ v + runLength → v < sector → bitmapTest blockBitmap v = false)
    (low : first ≤ sector) (short : runLength < required)
    (found : findFreeRunFrom blockBitmap required left sector runStart runLength ≠ 0) :
    first ≤ findFreeRunFrom blockBitmap required left sector runStart runLength ∧
      findFreeRunFrom blockBitmap required left sector runStart runLength + required ≤
        sector + left ∧
      ∀ v, findFreeRunFrom blockBitmap required left sector runStart runLength ≤ v →
        v < findFreeRunFrom blockBitmap required left sector runStart runLength + required →
        bitmapTest blockBitmap v = false := by
  induction left generalizing sector runStart runLength with
  | zero => exact absurd rfl found
  | succ left ih =>
    rw [findFreeRunFrom] at found ⊢
    split at found
    · next isFree =>
      rw [if_pos isFree]
      have freeHere : ∀ v, sector + 1 ≤ v + (runLength + 1) → v < sector + 1 →
          bitmapTest blockBitmap v = false := by
        intro v above below
        rcases Nat.lt_succ_iff_lt_or_eq.mp below with old | rfl
        · exact free v (by omega) old
        · rw [bitmapTest]
          simpa using isFree
      have extended : (if runLength = 0 then sector else runStart) + (runLength + 1) =
          sector + 1 ∧ first ≤ (if runLength = 0 then sector else runStart) := by
        split
        · next none => exact ⟨by omega, low⟩
        · next filled => exact ⟨by have := (opened filled).1; omega, (opened filled).2⟩
      dsimp only at found ⊢
      split at found
      · next enough =>
        rw [if_pos enough]
        exact ⟨extended.2, by omega, fun v above below => freeHere v (by omega) (by omega)⟩
      · next more =>
        rw [if_neg more]
        have t := ih (sector + 1) _ (runLength + 1) (fun _ => extended) freeHere (by omega)
          (by omega) found
        exact ⟨t.1, by omega, t.2.2⟩
    · next used =>
      rw [if_neg used]
      have t := ih (sector + 1) runStart 0 (fun filled => absurd rfl filled)
        (fun v above below => by omega) (by omega) (by omega) found
      exact ⟨t.1, by omega, t.2.2⟩

theorem bestFreeRun_bounds (lay : sb.layoutValid = true) {blockBitmap : Bytes 262144}
    {limit best runStart : Nat} (found : bestFreeRun sb blockBitmap limit = (best, runStart))
    (filled : best ≠ 0) : dataLba ≤ runStart ∧ runStart + best ≤ sb.totalSectors.toNat ∧
      ∀ v, runStart ≤ v → v < runStart + best → bitmapTest blockBitmap v = false := by
  have place := sb.layout lay
  induction limit with
  | zero =>
    cases found
    exact absurd rfl filled
  | succ limit ih =>
    rw [bestFreeRun] at found
    split at found
    · next here =>
      cases found
      have total := place.total
      rw [findFreeRun, place.dataLba] at here ⊢
      have bounds := findFreeRunFrom_bounds _ dataLba 0 0 (fun none => absurd rfl none)
        (fun v above below => by omega) le_rfl (Nat.succ_pos limit) here
      rw [Nat.add_sub_cancel' (Nat.le_of_lt total)] at bounds
      exact bounds
    · exact ih found

theorem appendExtent_placed {t : Inode} {runStart n : Nat} (placed : inode.Placed)
    (low : dataLba ≤ runStart) (high : runStart + n < 2 ^ 32)
    (appended : appendExtent inode (UInt32.ofNat runStart) (UInt32.ofNat n) = some t) :
    t.Placed := by
  have start : (UInt32.ofNat runStart).toNat = runStart := ofNat_toNat (by omega)
  have length : (UInt32.ofNat n).toNat = n := ofNat_toNat (by omega)
  simp only [appendExtent] at appended
  split at appended
  · cases appended
    exact placed
  split at appended
  · next adjacent =>
    cases appended
    intro extent used
    obtain ⟨i, ins, rfl⟩ := Inode.mem_usedExtents.mp used
    have old : (inode.extents i).Placed := placed _ (Inode.mem_usedExtents.mpr ⟨i, ins, rfl⟩)
    by_cases last : i.val = inode.extentCount.toNat - 1
    · have same : inode.extentAt (inode.extentCount.toNat - 1) = inode.extents i := by
        simp only [Inode.extentAt, ← last, i.isLt, dif_pos]
      rw [same] at adjacent ⊢
      have joined : ((inode.extents i).startLba.toNat +
          (inode.extents i).sectorCount.toNat) % 2 ^ 32 = runStart := by
        rw [← start, ← adjacent.2, UInt32.toNat_add]
      have bound := (inode.extents i).startLba.toNat_lt
      intro _
      simp only [Inode.setExtent, last, if_true, UInt32.toNat_add, length]
      unfold Extent.Placed at old
      omega
    · simp only [Inode.setExtent, last, if_false]
      exact old
  split at appended
  · cases appended
  · next room =>
    cases appended
    intro extent used
    obtain ⟨i, ins, rfl⟩ := Inode.mem_usedExtents.mp used
    by_cases last : i.val = inode.extentCount.toNat
    · simp only [Inode.setExtent, last, if_true, Extent.Placed, start, length]
      exact fun _ => ⟨low, high⟩
    have earlier : i.val < inode.extentCount.toNat := by
      have below : i.val < (inode.extentCount + 1).toNat := ins
      rw [UInt32.toNat_add, show (1 : UInt32).toNat = 1 from rfl] at below
      omega
    simp only [Inode.setExtent, last, if_false]
    exact placed _ (Inode.mem_usedExtents.mpr ⟨i, earlier, rfl⟩)

theorem allocateLoop_placed (lay : sb.layoutValid = true) (fuel : Nat) {additional : Nat}
    {blockBitmap : Bytes 262144} (placed : inode.Placed) :
    (allocateLoop sb fuel additional blockBitmap inode).2.2.Placed := by
  induction fuel generalizing additional blockBitmap inode with
  | zero => exact placed
  | succ fuel ih =>
    rw [allocateLoop]
    split
    · exact placed
    generalize found : bestFreeRun sb blockBitmap additional = run
    dsimp only
    split
    · exact placed
    · next some =>
      obtain ⟨low, high, _⟩ := bestFreeRun_bounds lay found some
      split
      · exact placed
      · next grown appended =>
        exact ih (appendExtent_placed placed low
          (high.trans_lt sb.totalSectors.toNat_lt) appended)

theorem ensureInodeCapacity_placed (lay : sb.layoutValid = true) (id : Fin 4096)
    (requiredSize : Nat) (placed : md.Placed) :
    (ensureInodeCapacity sb id requiredSize md).2.Placed := by
  simp only [ensureInodeCapacity]
  split
  · exact placed
  · have marked : ∀ blockBitmap, Metadata.Placed { md with blockBitmap := blockBitmap } :=
      fun _ => placed
    exact (marked _).setInode id (allocateLoop_placed lay _ (placed id))

/-! ## Giving sectors back -/

theorem shrinkLoop_placed (target kept : Nat) {extents : List Extent} (blockBitmap : Bytes 262144)
    (placed : ∀ extent ∈ extents, extent.Placed) :
    (shrinkLoop target kept extents blockBitmap).1.length = extents.length ∧
      ∀ extent ∈ (shrinkLoop target kept extents blockBitmap).1, extent.Placed := by
  induction extents generalizing kept blockBitmap with
  | nil => exact ⟨rfl, placed⟩
  | cons extent rest ih =>
    obtain ⟨here, others⟩ := forall_mem_cons.mp placed
    rw [shrinkLoop]
    split
    · obtain ⟨length, each⟩ := ih kept (bitmapSetAll blockBitmap extent.sectors false) others
      exact ⟨by simp [length], forall_mem_cons.mpr ⟨(absurd rfl ·), each⟩⟩
    · split
      · obtain ⟨length, each⟩ := ih (kept + extent.sectorCount.toNat) blockBitmap others
        exact ⟨by simp [length], forall_mem_cons.mpr ⟨here, each⟩⟩
      · next part =>
        obtain ⟨length, each⟩ := ih target
          (bitmapSetAll blockBitmap (extent.sectors.drop (target - kept)) false) others
        refine ⟨by simp [length], forall_mem_cons.mpr ⟨fun _ => ?_, each⟩⟩
        have limit := extent.sectorCount.toNat_lt
        have short : (UInt32.ofNat (target - kept)).toNat = target - kept :=
          ofNat_toNat (by omega)
        have := here (by omega)
        simp only [short]
        omega

theorem shrinkInodeToSectors_placed (placed : md.Placed) (id : Fin 4096) (target : Nat) :
    (shrinkInodeToSectors md id target).Placed := by
  obtain ⟨length, each⟩ := shrinkLoop_placed target 0 md.blockBitmap (placed id)
  have kept : Metadata.Placed { md with
      blockBitmap := (shrinkLoop target 0 (md.inodes id).usedExtents md.blockBitmap).2 } := placed
  refine kept.setInode id fun extent used => ?_
  obtain ⟨i, ins, rfl⟩ := Inode.mem_usedExtents.mp used
  generalize shrinkLoop target 0 (md.inodes id).usedExtents md.blockBitmap = shrunk at *
  have few : (shrunk.1.takeWhile (·.sectorCount ≠ 0)).length ≤ shrunk.1.length :=
    (takeWhile_sublist _).length_le
  have most : (UInt32.ofNat (shrunk.1.takeWhile (·.sectorCount ≠ 0)).length).toNat ≤
      (shrunk.1.takeWhile (·.sectorCount ≠ 0)).length := by
    exact Nat.mod_le _ _
  have within : i.val < shrunk.1.length := by
    have : i.val < (UInt32.ofNat (shrunk.1.takeWhile (·.sectorCount ≠ 0)).length).toNat := ins
    omega
  change (shrunk.1.getD i.val _).Placed
  rw [getD_eq_getElem _ _ within]
  exact each _ (getElem_mem within)

theorem freeInodeBlocks_placed (placed : md.Placed) (id : Fin 4096) :
    (freeInodeBlocks md id).Placed := by
  have kept : Metadata.Placed { md with
      blockBitmap := bitmapSetAll md.blockBitmap (md.inodes id).sectors false } := placed
  exact kept.setInode id (Inode.placed_of_none rfl)

theorem releaseInodeId_placed (placed : md.Placed) (inodeId : UInt32) :
    (releaseInodeId md inodeId).Placed := by
  unfold releaseInodeId
  split
  · exact placed
  · next id _ =>
    have kept : Metadata.Placed { md with
        inodeBitmap := bitmapSet md.inodeBitmap id.val false } := placed
    exact kept.setInode id (Inode.placed_of_none rfl)

/-! ## Reading and writing contents -/

/-- The writes of an operation lie in the data region. -/
def inData (a : Nat) (_ : Sector) : Prop := dataLba ≤ a

/-- The volume is the same and the device got nothing new. -/
structure Observed (s t : State) : Prop where
  volume : t.volume = s.volume
  keeps : s.disk.Keeps t.disk

/-- The volume is the same and the device got new data at most. -/
structure Wrote (s t : State) : Prop where
  volume : t.volume = s.volume
  touches : s.disk.Touches inData t.disk

instance : IsPreorder State Observed where
  refl _ := ⟨rfl, Disk.Touches.refl _ _⟩
  trans _ _ _ one two := ⟨two.volume.trans one.volume, one.keeps.trans two.keeps⟩

instance : IsPreorder State Wrote where
  refl _ := ⟨rfl, Disk.Touches.refl _ _⟩
  trans _ _ _ one two := ⟨two.volume.trans one.volume, one.touches.trans two.touches⟩

theorem Observed.wrote {s t : State} (seen : Observed s t) : Wrote s t :=
  ⟨seen.volume, seen.keeps.touches _⟩

theorem readDisk_reads (lba n : Nat) : Along Observed (readDisk lba n) :=
  fun s => ⟨rfl, s.disk.read_keeps lba n⟩

theorem readInodeBytes_reads (inode : Inode) (off n : Nat) :
    Along Observed (readInodeBytes inode off n) := by
  have loop : ∀ fuel rem off, Along Observed (readLoop inode fuel rem off) := by
    intro fuel
    induction fuel with
    | zero => exact fun _ _ => .pure []
    | succ fuel ih =>
      intro rem off
      unfold readLoop
      split
      · exact .pure []
      · exact (Along.ofOption _).bind fun _ => (readDisk_reads _ 1).bind fun _ =>
          (ih _ _).bind fun _ => .pure _
  unfold readInodeBytes
  split
  · exact .pure []
  · exact (Along.require _).bind fun _ => loop n n off

variable (dir : Inode)

theorem readDirEntry_reads (off : Nat) : Along Observed (readDirEntry dir off) :=
  (Along.require _).bind fun _ => (readInodeBytes_reads _ _ _).bind fun _ =>
    Along.get.bind fun _ => (Along.require _).bind fun _ => .pure _

theorem findDirectoryEntry_reads (name : Path) :
    Along Observed (findDirectoryEntry dir name) := by
  have loop : ∀ offsets, Along Observed (findEntryLoop dir name offsets) := by
    intro offsets
    induction offsets with
    | nil => exact .fail
    | cons off rest ih =>
      refine (readDirEntry_reads dir off).bind fun current => ?_
      split
      · exact .pure _
      · exact ih
  exact (Along.require _).bind fun _ => loop _

theorem holeLoop_reads (offsets : List Nat) : Along Observed (holeLoop dir offsets) := by
  induction offsets with
  | nil => exact .pure _
  | cons off rest ih =>
    refine (readDirEntry_reads dir off).bind fun current => ?_
    split
    · exact .pure _
    · exact ih

theorem locateOffset_low {extents : List Extent} (placed : ∀ extent ∈ extents, extent.Placed)
    {off lba place : Nat} (found : locateOffset extents off = some (lba, place)) :
    dataLba ≤ lba := by
  induction extents generalizing off with
  | nil => cases found
  | cons extent rest ih =>
    obtain ⟨here, others⟩ := forall_mem_cons.mp placed
    rw [locateOffset] at found
    split at found
    · next old =>
      cases found
      have index : off / sectorSize < extent.sectorCount.toNat :=
        Nat.div_lt_of_lt_mul (Nat.mul_comm _ _ ▸ old)
      clear old
      generalize off / sectorSize = step at index ⊢
      obtain ⟨low, high⟩ := here (by omega)
      rw [UInt32.toNat_add, ofNat_toNat (by omega), Nat.mod_eq_of_lt (by omega)]
      omega
    · exact ih others found

theorem writeDisk_wrote {lba : Nat} (low : dataLba ≤ lba) (data : List Sector) :
    Along Wrote (writeDisk lba data) := by
  refine Along.perform fun s => ⟨rfl, (s.disk.writeCached_touches lba data).mono ?_⟩
  intro a v written
  obtain ⟨i, rfl, _⟩ := mem_cells.mp written
  exact Nat.le_add_right_of_le low

theorem writeChunk_wrote (placed : inode.Placed) (off : Nat) (bytes : Nat → UInt8)
    (rem : Nat) : Along Wrote (writeChunk inode off bytes rem) := by
  refine Along.ofOption_bind fun ⟨lba, place⟩ found => ?_
  have low := locateOffset_low placed found
  dsimp only
  split
  · exact (writeDisk_wrote low _).bind fun _ => .pure _
  have put : ∀ sector, Along Wrote _ := fun sector => (writeDisk_wrote low sector).bind fun _ =>
    Along.pure (min (sectorSize - place) rem)
  split
  · exact ((readDisk_reads lba 1).mono fun _ _ => Observed.wrote).bind fun _ =>
      (Along.pure _).bind fun _ => put _
  · exact (Along.pure _).bind fun _ => put _

/-- A write into an inode reaches data sectors only. -/
theorem writeInodeBytes_wrote (placed : inode.Placed) (off : Nat) (bytes : Nat → UInt8)
    (n : Nat) : Along Wrote (writeInodeBytes inode off bytes n) := by
  have loop : ∀ fuel rem off bytes, Along Wrote (writeLoop inode fuel rem off bytes) := by
    intro fuel
    induction fuel with
    | zero => exact fun _ _ _ => .pure ()
    | succ fuel ih =>
      intro rem off bytes
      unfold writeLoop
      split
      · exact .pure ()
      · exact (writeChunk_wrote placed _ _ _).bind fun _ => ih _ _ _
  exact loop n n off bytes

theorem zeroInodeRange_wrote (placed : inode.Placed) (off n : Nat) :
    Along Wrote (zeroInodeRange inode off n) := by
  have loop : ∀ fuel rem off, Along Wrote (zeroLoop inode fuel rem off) := by
    intro fuel
    induction fuel with
    | zero => exact fun _ _ => .pure ()
    | succ fuel ih =>
      intro rem off
      unfold zeroLoop
      split
      · exact .pure ()
      · exact (writeInodeBytes_wrote placed _ _ _).bind fun _ => ih _ _
  exact loop n n off

end SavanXP.SxFS
