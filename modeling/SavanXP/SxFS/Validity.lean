import SavanXP.SxFS.JournalSpec

/-!
# What home validation accepts

`homeMetadataIsValid` claims the sectors of one inode after the other in a
bitmap.  It accepts exactly the metadata in which every inode is valid on its
own, the inode bitmap agrees with the types and no sector is claimed twice.
-/

namespace SavanXP.SxFS

open SavanXP.Library List

/-- The block bitmap has a bit for the sector. -/
def inBitmap (sector : Nat) : Prop := sector / 8 < 262144

theorem bitmapTest_bitmapSet {size : Nat} (bitmap : Bytes size) {bit : Nat}
    (ins : bit / 8 < size) (v : Bool) (other : Nat) : bitmapTest (bitmapSet bitmap bit v) other =
      if other = bit then v else bitmapTest bitmap other :=
  Bits.test_set bitmap ins v other

theorem bitmapTest_zero {size : Nat} (bit : Nat) :
    bitmapTest (fun _ => 0 : Bytes size) bit = false := by
  unfold bitmapTest Bits.test
  split
  · rw [Bits.and_mask_ne_zero]
    exact Nat.zero_testBit _
  · rfl

variable {inode : Inode} {sector : Nat}

theorem Inode.mem_sectors : sector ∈ inode.sectors ↔ ∃ extent ∈ inode.usedExtents,
      extent.startLba.toNat ≤ sector ∧
        sector < extent.startLba.toNat + extent.sectorCount.toNat := by
  simp only [Inode.sectors, mem_flatMap, mem_map, mem_range]
  constructor
  · rintro ⟨extent, used, off, ins, rfl⟩
    exact ⟨extent, used, by omega, by omega⟩
  · rintro ⟨extent, used, low, high⟩
    exact ⟨extent, used, sector - extent.startLba.toNat, by omega, by omega⟩

variable {sb : Superblock}

theorem extentIsValid_iff {extent : Extent} :
    extentIsValid sb extent = true ↔ extent.sectorCount.toNat ≠ 0 ∧
      sb.dataLba.toNat ≤ extent.startLba.toNat ∧
      extent.startLba.toNat + extent.sectorCount.toNat ≤ sb.totalSectors.toNat := by
  simp only [extentIsValid, Bool.and_eq_true, decide_eq_true_eq, ne_eq, UInt32.le_iff_toNat_le,
    UInt32.lt_iff_toNat_lt]
  have zero : extent.sectorCount = 0 ↔ extent.sectorCount.toNat = 0 :=
    ⟨fun same => by rw [same]; rfl, fun same => UInt32.toNat_inj.mp same⟩
  rw [zero]
  constructor
  · rintro ⟨⟨⟨some, low⟩, below⟩, room⟩
    rw [UInt32.toNat_sub_of_le _ _ (UInt32.le_iff_toNat_le.mpr (Nat.le_of_lt below))] at room
    exact ⟨some, low, by omega⟩
  · rintro ⟨some, low, high⟩
    have below : extent.startLba.toNat < sb.totalSectors.toNat := by omega
    refine ⟨⟨⟨some, low⟩, below⟩, ?_⟩
    rw [UInt32.toNat_sub_of_le _ _ (UInt32.le_iff_toNat_le.mpr (Nat.le_of_lt below))]
    omega

theorem extentsAreValid_mem {extents : List Extent} (valid : extentsAreValid sb extents = true)
    {extent : Extent} (used : extent ∈ extents) : extentIsValid sb extent = true := by
  induction extents with
  | nil => cases used
  | cons first rest ih =>
    simp only [extentsAreValid, Bool.and_eq_true] at valid
    rcases mem_cons.mp used with rfl | t
    · exact valid.1.1
    · exact ih valid.2 t

theorem inodeMetadataIsValid_extents {blockBitmap : Bytes 262144} {inodeId : UInt32}
    (valid : inodeMetadataIsValid sb blockBitmap inode inodeId = true) :
    extentsAreValid sb inode.usedExtents = true := by
  unfold inodeMetadataIsValid at valid
  split at valid
  · cases valid
  · split at valid
    · cases valid
    · next passed => simpa using passed

/-- The sectors of a valid inode are sectors of the volume. -/
theorem sectors_inside {blockBitmap : Bytes 262144} {inodeId : UInt32}
    (valid : inodeMetadataIsValid sb blockBitmap inode inodeId = true)
    (claimed : sector ∈ inode.sectors) : sector < sb.totalSectors.toNat := by
  obtain ⟨extent, used, low, high⟩ := Inode.mem_sectors.mp claimed
  obtain ⟨_, _, finish⟩ := extentIsValid_iff.mp
    (extentsAreValid_mem (inodeMetadataIsValid_extents valid) used)
  omega

theorem inBitmap_of_lt (lay : sb.layoutValid = true) (ins : sector < sb.totalSectors.toNat) :
    inBitmap sector := by
  have place := (sb.layout lay).totalMax
  simp only [maxTotalSectors, blockBitmapSectors, sectorSize] at place
  unfold inBitmap
  omega

theorem claimSectors_some {sectors : List Nat} {claims t : Bytes 262144}
    (ins : ∀ sector ∈ sectors, inBitmap sector) (claimed : claimSectors sectors claims = some t) :
    sectors.Nodup ∧ (∀ sector ∈ sectors, bitmapTest claims sector = false) ∧
      ∀ sector, bitmapTest t sector = (bitmapTest claims sector || decide (sector ∈ sectors)) := by
  induction sectors generalizing claims with
  | nil =>
    cases claimed
    simp
  | cons first rest ih =>
    obtain ⟨here, others⟩ := forall_mem_cons.mp ins
    unfold claimSectors at claimed
    split at claimed
    · cases claimed
    · next free =>
      have unclaimed : bitmapTest claims first = false := by simpa using free
      have set := bitmapTest_bitmapSet claims here true
      obtain ⟨nodup, fresh, res⟩ := ih others claimed
      have apart : first ∉ rest := by
        intro again
        have taken := fresh first again
        rw [set, if_pos rfl] at taken
        cases taken
      refine ⟨nodup_cons.mpr ⟨apart, nodup⟩, forall_mem_cons.mpr ⟨unclaimed, fun sector t => ?_⟩,
        fun sector => ?_⟩
      · have known := fresh sector t
        rwa [set, if_neg (ne_of_mem_of_not_mem t apart)] at known
      · rw [res, set]
        by_cases here : sector = first
        all_goals simp [here]

theorem claimSectors_of_free {sectors : List Nat} {claims : Bytes 262144}
    (ins : ∀ sector ∈ sectors, inBitmap sector) (nodup : sectors.Nodup)
    (free : ∀ sector ∈ sectors, bitmapTest claims sector = false) :
    ∃ t, claimSectors sectors claims = some t := by
  induction sectors generalizing claims with
  | nil => exact ⟨claims, rfl⟩
  | cons first rest ih =>
    obtain ⟨apart, others⟩ := nodup_cons.mp nodup
    obtain ⟨here, ins⟩ := forall_mem_cons.mp ins
    obtain ⟨unclaimed, free⟩ := forall_mem_cons.mp free
    unfold claimSectors
    rw [unclaimed, if_neg (by decide)]
    refine ih ins others (fun sector t => ?_)
    rw [bitmapTest_bitmapSet claims here, if_neg (ne_of_mem_of_not_mem t apart)]
    exact free sector t

/-- An inode passes on its own. -/
def inodeOk (sb : Superblock) (md : Metadata) (id : Fin 4096) : Prop :=
  bitmapTest md.inodeBitmap id.val = decide ((md.inodes id).type ≠ inodeUnused) ∧
    inodeMetadataIsValid sb md.blockBitmap (md.inodes id) (UInt32.ofNat (id.val + 1)) = true

theorem homeInodesAreValid_iff (lay : sb.layoutValid = true) (md : Metadata)
    (ids : List (Fin 4096)) (claims : Bytes 262144) : homeInodesAreValid sb md ids claims = true ↔
      (∀ id ∈ ids, inodeOk sb md id) ∧ (ids.flatMap fun id => (md.inodes id).sectors).Nodup ∧
        ∀ sector ∈ ids.flatMap fun id => (md.inodes id).sectors,
          bitmapTest claims sector = false := by
  induction ids generalizing claims with
  | nil => simp [homeInodesAreValid]
  | cons id rest ih =>
    have bounded (ok : inodeOk sb md id) : ∀ sector ∈ (md.inodes id).sectors, inBitmap sector :=
      fun sector used => inBitmap_of_lt lay (sectors_inside ok.2 used)
    simp only [homeInodesAreValid, flatMap_cons, nodup_append, mem_append, forall_mem_cons]
    split
    · next refused =>
      constructor
      · intro bad
        cases bad
      rintro ⟨⟨⟨bit, valid⟩, _⟩, _⟩
      rcases refused with differs | invalid
      · exact absurd bit differs
      · rw [valid] at invalid
        cases invalid
    · next passed =>
      have ok : inodeOk sb md id := by
        rw [not_or, not_not, Bool.not_eq_false] at passed
        exact passed
      cases claimed : claimSectors (md.inodes id).sectors claims with
      | none =>
        constructor
        · intro bad
          cases bad
        rintro ⟨_, ⟨nodup, _, _⟩, free⟩
        obtain ⟨t, found⟩ := claimSectors_of_free (bounded ok) nodup
          (fun sector used => free sector (.inl used))
        rw [claimed] at found
        cases found
      | some t =>
        obtain ⟨nodup, fresh, res⟩ := claimSectors_some (bounded ok) claimed
        rw [ih]
        simp only [res, Bool.or_eq_false_iff, decide_eq_false_iff_not]
        constructor
        · rintro ⟨others, restNodup, free⟩
          refine ⟨⟨ok, others⟩, ⟨nodup, restNodup, fun first here second there same => ?_⟩,
            fun sector used => ?_⟩
          · exact (free second there).2 (same ▸ here)
          · rcases used with here | there
            · exact fresh sector here
            · exact (free sector there).1
        · rintro ⟨⟨_, others⟩, ⟨_, restNodup, apart⟩, free⟩
          exact ⟨others, restNodup, fun sector there =>
            ⟨free sector (.inr there), fun here => apart sector here sector there rfl⟩⟩

/-- Home validation accepts exactly the metadata whose inodes are each valid and
claim pairwise different sectors. -/
theorem homeMetadataIsValid_iff (lay : sb.layoutValid = true) (md : Metadata) :
    homeMetadataIsValid sb md = true ↔
      bitmapTest md.inodeBitmap (rootInode - 1) = true ∧ (∀ id, inodeOk sb md id) ∧
        ((List.finRange 4096).flatMap fun id => (md.inodes id).sectors).Nodup := by
  rw [homeMetadataIsValid, Bool.and_eq_true, homeInodesAreValid_iff lay]
  simp only [mem_finRange, true_imp_iff, bitmapTest_zero, implies_true, and_true]

end SavanXP.SxFS
