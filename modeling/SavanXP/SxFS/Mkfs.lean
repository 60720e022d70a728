import SavanXP.SxFS.RecoverySafety
import SavanXP.SxFS.Validity

/-!
# Formatting

`sxfs_mkfs` of `libsxfs/sxfs_core.c`: the layout of an empty volume, its root
directory and the cleared journal header.
-/

namespace SavanXP.SxFS

open SavanXP.Library

/-- The superblock `sxfs_flush` writes for a fresh volume. -/
def mkfsSuperblock (total : UInt32) : Superblock :=
  Superblock.stamped
    { magic := superblockMagic
      version := SxFS.version
      sequence := 0
      flags := 0
      totalSectors := total
      journalLba := UInt32.ofNat journalLba
      journalSectors := UInt32.ofNat journalSectors
      blockBitmapLba := UInt32.ofNat blockBitmapLba
      blockBitmapSectors := UInt32.ofNat blockBitmapSectors
      inodeBitmapLba := UInt32.ofNat inodeBitmapLba
      inodeBitmapSectors := UInt32.ofNat inodeBitmapSectors
      inodeTableLba := UInt32.ofNat inodeTableLba
      inodeTableSectors := UInt32.ofNat inodeTableSectors
      dataLba := UInt32.ofNat dataLba
      maxInodes := UInt32.ofNat maxInodes
      rootInode := UInt32.ofNat rootInode
      features := featureOwnership
      reserved := fun _ => 0
      checksum := 0 } 1 flagClean

def initInode (inodeId : UInt32) (type : UInt16) (path : Path) : Inode :=
  let ownership := defaultOwnership path type
  { Inode.zero with
    inodeId := inodeId
    type := type
    linkCount := 1
    uid := ownership.uid
    gid := ownership.gid
    mode := ownership.mode }

/-- The root of a fresh volume; a mode of another type is refused. -/
def mkfsRoot (rootUid rootGid : UInt32) (rootMode : UInt16) : Option Inode :=
  let root := initInode (UInt32.ofNat rootInode) inodeDirectory []
  if rootMode = 0 then some root
  else if modeMatchesType rootMode inodeDirectory then
    some { root with uid := rootUid, gid := rootGid, mode := rootMode }
  else none

/-- The metadata region is in use. -/
@[irreducible]
def mkfsBlockBitmap : Bytes 262144 :=
  (List.range dataLba).foldl (fun bitmap sector => bitmapSet bitmap sector true) (fun _ => 0)

def mkfsMetadata (root : Inode) : Metadata where
  blockBitmap := mkfsBlockBitmap
  inodeBitmap := bitmapSet (fun _ => 0) (rootInode - 1) true
  inodes id := if id.val = rootInode - 1 then root else Inode.zero

/-- The medium after formatting: superblocks, header and home metadata are
written, slots and data stay as they were. -/
def mkfsImage (total : UInt32) (root : Inode) (medium : Nat → Sector) (a : Nat) : Sector :=
  if a = primarySbLba ∨ a = secondarySbLba then Superblock.codec (mkfsSuperblock total)
  else if a = journalLba then clearedHeader
  else if blockBitmapLba ≤ a ∧ a < dataLba then
    metadataSector (mkfsMetadata root) (a - blockBitmapLba)
  else medium a

def mkfs (total : UInt32) (rootUid rootGid : UInt32) (rootMode : UInt16) (medium : Nat → Sector) :
    Option (Nat → Sector) :=
  if total.toNat ≤ dataLba ∨ maxTotalSectors < total.toNat then none
  else (mkfsRoot rootUid rootGid rootMode).map fun root => mkfsImage total root medium

/-! ## The fresh volume is sound -/

theorem mkfsSuperblock_layout {total : UInt32} (large : dataLba < total.toNat)
    (small : total.toNat ≤ maxTotalSectors) : (mkfsSuperblock total).layoutValid = true := by
  rw [mkfsSuperblock, Superblock.layoutValid_stamped]
  simp only [Superblock.layoutValid, Bool.and_eq_true, decide_eq_true_eq]
  refine ⟨⟨⟨⟨⟨⟨⟨⟨⟨⟨⟨⟨⟨⟨trivial, trivial⟩, ?_⟩, ?_⟩, ?_⟩, ?_⟩, ?_⟩, ?_⟩, ?_⟩, ?_⟩, ?_⟩, ?_⟩, ?_⟩,
    ?_⟩, small⟩
  case refine_12 => exact UInt32.lt_iff_toNat_lt.mpr large
  all_goals decide

/-- An inode without extents is valid when its id and type fit. -/
theorem inodeMetadataIsValid_empty {sb : Superblock} {blockBitmap : Bytes 262144} {inode : Inode}
    {inodeId : UInt32} (none : inode.extentCount = 0) (size : inode.size = 0)
    (typed : inode.type = inodeUnused ∨ inode.type = inodeDirectory ∧ inode.inodeId = inodeId) :
    inodeMetadataIsValid sb blockBitmap inode inodeId = true := by
  have extents : inode.usedExtents = [] := by simp [Inode.usedExtents, none]
  have sectors : inode.sectors = [] := by simp [Inode.sectors, extents]
  unfold inodeMetadataIsValid
  rw [extents, sectors]
  rcases typed with unused | ⟨dir, named⟩
  · rw [if_neg (by simp [unused, none, inodeUnused, inodeFile, inodeDirectory]),
      if_neg (by simp [extentsAreValid])]
    simp [unused, none, size]
  · rw [if_neg (by simp [dir, named, none]), if_neg (by simp [extentsAreValid])]
    simp [dir, size, inodeUnused, inodeDirectory]

theorem sectors_of_no_extents {inode : Inode} (none : inode.extentCount = 0) :
    inode.sectors = [] := by
  simp [Inode.sectors, Inode.usedExtents, none]

/-- Metadata without extents in which only the root is allocated is valid. -/
theorem homeMetadataIsValid_of_root {sb : Superblock} (lay : sb.layoutValid = true)
    {md : Metadata} (bits : md.inodeBitmap = bitmapSet (fun _ => 0) (rootInode - 1) true)
    (empty : ∀ id, (md.inodes id).extentCount = 0 ∧ (md.inodes id).size = 0)
    (types : ∀ id, (md.inodes id).type =
      if id.val = rootInode - 1 then inodeDirectory else inodeUnused)
    (named : ∀ id, id.val = rootInode - 1 → (md.inodes id).inodeId = 1) :
    homeMetadataIsValid sb md = true := by
  have bit (i : Nat) : bitmapTest md.inodeBitmap i = decide (i = rootInode - 1) := by
    rw [bits, bitmapTest_bitmapSet _ (by decide), bitmapTest_zero]
    by_cases root : i = rootInode - 1 <;> simp [root]
  refine (homeMetadataIsValid_iff lay md).mpr ⟨by rw [bit]; decide, fun id => ⟨?_, ?_⟩, ?_⟩
  · rw [bit, types id]
    by_cases root : id.val = rootInode - 1
    · simp [root, inodeDirectory, inodeUnused]
    · simp [root]
  · refine inodeMetadataIsValid_empty (empty id).1 (empty id).2 ?_
    rw [types id]
    by_cases root : id.val = rootInode - 1
    · right
      rw [if_pos root, named id root, root]
      exact ⟨rfl, rfl⟩
    · left
      rw [if_neg root]
  · have none : ((List.finRange 4096).flatMap fun id => (md.inodes id).sectors) = [] := by
      rw [List.flatMap_eq_nil_iff]
      exact fun id _ => sectors_of_no_extents (empty id).1
    rw [none]
    exact List.nodup_nil

/-- A fresh volume is quiet, and its metadata is valid. -/
theorem mkfs_sound {total rootUid rootGid : UInt32} {rootMode : UInt16}
    {before image : Nat → Sector}
    (made : mkfs total rootUid rootGid rootMode before = some image) {size : Nat}
    (room : total.toNat ≤ size) (plan : List Fate) :
    ∃ root, mkfsRoot rootUid rootGid rootMode = some root ∧
      Quiet total (metadataSector (mkfsMetadata root)) (Disk.boot image size true plan) ∧
      ValidFor total (mkfsMetadata root) := by
  unfold mkfs at made
  split at made
  · cases made
  · next sized =>
    obtain ⟨root, rooted, rfl⟩ := Option.map_eq_some_iff.mp made
    have large : dataLba < total.toNat := by omega
    have lay := mkfsSuperblock_layout large (by omega)
    have copy {a : Nat} (copy : isCopy a) :
        mkfsImage total root before a = Superblock.codec (mkfsSuperblock total) :=
      if_pos copy
    have valid : superblockValid (mkfsSuperblock total) = true :=
      Superblock.valid_stamped (by rwa [mkfsSuperblock, Superblock.layoutValid_stamped] at lay) _ _
    refine ⟨root, rooted, ⟨fun v held => ?_, fun i inside v held => ?_,
      fun _ _ _ _ => trivial, fun a isCopy v held _ => ?_, ?_, room⟩, ?_⟩
    · rw [possible_boot.mp held, mkfsImage, if_neg (by decide), if_pos rfl]
      exact armed_clearedHeader
    · rw [possible_boot.mp held, mkfsImage, if_neg, if_neg (homeLba_ne_journalLba i), if_pos]
      · rw [homeLba, Nat.add_sub_cancel_left]
      · simp only [homeLba, dataLba, inodeTableLba, inodeBitmapLba, journalMetadataSectors]
          at inside ⊢
        omega
      · exact fun copy => isCopy.ne_homeLba copy i rfl
    · rw [possible_boot.mp held, copy isCopy, Equiv.symm_apply_apply]
      rfl
    · refine ⟨primarySbLba, .inl rfl, fun v held => ?_⟩
      rw [possible_boot.mp held, copy (.inl rfl), copyValid, Equiv.symm_apply_apply, valid]
    · intro sb sbLayout _
      have shape : root.extentCount = 0 ∧ root.size = 0 ∧ root.type = inodeDirectory ∧
          root.inodeId = 1 := by
        unfold mkfsRoot at rooted
        split at rooted
        · cases rooted
          exact ⟨rfl, rfl, rfl, rfl⟩
        split at rooted
        · cases rooted
          exact ⟨rfl, rfl, rfl, rfl⟩
        · cases rooted
      have inode (id : Fin 4096) : (mkfsMetadata root).inodes id =
          if id.val = rootInode - 1 then root else Inode.zero := rfl
      refine homeMetadataIsValid_of_root sbLayout rfl (fun id => ?_) (fun id => ?_)
        (fun id here => ?_)
      · rw [inode]
        split
        · exact ⟨shape.1, shape.2.1⟩
        · exact ⟨rfl, rfl⟩
      · rw [inode]
        split
        · exact shape.2.2.1
        · rfl
      · rw [inode, if_pos here]
        exact shape.2.2.2

end SavanXP.SxFS
