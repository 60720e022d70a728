import SavanXP.Partition.Table

/-!
# Reading back what was written

A copy of a table is a header the reader accepts together with an entry array
whose checksum the header records.  On a disk that works, reading gives the
primary copy when there is one, and otherwise the copy on the last sector.
What `gptWrite` leaves on the disk are two copies of the table it was given.
-/

namespace SavanXP.Partition

open SavanXP.Library List Function

/-! ## Headers and entry arrays -/

/-- The checksum field does not count for the checksum. -/
theorem headerCrcOf_stamped (header : Header) (crc : UInt32) :
    headerCrcOf { header with headerCrc := crc } = headerCrcOf header := by
  unfold headerCrcOf
  rfl

/-- The array of a table lies in the sectors from `place` on. -/
def Stored (med : Nat → Sector) (place : Nat) (entries : Fin 128 → Entry) : Prop :=
  ∀ i : Fin 32, med (place + i.val) = sectorsCodec.symm (entriesCodec entries) i

/-- The entries in the sectors from `place` on. -/
def entriesAt (med : Nat → Sector) (place : Nat) : Fin 128 → Entry :=
  entriesOf fun i => med (place + i)

variable {med : Nat → Sector}

theorem Stored.entriesAt {place : Nat} {entries : Fin 128 → Entry}
    (stored : Stored med place entries) : entriesAt med place = entries := by
  have sectors : (fun i : Fin 32 => med (place + i.val)) =
      sectorsCodec.symm (entriesCodec entries) := funext stored
  unfold Partition.entriesAt entriesOf
  rw [sectors, Equiv.apply_symm_apply, Equiv.symm_apply_apply]

theorem entrySectors_length (gpt : Gpt) : (entrySectors gpt).length = 32 := length_ofFn

theorem entrySectors_getElem? (gpt : Gpt) (i : Fin 32) :
    (entrySectors gpt)[i.val]? = some (sectorsCodec.symm (entriesCodec gpt.entries) i) := by
  unfold entrySectors
  rw [List.getElem?_ofFn, dif_pos i.isLt]

/-! ## Copies -/

def headerAt (med : Nat → Sector) (lba : UInt64) : Header :=
  Header.codec.symm (med lba.toNat)

/-- The entries of the array a header points to. -/
def arrayOf (med : Nat → Sector) (header : Header) : Fin 128 → Entry :=
  entriesAt med header.entriesLba.toNat

/-- A copy of a table: an accepted header at `lba` and the array it points to. -/
structure Copy (sectors lba : UInt64) (med : Nat → Sector) (gpt : Gpt) : Prop where
  accepted : headerAccepted sectors lba (headerAt med lba) = true
  inside : (headerAt med lba).entriesLba.toNat + gptArraySectors ≤ sectors.toNat
  checked : entriesCrc (arrayOf med (headerAt med lba)) = (headerAt med lba).entriesCrc
  table : gpt = (headerAt med lba).table sectors (arrayOf med (headerAt med lba))

/-- A disk of a given size on which everything works. -/
def working (med : Nat → Sector) (sectors : UInt64) : Disk Sector :=
  Disk.boot med sectors.toNat true []

theorem working_healthy (med : Nat → Sector) (sectors : UInt64) : (working med sectors).Healthy :=
  ⟨rfl, rfl, rfl⟩

variable {sectors : UInt64}

theorem working_read {lba n : Nat} (pos : 0 < n)
    (inside : lba + n ≤ sectors.toNat) : (working med sectors).read lba n =
      (some (fun i => med (lba + i)), working med sectors) :=
  (working_healthy med sectors).read (Disk.inRange_iff.mpr ⟨pos, inside⟩)

theorem working_read_outside {lba n : Nat} (outside : ¬lba + n ≤ sectors.toNat) :
    (working med sectors).read lba n = (none, working med sectors) := by
  have refused : (working med sectors).inRange lba n = false := by
    apply Bool.eq_false_iff.mpr
    intro accepted
    exact outside (Disk.inRange_iff.mp accepted).2
  unfold Disk.read
  rw [refused, Bool.and_false]
  rfl

theorem loadArray_working (med : Nat → Sector) (sectors : UInt64) (header : Header) :
    loadArray sectors header (working med sectors) =
      (if header.entriesLba.toNat + gptArraySectors ≤ sectors.toNat then
        if entriesCrc (arrayOf med header) = header.entriesCrc then
          .ok (header.table sectors (arrayOf med header)) else .error .invalid
      else .error .io, working med sectors) := by
  unfold loadArray
  by_cases room : header.entriesLba.toNat + gptArraySectors ≤ sectors.toNat
  · rw [working_read (by decide) room, if_pos room]
    change (if entriesCrc (arrayOf med header) = header.entriesCrc then _ else _) = _
    split <;> rfl
  · rw [working_read_outside room, if_neg room]

variable {lba : UInt64}

/-- Loading a copy from a working disk, with the reads carried out. -/
theorem loadCopy_working (inside : lba.toNat < sectors.toNat) :
    loadCopy sectors lba (working med sectors) =
      if headerAccepted sectors lba (headerAt med lba) then
        loadArray sectors (headerAt med lba) (working med sectors)
      else (.error .invalid, working med sectors) := by
  have whole : lba.toNat + 1 ≤ sectors.toNat := inside
  unfold loadCopy
  rw [working_read Nat.one_pos whole]
  rfl

theorem loadCopy_disk (inside : lba.toNat < sectors.toNat) :
    (loadCopy sectors lba (working med sectors)).2 = working med sectors := by
  rw [loadCopy_working inside, loadArray_working]
  split <;> rfl

variable {gpt : Gpt}

theorem Copy.loads (copy : Copy sectors lba med gpt) (inside : lba.toNat < sectors.toNat) :
    loadCopy sectors lba (working med sectors) = (.ok gpt, working med sectors) := by
  rw [loadCopy_working inside, if_pos copy.accepted, loadArray_working, if_pos copy.inside,
    if_pos copy.checked, copy.table]

/-! ## Reading -/

section

variable (large : minDiskSectors ≤ sectors.toNat)
include large

theorem gptRead_primary (copy : Copy sectors 1 med gpt) :
    (gptRead sectors (working med sectors)).1 = .ok gpt := by
  have inside : (1 : UInt64).toNat < sectors.toNat := Nat.lt_of_lt_of_le (by decide) large
  unfold gptRead
  rw [if_neg (Nat.not_lt.mpr large), copy.loads inside]

theorem gptRead_backup (damaged : (loadCopy sectors 1 (working med sectors)).1 = .error .invalid)
    (copy : Copy sectors (sectors - 1) med gpt) :
    (gptRead sectors (working med sectors)).1 = .ok { gpt with fromBackup := true } := by
  have first : (1 : UInt64).toNat < sectors.toNat := Nat.lt_of_lt_of_le (by decide) large
  have same := @loadCopy_disk med _ _ first
  have last : (sectors - 1).toNat < sectors.toNat := by
    have bound := sectors.toNat_lt
    simp only [UInt64.toNat_sub, UInt64.reduceToNat] at first ⊢
    omega
  unfold gptRead
  rw [if_neg (Nat.not_lt.mpr large)]
  simp only [damaged, same, copy.loads last]

end

/-! ## Writing -/

/-- The header and array of a copy of a table. -/
structure CopyWritten (gpt : Gpt) (lba alternate place : UInt64) (med : Nat → Sector) : Prop where
  header : med lba.toNat = Header.codec (buildHeader gpt lba alternate place)
  array : Stored med place.toNat gpt.entries

/-- The table fits its disk. -/
structure Gpt.Fits (gpt : Gpt) : Prop where
  large : minDiskSectors ≤ gpt.diskSectors.toNat
  ordered : gpt.firstUsable ≤ gpt.lastUsable
  below : gpt.lastUsable < gpt.diskSectors

theorem buildHeader_accepted (fits : gpt.Fits) {alternate place : UInt64} (after : 2 ≤ place)
    (room : arraySectorsEnd place ≤ gpt.diskSectors) :
    headerAccepted gpt.diskSectors lba (buildHeader gpt lba alternate place) = true := by
  have checked : headerCrcOf (buildHeader gpt lba alternate place) =
      (buildHeader gpt lba alternate place).headerCrc := headerCrcOf_stamped _ _
  unfold headerAccepted
  simp only [Bool.and_eq_true, decide_eq_true_eq]
  refine ⟨⟨⟨rfl, ?_⟩, checked, rfl⟩, ⟨⟨⟨⟨rfl, rfl⟩, after⟩, room⟩, fits.ordered⟩, fits.below⟩
  exact ⟨(by decide : gptHeaderSize ≤ gptHeaderSize), (by decide : gptHeaderSize ≤ 512)⟩

theorem CopyWritten.copy {alternate place : UInt64}
    (written : CopyWritten gpt lba alternate place med) (fits : gpt.Fits) (after : 2 ≤ place)
    (room : place.toNat + gptArraySectors ≤ gpt.diskSectors.toNat) :
    Copy gpt.diskSectors lba med { gpt with fromBackup := false } := by
  have header : headerAt med lba = buildHeader gpt lba alternate place := by
    rw [headerAt, written.header, Equiv.symm_apply_apply]
  have array : arrayOf med (headerAt med lba) = gpt.entries := by
    rw [header]
    exact written.array.entriesAt
  have ends : arraySectorsEnd place ≤ gpt.diskSectors := by
    apply UInt64.le_iff_toNat_le.mpr
    unfold arraySectorsEnd
    simp only [gptArraySectors] at room
    rw [UInt64.toNat_add, show (32 : UInt64).toNat = 32 from rfl]
    omega
  constructor
  · rw [header]
    exact buildHeader_accepted fits after ends
  · rw [header]
    exact room
  all_goals
    rw [array, header]
    rfl

/-- What a complete update leaves on the disk. -/
structure Written (gpt : Gpt) (boot : Sector) (med : Nat → Sector) : Prop where
  boot : med 0 = protectiveMbr boot (gpt.diskSectors - 1)
  backup : CopyWritten gpt (gpt.diskSectors - 1) 1 (gpt.diskSectors - 1 - 32) med
  primary : CopyWritten gpt 1 (gpt.diskSectors - 1) 2 med


/-- Sectors of the entry array, written at `place`. -/
theorem store_entrySectors (gpt : Gpt) (place : Nat) (med : Nat → Sector) (a : Nat) :
    store (cells place (entrySectors gpt)) med a = if inside : place ≤ a ∧ a < place + 32 then
        sectorsCodec.symm (entriesCodec gpt.entries) ⟨a - place, by omega⟩
      else med a := by
  rw [store_cells]
  by_cases inside : place ≤ a ∧ a < place + 32
  · rw [if_pos inside.1, dif_pos inside]
    have found := entrySectors_getElem? gpt ⟨a - place, by omega⟩
    rw [found]
    rfl
  · split
    · next after =>
      rw [List.getElem?_eq_none (by rw [entrySectors_length]; omega)]
      rfl
    · rfl

theorem stored_entrySectors (gpt : Gpt) (place : Nat) (med : Nat → Sector) :
    Stored (store (cells place (entrySectors gpt)) med) place gpt.entries := by
  intro i
  rw [store_entrySectors, dif_pos ⟨Nat.le_add_right _ _, by omega⟩]
  exact congrArg _ (Fin.ext (Nat.add_sub_cancel_left _ _))

theorem Stored.congr {o : Nat → Sector} {place : Nat} {entries : Fin 128 → Entry}
    (stored : Stored med place entries)
    (same : ∀ a, place ≤ a → a < place + 32 → o a = med a) : Stored o place entries := by
  intro i
  rw [same _ (Nat.le_add_right _ _) (Nat.add_lt_add_left i.isLt _)]
  exact stored i

theorem store_sector (lba : Nat) (v : Sector) (med : Nat → Sector) (a : Nat) :
    store (cells lba [v]) med a = if a = lba then v else med a := by
  simp only [cells, store, update_apply]

/-- The regions of the disk that an update writes do not meet. -/
structure Regions (sectors : UInt64) : Prop where
  last : (sectors - 1).toNat = sectors.toNat - 1
  backup : (sectors - 1 - 32).toNat = sectors.toNat - 33
  size : 4163 ≤ sectors.toNat

theorem regions (large : minDiskSectors ≤ sectors.toNat) : Regions sectors := by
  have size : 4163 ≤ sectors.toNat := large
  have bound := sectors.toNat_lt
  refine ⟨?_, ?_, size⟩ <;> simp only [UInt64.toNat_sub, UInt64.reduceToNat] <;> omega

/-- The backup copy of a table lies within the disk. -/
theorem CopyWritten.backup_copy (fits : gpt.Fits)
    (written : CopyWritten gpt (gpt.diskSectors - 1) 1 (gpt.diskSectors - 1 - 32) med) :
    Copy gpt.diskSectors (gpt.diskSectors - 1) med { gpt with fromBackup := false } := by
  obtain ⟨-, backup, size⟩ := regions fits.large
  apply written.copy fits
  · apply UInt64.le_iff_toNat_le.mpr
    change 2 ≤ _
    omega
  · simp only [gptArraySectors]
    omega

/-- So does the primary copy. -/
theorem CopyWritten.primary_copy (fits : gpt.Fits)
    (written : CopyWritten gpt 1 (gpt.diskSectors - 1) 2 med) :
    Copy gpt.diskSectors 1 med { gpt with fromBackup := false } :=
  written.copy fits (by decide) (Nat.le_trans (by decide) fits.large)

/-- The backup copy does not depend on the sectors of the primary one. -/
theorem CopyWritten.above (large : minDiskSectors ≤ gpt.diskSectors.toNat)
    (written : CopyWritten gpt (gpt.diskSectors - 1) 1 (gpt.diskSectors - 1 - 32) med)
    {o : Nat → Sector} (same : ∀ a, 33 < a → o a = med a) :
    CopyWritten gpt (gpt.diskSectors - 1) 1 (gpt.diskSectors - 1 - 32) o := by
  obtain ⟨last, backup, size⟩ := regions large
  refine ⟨(same _ (by omega)).trans written.header, written.array.congr ?_⟩
  intro address after below
  exact same address (by omega)

/-- All five writes, one on top of the other. -/
theorem store_gptCommands (gpt : Gpt) (boot : Sector) (med : Nat → Sector) :
    store (Disk.allCells (gptCommands gpt boot)) med =
      store (cells 1 [Header.codec (buildHeader gpt 1 (gpt.diskSectors - 1) 2)])
        (store (cells 2 (entrySectors gpt))
          (store (cells (gpt.diskSectors - 1).toNat [Header.codec (buildHeader gpt
              (gpt.diskSectors - 1) 1 (gpt.diskSectors - 1 - 32))])
            (store (cells (gpt.diskSectors - 1 - 32).toNat (entrySectors gpt))
              (store (cells 0 [protectiveMbr boot (gpt.diskSectors - 1)]) med)))) := by
  simp only [Disk.allCells, gptCommands, flatMap_cons, flatMap_nil, append_nil, store_append]

theorem written_of_store (large : minDiskSectors ≤ gpt.diskSectors.toNat) (boot : Sector)
    (med : Nat → Sector) : Written gpt boot (store (Disk.allCells (gptCommands gpt boot)) med) := by
  obtain ⟨last, backup, size⟩ := regions large
  have one : (1 : UInt64).toNat = 1 := rfl
  have two : (2 : UInt64).toNat = 2 := rfl
  rw [store_gptCommands]
  constructor
  · rw [store_sector, if_neg (by omega), store_entrySectors, dif_neg (by omega), store_sector,
      if_neg (by omega), store_entrySectors, dif_neg (by omega), store_sector, if_pos rfl]
  · constructor
    · rw [store_sector, if_neg (by omega), store_entrySectors, dif_neg (by omega), store_sector,
        if_pos rfl]
    apply (stored_entrySectors gpt _ _).congr
    intro a after before
    rw [store_sector, if_neg (by omega), store_entrySectors, dif_neg (by omega), store_sector,
      if_neg (by omega)]
  · constructor
    · rw [store_sector, if_pos one]
    apply (stored_entrySectors gpt _ _).congr
    intro a after before
    rw [store_sector, if_neg (by omega)]
    rfl

variable {disk : Disk Sector}

/-- An update that succeeds leaves two copies of the table and keeps the boot code. -/
theorem gptWrite_written (done : (gptWrite gpt disk).1 = .ok ()) :
    minDiskSectors ≤ gpt.diskSectors.toNat ∧
      Written gpt (disk.view 0) (gptWrite gpt disk).2.view := by
  unfold gptWrite at done ⊢
  by_cases small : gpt.diskSectors.toNat < minDiskSectors
  · rw [if_pos small] at done
    cases done
  rw [if_neg small] at done ⊢
  have large := Nat.not_lt.mp small
  refine ⟨large, ?_⟩
  cases res : (disk.read 0 1).1 with
  | none => simp only [res, reduceCtorEq] at done
  | some buf =>
    obtain ⟨shown, t⟩ := Disk.read_some (Prod.ext res rfl : disk.read 0 1 = (some buf, _))
    simp only [res] at done ⊢
    have landed : ((disk.read 0 1).2.writeAll (gptCommands gpt (buf 0))).1 = true := by
      by_contra refused
      rw [if_neg refused] at done
      cases done
    have view : (disk.read 0 1).2.view = disk.view := (congrArg Disk.view t).trans disk.view_tick
    have boot : buf 0 = disk.view 0 := congrFun shown 0
    rw [Disk.writeAll_true landed, view, boot]
    exact written_of_store large _ _

theorem BootSector.codec_bootCode (boot : BootSector) (position : Fin (440 + 72))
    (early : position.val < 440) :
    BootSector.codec boot position = boot.bootCode ⟨position.val, early⟩ := by
  unfold BootSector.codec
  rw [Equiv.trans_apply]
  exact Codec.pair_early (Codec.raw 440) ..

/-- An update keeps the boot code. -/
theorem protectiveMbr_bootCode (boot : Sector) (last : UInt64) (position : Fin (440 + 72))
    (early : position.val < 440) : protectiveMbr boot last position = boot position := by
  exact BootSector.codec_bootCode _ position early

/-- A table that was written reads back, from the primary copy, or from the backup copy once the
sectors of the primary one are damaged. -/
theorem gptWrite_reads_back (gpt : Gpt) (fits : gpt.Fits) (disk : Disk Sector)
    (done : (gptWrite gpt disk).1 = .ok ()) :
    (gptRead gpt.diskSectors (working (gptWrite gpt disk).2.view gpt.diskSectors)).1 =
        .ok { gpt with fromBackup := false } ∧
      ∀ med : Nat → Sector, (∀ a, a < 1 ∨ 33 < a → med a = (gptWrite gpt disk).2.view a) →
        (∀ position : Fin 512, position.val < 440 → med 0 position = disk.view 0 position) ∧
        ((loadCopy gpt.diskSectors 1 (working med gpt.diskSectors)).1 = .error .invalid →
          (gptRead gpt.diskSectors (working med gpt.diskSectors)).1 =
            .ok { gpt with fromBackup := true }) := by
  obtain ⟨large, written⟩ := gptWrite_written done
  refine ⟨gptRead_primary large (written.primary.primary_copy fits), ?_⟩
  intro med same
  constructor
  · intro position early
    rw [same 0 (.inl Nat.one_pos), written.boot]
    exact protectiveMbr_bootCode _ _ position early
  · intro damaged
    have backup := written.backup.above large fun a after => same a (.inr after)
    have read := gptRead_backup large damaged (backup.backup_copy fits)
    exact read

theorem gptCommands_inRange (large : minDiskSectors ≤ gpt.diskSectors.toNat)
    (whole : disk.sectorCount = gpt.diskSectors.toNat) (boot : Sector) :
    ∀ command ∈ gptCommands gpt boot, disk.inRange command.1 command.2.length = true := by
  obtain ⟨last, backup, size⟩ := regions large
  intro command mem
  apply Disk.inRange_iff.mpr
  simp only [gptCommands, mem_cons, not_mem_nil, or_false] at mem
  rcases mem with rfl | rfl | rfl | rfl | rfl
  all_goals
    simp only [entrySectors_length, length_singleton]
    omega

/-- On a working disk of the right size an update succeeds. -/
theorem gptWrite_healthy (large : minDiskSectors ≤ gpt.diskSectors.toNat) (healthy : disk.Healthy)
    (whole : disk.sectorCount = gpt.diskSectors.toNat) :
    (gptWrite gpt disk).1 = .ok () ∧ (gptWrite gpt disk).2.Healthy ∧
      (gptWrite gpt disk).2.sectorCount = disk.sectorCount := by
  obtain ⟨last, backup, size⟩ := regions large
  have first : disk.inRange 0 1 = true := Disk.inRange_iff.mpr ⟨Nat.one_pos, by omega⟩
  have range := gptCommands_inRange large whole (disk.view 0)
  obtain ⟨done, t, same⟩ := healthy.writeAll range
  unfold gptWrite
  rw [if_neg (Nat.not_lt.mpr large), healthy.read first]
  simp only [Nat.add_zero, done, if_true]
  exact ⟨trivial, t, same⟩

/-! ## Edits -/

/-- One call that changes a table in memory. -/
inductive Edit : Gpt → Gpt → Prop where
  | add {gpt next : Gpt} {firstLba sectorCount : UInt64} {typeGuid random : Guid}
      {name : List UInt8} {number : Nat}
      (done : gptAdd gpt firstLba sectorCount typeGuid name random = .ok (next, number)) :
      Edit gpt next
  | remove {gpt next : Gpt} {number : Nat} (done : gptRemove gpt number = .ok next) : Edit gpt next
  | rename {gpt : Gpt} {number : Nat} {k : Fin 128} (found : gptEntryAt gpt number = some k)
      (name : List UInt8) : Edit gpt (gpt.setEntry k (entrySetName (gpt.entries k) name))

/-- A table after any number of edits. -/
def Edited : Gpt → Gpt → Prop :=
  Relation.ReflTransGen Edit

/-- The entry a call puts into its slot. -/
structure Gpt.Placed (gpt : Gpt) (e : Entry) : Prop where
  after : gpt.firstUsable ≤ e.firstLba
  ordered : e.firstLba ≤ e.lastLba
  before : e.lastLba ≤ gpt.lastUsable

/-- Every edit replaces one entry: by an empty one, by one with the same range, or by one inside
the usable range. -/
theorem Edit.replaces {next : Gpt} (edit : Edit gpt next) :
    ∃ k e, next = gpt.setEntry k e ∧ (entryInUse e = false ∨ gpt.Placed e ∨
        entryInUse (gpt.entries k) = true ∧ e.firstLba = (gpt.entries k).firstLba ∧
          e.lastLba = (gpt.entries k).lastLba) := by
  cases edit with
  | add done =>
    unfold gptAdd at done
    split at done
    · cases done
    dsimp only at done
    split at done
    · cases done
    · next range =>
      rw [not_or, not_or, UInt64.not_lt, UInt64.not_lt, UInt64.not_lt] at range
      split at done
      · cases done
      · cases done
      · next k found =>
        cases done
        exact ⟨k, _, rfl, .inr (.inl ⟨range.2.1, range.1, range.2.2⟩)⟩
  | remove done =>
    unfold gptRemove at done
    split at done
    · cases done
    · next k found =>
      cases done
      exact ⟨k, Entry.zero, rfl, .inl (by decide)⟩
  | @rename number k found name =>
    have used : entryInUse (gpt.entries k) = true := by
      unfold gptEntryAt at found
      split at found
      · split at found
        · next inUse =>
          cases found
          exact inUse.2
        · cases found
      · cases found
    exact ⟨k, _, rfl, .inr (.inr ⟨used, rfl, rfl⟩)⟩

/-- Edits leave everything but the entries alone. -/
structure Gpt.SameDisk (gpt o : Gpt) : Prop where
  diskSectors : o.diskSectors = gpt.diskSectors
  firstUsable : o.firstUsable = gpt.firstUsable
  lastUsable : o.lastUsable = gpt.lastUsable
  diskGuid : o.diskGuid = gpt.diskGuid

theorem Edited.sameDisk {o : Gpt} (edited : Edited gpt o) : gpt.SameDisk o := by
  induction edited with
  | refl => exact ⟨rfl, rfl, rfl, rfl⟩
  | tail _ edit ih =>
    obtain ⟨k, e, rfl, _⟩ := edit.replaces
    exact { ih with }

/-- Every partition lies in the usable range. -/
def Gpt.Contained (gpt : Gpt) : Prop :=
  ∀ k, entryInUse (gpt.entries k) = true → gpt.Placed (gpt.entries k)

theorem Edit.contained {next : Gpt} (edit : Edit gpt next) (contained : gpt.Contained) :
    next.Contained := by
  obtain ⟨k, e, rfl, out⟩ := edit.replaces
  intro o used
  by_cases same : o = k
  · subst same
    have here : (gpt.setEntry o e).entries o = e := update_self _ _ _
    rw [here] at used ⊢
    rcases out with empty | placed | ⟨before, first, last⟩
    · rw [empty] at used
      cases used
    · exact { placed with }
    · have placed := contained o before
      exact ⟨first ▸ placed.after, first ▸ last ▸ placed.ordered, last ▸ placed.before⟩
  · have there : (gpt.setEntry k e).entries o = gpt.entries o :=
      update_of_ne same _ _
    rw [there] at used ⊢
    exact { contained o used with }

theorem Edited.contained {o : Gpt} (edited : Edited gpt o) (contained : gpt.Contained) :
    o.Contained := by
  induction edited with
  | refl => exact contained
  | tail _ edit ih => exact edit.contained ih

/-- A table made from an empty one by edits. -/
def Built (sectors : UInt64) (gpt : Gpt) : Prop :=
  ∃ random start, gptInit sectors random = .ok start ∧ Edited start gpt

theorem Built.contained (built : Built sectors gpt) : gpt.Contained := by
  obtain ⟨random, start, done, edited⟩ := built
  apply edited.contained
  unfold gptInit at done
  split at done
  · cases done
  · cases done
    intro k used
    exact absurd used (by decide : ¬entryInUse Entry.zero = true)

theorem Built.fits (built : Built sectors gpt) : gpt.diskSectors = sectors ∧ gpt.Fits := by
  obtain ⟨random, start, done, edited⟩ := built
  have same := edited.sameDisk
  unfold gptInit at done
  by_cases small : sectors.toNat < minDiskSectors
  · rw [if_pos small] at done
    cases done
  rw [if_neg small] at done
  cases done
  have large := Nat.not_lt.mp small
  have size : 4163 ≤ sectors.toNat := large
  have diskSectors : gpt.diskSectors = sectors := same.diskSectors
  have firstUsable : gpt.firstUsable.toNat = 34 := by
    rw [same.firstUsable]
    rfl
  have lastUsable : gpt.lastUsable.toNat = sectors.toNat - 34 := by
    have bound := sectors.toNat_lt
    rw [same.lastUsable]
    simp only [UInt64.toNat_sub, UInt64.reduceToNat]
    omega
  refine ⟨diskSectors, diskSectors ▸ large, UInt64.le_iff_toNat_le.mpr ?_,
    UInt64.lt_iff_toNat_lt.mpr ?_⟩
  · omega
  · rw [diskSectors]
    omega

/-! ## A small table -/

def emptyTable : Gpt :=
  ⟨8192, 34, 8158, newGuid fun _ => 0, false, fun _ => Entry.zero⟩

/-- One system partition of 100 sectors. -/
def smallTable : Gpt :=
  emptyTable.setEntry 0 (newEntry 2048 2147 typeEsp (fun _ => 0) [65])

theorem smallTable_built : Built 8192 smallTable := by
  have added : gptAdd emptyTable 2048 100 typeEsp [65] (fun _ => 0) = .ok (smallTable, 1) := rfl
  exact ⟨fun _ => 0, emptyTable, rfl, Relation.ReflTransGen.single (Edit.add added)⟩

/-- A disk of 8192 sectors that holds nothing but a boot sector. -/
def smallDisk (boot : Sector) : Disk Sector :=
  working (fun lba => if lba = 0 then boot else fun _ => 0) 8192

/-- A blank sector is no header. -/
theorem loadCopy_blank {med : Nat → Sector} (blank : med 1 = fun _ => 0) :
    (loadCopy 8192 1 (working med 8192)).1 = .error .invalid := by
  have hdr : headerAt med 1 = Header.codec.symm fun _ => 0 := congrArg _ blank
  have unsigned : (Header.codec.symm fun _ => 0).signature ≠ gptSignature := by decide +kernel
  have refused : ¬headerAccepted 8192 1 (headerAt med 1) = true := by
    rw [hdr]
    unfold headerAccepted
    simp only [unsigned, decide_false, Bool.false_and, Bool.false_eq_true, not_false_eq_true]
  rw [loadCopy_working (by decide), if_neg refused]

theorem gptWrite_reads_back_small :
    (gptRead 8192 (working (gptWrite smallTable (smallDisk fun _ => 0)).2.view 8192)).1 =
        .ok smallTable ∧
      (gptRead 8192 (working (update (gptWrite smallTable (smallDisk fun _ => 0)).2.view 1
        fun _ => 0) 8192)).1 = .ok { smallTable with fromBackup := true } := by
  have fits := smallTable_built.fits.2
  have done := (gptWrite_healthy fits.large
    (working_healthy _ 8192 : (smallDisk fun _ => 0).Healthy) rfl).1
  obtain ⟨first, second⟩ := gptWrite_reads_back smallTable fits (smallDisk fun _ => 0) done
  refine ⟨first, (second _ ?_).2 (loadCopy_blank (update_self _ _ _))⟩
  intro a outside
  exact update_of_ne (by omega) _ _

end SavanXP.Partition
