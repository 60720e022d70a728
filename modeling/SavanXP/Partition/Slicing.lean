import SavanXP.Partition.RoundTrip
import SavanXP.Partition.Scan

/-!
# The kernel slices what the library writes

After an update the kernel's reader finds the primary header and its array,
and goes over the same entries the library wrote.  Every entry in use fits its
disk, so each becomes one slice, as long as the tables of slices and of block
devices have room.  The one thing that can stand in the way is the boot code
an update keeps: on a disk that held a FAT volume the new boot sector still
looks like one, and the reader stops there.
-/

namespace SavanXP.Partition

open SavanXP.Library List Function

/-! ## Reading a disk -/

/-- Block device `i` is a disk of `sectors` sectors on which everything works. -/
structure Shows (k : Kernel) (i : Nat) (sectors : UInt32) (disk : Disk Sector) : Prop where
  listed : i < k.deviceCount
  present : (k.devices i).present = true
  size : (k.devices i).sectorCount = sectors
  backing : (k.devices i).backing = .disk disk
  healthy : disk.Healthy
  whole : disk.sectorCount = sectors.toNat

section Reading

variable {k : Kernel} {i : Nat} {sectors : UInt32} {disk : Disk Sector}

theorem Shows.deviceForIndex (shows : Shows k i sectors disk) :
    deviceForIndex k i = some (k.devices i) :=
  if_pos ⟨shows.listed, shows.present⟩

theorem Shows.setDisk (shows : Shows k i sectors disk) (o : Nat) (info : DiskInfo) :
    Shows (k.setDisk o info) i sectors disk :=
  { shows with }

variable {lba n : UInt32}

section

variable (shows : Shows k i sectors disk) (pos : 0 < n.toNat)
  (ins : lba.toNat + n.toNat ≤ sectors.toNat)
include shows pos ins

theorem Shows.requestInRange : requestInRange (k.devices i) lba n = true := by
  have nonzero : n ≠ 0 := fun zero => by
    rw [zero] at pos
    exact Nat.lt_irrefl _ pos
  have starts : lba < sectors := UInt32.lt_iff_toNat_lt.mpr (by omega)
  have fits : n ≤ sectors - lba := by
    apply UInt32.le_iff_toNat_le.mpr
    rw [UInt32.toNat_sub_of_le _ _ (UInt32.le_of_lt starts)]
    omega
  unfold Partition.requestInRange
  simp only [shows.present, shows.size, Bool.and_eq_true, decide_eq_true_eq, ne_eq]
  exact ⟨⟨⟨trivial, nonzero⟩, starts⟩, fits⟩

theorem Shows.diskRead : diskRead k i lba n =
      (some (fun off => disk.view (lba.toNat + off)), k) := by
  have range : disk.inRange lba.toNat n.toNat = true :=
    Disk.inRange_iff.mpr ⟨pos, shows.whole ▸ ins⟩
  have same : k.setDevice i { k.devices i with backing := .disk disk } = k := by
    rw [← shows.backing]
    unfold Kernel.setDevice
    rw [update_eq_self]
  unfold Partition.diskRead
  simp only [shows.deviceForIndex, shows.requestInRange pos ins, if_true]
  rw [shows.backing]
  simp only [shows.healthy.read range, same]

theorem Shows.blockRead : blockRead k i lba n =
      (some (fun off => disk.view (lba.toNat + off)), k) := by
  unfold Partition.blockRead
  simp only [shows.deviceForIndex, shows.requestInRange pos ins, if_true]
  rw [shows.backing]
  exact shows.diskRead pos ins

end

end Reading

/-! ## The entry array in memory -/

variable {place : Nat} {entries : Fin 128 → Entry}

theorem bufferByte_stored {med : Nat → Sector} (stored : Stored med place entries)
    (position : Fin 16384) : bufferByte (fun off => med (place + off)) position.val =
      entriesCodec entries position := by
  have ins : position.val / 512 < 32 := by
    omega
  have sectors := congrFun (sectorsCodec.apply_symm_apply (entriesCodec entries)) position
  rw [← sectors]
  exact (congrFun (stored ⟨position.val / 512, ins⟩) ⟨position.val % 512, _⟩).trans
    (Codec.array_get 32 (Codec.raw 512) _ position).symm

theorem map_range_eq_ofFn {size : Nat} {bytes : Nat → UInt8} {data : Bytes size}
    (same : ∀ position : Fin size, bytes position.val = data position) :
    (range size).map bytes = ofFn data := by
  rw [ofFn_eq_map, ← map_coe_finRange_eq_range, map_map]
  exact map_congr_left fun position _ => same position

theorem bufferCrc_stored {med : Nat → Sector} (stored : Stored med place entries) :
    bufferCrc (bufferByte fun off => med (place + off)) 16384 = entriesCrc entries := by
  unfold bufferCrc entriesCrc
  rw [map_range_eq_ofFn (bufferByte_stored stored)]

theorem entry_stored {med : Nat → Sector} (stored : Stored med place entries)
    (slot : Fin 128) : (Entry.codec.symm fun off => bufferByte (fun off => med (place + off))
      (slot.val * (128 : UInt32).toNat + off.val)) = entries slot := by
  rw [Equiv.symm_apply_eq]
  funext off
  have ins : slot.val * 128 + off.val < 16384 := by
    omega
  have byte := bufferByte_stored stored ⟨slot.val * 128 + off.val, ins⟩
  have found := Codec.array_get 128 Entry.codec entries ⟨slot.val * 128 + off.val, ins⟩
  have quotient : (⟨slot.val * 128 + off.val, ins⟩ : Fin (128 * 128)).divNat = slot := by
    apply Fin.ext
    change (slot.val * 128 + off.val) / 128 = slot.val
    omega
  have remainder : (⟨slot.val * 128 + off.val, ins⟩ : Fin (128 * 128)).modNat = off := by
    apply Fin.ext
    change (slot.val * 128 + off.val) % 128 = off.val
    omega
  rw [quotient, remainder] at found
  exact byte.trans found

/-! ## Loading the table -/

theorem arrayBytes_buildHeader (gpt : Gpt) (lba alternate place : UInt64) :
    arrayBytes (buildHeader gpt lba alternate place) = 16384 :=
  (by decide : (128 : UInt32).toUInt64 * (128 : UInt32).toUInt64 = 16384)

theorem arraySectors_buildHeader (gpt : Gpt) (lba alternate place : UInt64) :
    arraySectors (buildHeader gpt lba alternate place) = 32 := by
  rw [arraySectors, arrayBytes_buildHeader]
  decide

variable {gpt : Gpt} {k : Kernel} {i : Nat}

theorem buildHeader_gptAccepted (fits : gpt.Fits) {sectors : UInt32}
    (size : gpt.diskSectors = sectors.toUInt64) (alternate : UInt64) :
    gptHeaderAccepted sectors 1 (buildHeader gpt 1 alternate 2) = true := by
  have checked : headerCrcOf (buildHeader gpt 1 alternate 2) =
      (buildHeader gpt 1 alternate 2).headerCrc := headerCrcOf_stamped _ _
  have large : 4163 ≤ sectors.toUInt64.toNat := size ▸ fits.large
  have starts : (2 : UInt64) < sectors.toUInt64 := by
    apply UInt64.lt_iff_toNat_lt.mpr
    rw [show (2 : UInt64).toNat = 2 from rfl]
    omega
  have room : (32 : UInt64) ≤ sectors.toUInt64 - 2 := by
    apply UInt64.le_iff_toNat_le.mpr
    rw [UInt64.toNat_sub_of_le _ _ (UInt64.le_of_lt starts), show (32 : UInt64).toNat = 32 from rfl,
      show (2 : UInt64).toNat = 2 from rfl]
    omega
  have bytes : (arrayBytes (buildHeader gpt 1 alternate 2)).toNat ≤ gptMaxArrayBytes := by
    rw [arrayBytes_buildHeader]
    decide
  unfold gptHeaderAccepted
  simp only [Bool.and_eq_true, decide_eq_true_eq, ne_eq]
  rw [arraySectors_buildHeader]
  refine ⟨⟨⟨⟨⟨rfl, ?_⟩, checked, rfl⟩, ?_⟩, bytes⟩, ⟨?_, starts⟩, room⟩
  · exact ⟨(by decide : gptHeaderSize ≤ gptHeaderSize), (by decide : gptHeaderSize ≤ 512)⟩
  · exact ⟨⟨⟨(by decide : (128 : UInt32) ≤ 128), (by decide : (128 : UInt32) ≤ 512)⟩,
      (by decide : (512 : UInt32) % 128 = 0)⟩, (by decide : ¬(128 : UInt32) = 0)⟩
  · exact (by decide : ¬(2 : UInt64) = 0)

theorem loadGptArray_written {sectors : UInt32}
    {disk : Disk Sector} (shows : Shows k i sectors disk)
    (large : minDiskSectors ≤ sectors.toNat) (alternate : UInt64)
    (stored : Stored disk.view 2 gpt.entries) : loadGptArray k i (buildHeader gpt 1 alternate 2) =
      (some (⟨alternate, 2, 128, 128, gpt.diskGuid⟩,
        bufferByte fun off => disk.view (2 + off)), k) := by
  have ins : (2 : UInt32).toNat + (32 : UInt32).toNat ≤ sectors.toNat :=
    Nat.le_trans (by decide) large
  have array : blockRead k i (buildHeader gpt 1 alternate 2).entriesLba.toUInt32
      (arraySectors (buildHeader gpt 1 alternate 2)) =
        (some (fun off => disk.view (2 + off)), k) := by
    rw [arraySectors_buildHeader]
    exact shows.blockRead (by decide) ins
  have checked : bufferCrc (bufferByte fun off => disk.view (2 + off))
      (arrayBytes (buildHeader gpt 1 alternate 2)).toNat =
        (buildHeader gpt 1 alternate 2).entriesCrc := by
    rw [arrayBytes_buildHeader]
    exact bufferCrc_stored stored
  unfold loadGptArray
  rw [array]
  exact if_pos checked

theorem Gpt.Fits.sectors {sectors : UInt32} (fits : gpt.Fits)
    (size : gpt.diskSectors = sectors.toUInt64) : minDiskSectors ≤ sectors.toNat := by
  have bound := fits.large
  rwa [size, UInt32.toNat_toUInt64] at bound

/-- The kernel accepts the primary copy the library wrote. -/
theorem loadGpt_written {sectors : UInt32} {disk : Disk Sector}
    (shows : Shows k i sectors disk) (fits : gpt.Fits)
    (size : gpt.diskSectors = sectors.toUInt64) {alternate : UInt64}
    (written : CopyWritten gpt 1 alternate 2 disk.view) : loadGpt k i sectors 1 =
      (some (⟨alternate, 2, 128, 128, gpt.diskGuid⟩,
        bufferByte fun off => disk.view (2 + off)), k) := by
  have large := fits.sectors size
  have ins : (1 : UInt32).toNat + (1 : UInt32).toNat ≤ sectors.toNat :=
    Nat.le_trans (by decide) large
  have above : ¬sectors ≤ 1 := by
    exact Nat.not_le.mpr ins
  have hdr : Header.codec.symm (disk.view 1) = buildHeader gpt 1 alternate 2 := by
    rw [show disk.view 1 = Header.codec (buildHeader gpt 1 alternate 2) from written.header,
      Equiv.symm_apply_apply]
  unfold loadGpt
  rw [if_neg above, shows.blockRead (by decide) ins]
  change (if gptHeaderAccepted sectors 1 (Header.codec.symm (disk.view 1)) then
    loadGptArray k i (Header.codec.symm (disk.view 1)) else _) = _
  rw [hdr, if_pos (buildHeader_gptAccepted fits size alternate)]
  exact loadGptArray_written shows large alternate written.array

/-! ## Slices -/

/-- What is said about a partition, by the table or by the kernel. -/
structure Described where
  number : Nat
  start : Nat
  sectors : Nat
  typeGuid : Guid
  uniqueGuid : Guid
  esp : Bool
deriving DecidableEq

def Info.described (info : Info) : Described :=
  ⟨info.number, info.startLba.toNat, info.sectorCount.toNat, info.typeGuid, info.uniqueGuid,
    info.esp⟩

/-- Entry `slot`, counted from 0, over the sectors from its first to its last. -/
def Entry.described (e : Entry) (slot : Nat) : Described :=
  ⟨slot + 1, e.firstLba.toNat, e.lastLba.toNat + 1 - e.firstLba.toNat, e.typeGuid,
    e.uniqueGuid, e.typeGuid = typeEsp⟩

/-- The slots of the entries in use. -/
def usedSlots (gpt : Gpt) : List (Fin 128) :=
  (finRange 128).filter fun slot => entryInUse (gpt.entries slot)

/-- The slice in a slot, if it was cut from disk `i`. -/
def sliceIn (k : Kernel) (i slot : Nat) : Option Slice :=
  if (k.slices slot).present ∧ (k.slices slot).parentIndex = i then
    some (k.slices slot)
  else none

/-- The slices cut from disk `i`. -/
def slicesOf (k : Kernel) (i : Nat) : List Slice :=
  contents (sliceIn k i) maxSlices

def freeSliceSlots (k : Kernel) : Nat :=
  freeSlots (fun slot => (k.slices slot).present) maxSlices

def freeDeviceSlots (k : Kernel) : Nat :=
  freeSlots (fun slot => (k.devices slot).present) maxBlockDevices

/-- The slice in a slot is a block device of its own, of the right size. -/
structure Registered (k : Kernel) (slot : Nat) : Prop where
  listed : (k.slices slot).deviceIndex < k.deviceCount
  present : (k.devices (k.slices slot).deviceIndex).present = true
  backing : (k.devices (k.slices slot).deviceIndex).backing = .slice slot
  size : (k.devices (k.slices slot).deviceIndex).sectorCount =
    (k.slices slot).info.sectorCount

/-- The slices of disk `i` are the ones described, each is a block device, and there is room
for `left` more. -/
structure Sliced (k : Kernel) (i : Nat) (seen : List Described) (left : Nat) : Prop where
  slices : ((slicesOf k i).map fun slice => slice.info.described).Perm seen
  registered : ∀ slot < maxSlices, ∀ slice, sliceIn k i slot = some slice →
    Registered k slot
  sliceRoom : left ≤ freeSliceSlots k
  deviceRoom : left ≤ freeDeviceSlots k

/-- What adding a slice does when there is room for it. -/
def Added (k : Kernel) (parentIndex : Nat) (info : Info) (t : Kernel) : Prop :=
  ∃ slot dev name writable, slot < maxSlices ∧ (k.slices slot).present = false ∧
    dev < maxBlockDevices ∧ (k.devices dev).present = false ∧
    t.slices = update k.slices slot
      ⟨true, dev, parentIndex, { info with parentIndex := parentIndex }⟩ ∧
    t.devices = update k.devices dev
      ⟨true, .slice slot, info.sectorCount, writable, name⟩ ∧
    t.deviceCount = max k.deviceCount (dev + 1)

theorem addSlice_added {parentSectors : UInt32} {info : Info}
    (sliceRoom : 0 < freeSliceSlots k) (deviceRoom : 0 < freeDeviceSlots k)
    (nonempty : info.sectorCount ≠ 0) (starts : info.startLba < parentSectors)
    (fits : info.sectorCount ≤ parentSectors - info.startLba) (parentIndex : Nat)
    (parentName : List UInt8) (parentWritable : Bool) : Added k parentIndex info
      (addSlice k parentIndex parentName parentWritable parentSectors info).2 := by
  obtain ⟨slot, foundSlot⟩ := firstFree_isSome sliceRoom
  obtain ⟨slotInside, slotFree⟩ := firstFree_some foundSlot
  obtain ⟨dev, foundDevice⟩ := firstFree_isSome deviceRoom
  obtain ⟨deviceInside, deviceFree⟩ := firstFree_some foundDevice
  have usable : ¬(info.sectorCount = 0 ∨ parentSectors ≤ info.startLba) := by
    rw [not_or, UInt32.not_le]
    exact ⟨nonempty, starts⟩
  unfold addSlice
  rw [if_neg usable, foundSlot]
  simp only [if_neg (UInt32.not_lt.mpr fits)]
  unfold registerDevice
  rw [if_neg nonempty]
  simp only [Kernel.setName, Kernel.setSlice, foundDevice]
  refine ⟨slot, dev, buildName parentName info.number, parentWritable, slotInside, slotFree,
    deviceInside, deviceFree, ?_, rfl, rfl⟩
  exact update_idem _ _ _

variable {left : Nat} {seen : List Described}

theorem Sliced.add {k t : Kernel} {info : Info}
    (sliced : Sliced k i seen (left + 1)) (added : Added k i info t) :
    Sliced t i (info.described :: seen) left := by
  obtain ⟨slot, dev, name, writable, slotInside, slotFree, deviceInside, deviceFree, slices,
    devices, deviceCount⟩ := added
  have held : sliceIn t i = update (sliceIn k i) slot
      (some ⟨true, dev, i, { info with parentIndex := i }⟩) := by
    funext o
    unfold sliceIn
    rw [slices]
    by_cases same : o = slot
    · subst same
      rw [update_self, update_self]
      exact if_pos ⟨rfl, rfl⟩
    · rw [update_of_ne same, update_of_ne same]
  have free : sliceIn k i slot = none := by
    apply if_neg
    rw [slotFree]
    rintro ⟨bad, _⟩
    cases bad
  have takenSlices : (fun o => (t.slices o).present) =
      update (fun o => (k.slices o).present) slot true := by
    funext o
    rw [slices]
    exact apply_update (fun _ => Slice.present) ..
  have takenDevices : (fun o => (t.devices o).present) =
      update (fun o => (k.devices o).present) dev true := by
    funext o
    rw [devices]
    exact apply_update (fun _ => BlockDevice.present) ..
  constructor
  · have filled := contents_update slotInside free
      (⟨true, dev, i, { info with parentIndex := i }⟩ : Slice)
    unfold slicesOf
    rw [held]
    exact (filled.map _).trans (sliced.slices.cons _)
  · intro o ins slice found
    rw [held] at found
    by_cases same : o = slot
    · subst same
      have here : t.slices o = ⟨true, dev, i, { info with parentIndex := i }⟩ := by
        rw [slices, update_self]
      have there : t.devices dev = ⟨true, .slice o, info.sectorCount, writable, name⟩ := by
        rw [devices, update_self]
      constructor
      · rw [here, deviceCount]
        exact Nat.lt_of_lt_of_le (Nat.lt_succ_self _) (Nat.le_max_right _ _)
      all_goals
        rw [here, there]
    · rw [update_of_ne same] at found
      have old := sliced.registered o ins slice found
      have here : t.slices o = k.slices o := by
        rw [slices, update_of_ne same]
      have apart : (k.slices o).deviceIndex ≠ dev := by
        intro eq
        have present := old.present
        rw [eq, deviceFree] at present
        cases present
      have there : t.devices (k.slices o).deviceIndex = k.devices (k.slices o).deviceIndex := by
        rw [devices, update_of_ne apart]
      refine ⟨?_, ?_, ?_, ?_⟩ <;> rw [here]
      · rw [deviceCount]
        exact Nat.lt_of_lt_of_le old.listed (Nat.le_max_left _ _)
      all_goals rw [there]
      · exact old.present
      · exact old.backing
      · exact old.size
  · have used := @freeSlots_update (fun o => (k.slices o).present) _ _ slotInside slotFree
    have room := sliced.sliceRoom
    unfold freeSliceSlots at room ⊢
    rw [takenSlices]
    omega
  · have used := @freeSlots_update (fun o => (k.devices o).present) _ _ deviceInside
      deviceFree
    have room := sliced.deviceRoom
    unfold freeDeviceSlots at room ⊢
    rw [takenDevices]
    omega

/-! ## All entries -/

/-- The numbers of an entry that fits a disk of 32-bit size. -/
theorem entryInfo_described {sectors : UInt32} (fits : gpt.Fits)
    (size : gpt.diskSectors = sectors.toUInt64) {e : Entry} (placed : gpt.Placed e)
    (slot : Nat) : (entryInfo e slot).described = e.described slot ∧
      (entryInfo e slot).sectorCount ≠ 0 ∧ (entryInfo e slot).startLba < sectors ∧
      (entryInfo e slot).sectorCount ≤ sectors - (entryInfo e slot).startLba ∧
      ¬(e.lastLba < e.firstLba ∨ 0xffffffff < e.firstLba ∨ 0xffffffff < e.lastLba) := by
  have ordered := UInt64.le_iff_toNat_le.mp placed.ordered
  have usable := UInt64.le_iff_toNat_le.mp placed.before
  have below := UInt64.lt_iff_toNat_lt.mp fits.below
  have bound := sectors.toNat_lt
  rw [size, UInt32.toNat_toUInt64] at below
  have first : e.firstLba.toUInt32.toNat = e.firstLba.toNat := by
    exact Nat.mod_eq_of_lt (by omega)
  have length : (e.lastLba - e.firstLba + 1).toNat = e.lastLba.toNat + 1 - e.firstLba.toNat := by
    rw [UInt64.toNat_add, UInt64.toNat_sub_of_le _ _ placed.ordered,
      show (1 : UInt64).toNat = 1 from rfl,
      Nat.mod_eq_of_lt (by omega)]
    omega
  have n : (e.lastLba - e.firstLba + 1).toUInt32.toNat =
      e.lastLba.toNat + 1 - e.firstLba.toNat := by
    rw [UInt64.toNat_toUInt32, length]
    exact Nat.mod_eq_of_lt (by omega)
  have starts : e.firstLba.toUInt32 < sectors := by
    apply UInt32.lt_iff_toNat_lt.mpr
    omega
  refine ⟨?_, ?_, starts, ?_, ?_⟩
  · change (⟨slot + 1, e.firstLba.toUInt32.toNat,
      (e.lastLba - e.firstLba + 1).toUInt32.toNat, _, _, _⟩ : Described) = _
    rw [first, n]
    rfl
  · intro zero
    have none : (e.lastLba - e.firstLba + 1).toUInt32.toNat = 0 := congrArg UInt32.toNat zero
    omega
  · apply UInt32.le_iff_toNat_le.mpr
    change (e.lastLba - e.firstLba + 1).toUInt32.toNat ≤ (sectors - e.firstLba.toUInt32).toNat
    rw [UInt32.toNat_sub_of_le _ _ (UInt32.le_of_lt starts)]
    omega
  · rw [UInt64.lt_iff_toNat_lt, UInt64.lt_iff_toNat_lt, UInt64.lt_iff_toNat_lt,
      show (0xffffffff : UInt64).toNat = 4294967295 from rfl]
    omega

section Entries

variable {gpt : Gpt} {sectors : UInt32} {med : Nat → Sector} {i : Nat}
  {parentName : List UInt8} {parentWritable : Bool}

theorem scanEntry_unused (stored : Stored med 2 gpt.entries) (slot : Fin 128)
    (unused : entryInUse (gpt.entries slot) = false) :
    scanEntry i parentName parentWritable sectors 128
      (bufferByte fun off => med (2 + off)) k slot.val = k := by
  have empty : guidIsZero (gpt.entries slot).typeGuid = true := by
    simpa only [entryInUse, Bool.not_eq_false'] using unused
  unfold scanEntry
  simp only [entry_stored stored slot]
  rw [if_pos empty]

variable {k : Kernel} (fits : gpt.Fits) (size : gpt.diskSectors = sectors.toUInt64)
  (contained : gpt.Contained) (stored : Stored med 2 gpt.entries)
include fits size contained stored

/-- One round of the loop over the entries. -/
theorem Sliced.scanEntry (slot : Fin 128) (used : entryInUse (gpt.entries slot))
    (sliced : Sliced k i seen (left + 1)) :
    Sliced (scanEntry i parentName parentWritable sectors 128
        (bufferByte fun off => med (2 + off)) k slot.val) i
      ((gpt.entries slot).described slot.val :: seen) left := by
  obtain ⟨described, nonempty, starts, room, regular⟩ :=
    entryInfo_described fits size (contained slot used) slot.val
  have inUse : ¬guidIsZero (gpt.entries slot).typeGuid = true := by
    simpa only [entryInUse, Bool.not_eq_true', Bool.not_eq_true] using used
  have added := addSlice_added (Nat.lt_of_lt_of_le (Nat.succ_pos _) sliced.sliceRoom)
    (Nat.lt_of_lt_of_le (Nat.succ_pos _) sliced.deviceRoom) nonempty starts room i parentName
    parentWritable
  unfold Partition.scanEntry
  simp only [entry_stored stored slot]
  rw [if_neg inUse, if_neg regular, ← described]
  exact sliced.add added

/-- The whole loop. -/
theorem Sliced.scanEntries (slots : List (Fin 128)) (sliced : Sliced k i seen
      (slots.filter fun slot => entryInUse (gpt.entries slot)).length) :
    ∃ all, Sliced (slots.foldl (fun k slot => Partition.scanEntry i parentName parentWritable
        sectors 128 (bufferByte fun off => med (2 + off)) k slot.val) k) i all 0 ∧
      all.Perm (((slots.filter fun slot => entryInUse (gpt.entries slot)).map fun slot =>
        (gpt.entries slot).described slot.val) ++ seen) := by
  induction slots generalizing k seen with
  | nil => exact ⟨seen, sliced, Perm.refl _⟩
  | cons slot rest ih =>
    rw [foldl_cons]
    cases used : entryInUse (gpt.entries slot) with
    | false =>
      rw [filter_cons_of_neg (by simp [used])] at sliced ⊢
      rw [scanEntry_unused stored slot used]
      exact ih sliced
    | true =>
      rw [filter_cons_of_pos (by simp [used])] at sliced ⊢
      obtain ⟨all, done, same⟩ := ih (sliced.scanEntry fits size contained stored slot used)
      exact ⟨all, done, same.trans perm_middle⟩

theorem Sliced.scanAll (alternate : UInt64) (parentName : List UInt8)
    (parentWritable : Bool) (sliced : Sliced k i [] (usedSlots gpt).length) :
    ∃ all, Sliced (Partition.scanEntries i parentName parentWritable sectors
        ⟨alternate, 2, 128, 128, gpt.diskGuid⟩ (bufferByte fun off => med (2 + off)) k) i all 0 ∧
      all.Perm ((usedSlots gpt).map fun slot => (gpt.entries slot).described slot.val) := by
  obtain ⟨all, done, same⟩ := @Sliced.scanEntries [] gpt sectors med i parentName parentWritable
    k fits size contained stored (List.finRange 128) sliced
  rw [append_nil] at same
  refine ⟨all, ?_, same⟩
  exact done

end Entries

/-! ## The boot sector -/

theorem BootSector.codec_signature (boot : BootSector) (position : Fin 2) :
    BootSector.codec boot (Fin.natAdd 440 (Fin.natAdd 6 (Fin.natAdd 64 position))) =
      Codec.u16 boot.signature position := by
  unfold BootSector.codec
  rw [Equiv.trans_apply]
  refine (Codec.pair_late (Codec.raw 440) BootSector.tailCodec _ _).trans ?_
  refine (Codec.pair_late (Codec.raw 6) _ _ _).trans ?_
  exact Codec.pair_late _ _ _ _

theorem protectiveMbr_signature (boot : Sector) (last : UInt64) :
    protectiveMbr boot last 510 = 0x55 ∧ protectiveMbr boot last 511 = 0xaa :=
  ⟨(BootSector.codec_signature _ 0).trans (by decide : Codec.u16 0xaa55 0 = 0x55),
    (BootSector.codec_signature _ 1).trans (by decide : Codec.u16 0xaa55 1 = 0xaa)⟩

/-- The boot code of a FAT volume: a jump and the name of the file system. -/
def fatBootCode (sector : Sector) : Bool :=
  (sector 0 = 0xeb || sector 0 = 0xe9) &&
    ((sector 54 = 70 && sector 55 = 65 && sector 56 = 84) ||
      (sector 82 = 70 && sector 83 = 65 && sector 84 = 84 && sector 85 = 51 && sector 86 = 50))

/-- The new boot sector looks like the one of a FAT volume exactly when the boot code does. -/
theorem isBootSector_protectiveMbr (boot : Sector) (last : UInt64) :
    isBootSector (protectiveMbr boot last) = fatBootCode boot := by
  obtain ⟨low, high⟩ := protectiveMbr_signature boot last
  have kept := protectiveMbr_bootCode boot last
  unfold isBootSector fatBootCode
  rw [low, high, kept 0 (by decide), kept 54 (by decide), kept 55 (by decide), kept 56 (by decide),
    kept 82 (by decide), kept 83 (by decide), kept 84 (by decide), kept 85 (by decide),
    kept 86 (by decide)]
  simp only [decide_true, Bool.and_true]

theorem signature_protectiveMbr (boot : Sector) (last : UInt64) :
    (BootSector.codec.symm (protectiveMbr boot last)).signature = 0xaa55 := by
  rw [protectiveMbr, Equiv.symm_apply_apply]

/-! ## Scanning a disk -/

@[simp]
theorem Kernel.setDisk_self (k : Kernel) (i : Nat) (info : DiskInfo) :
    (k.setDisk i info).disks i = info :=
  update_self _ _ _

theorem Sliced.setDisk (sliced : Sliced k i seen left) (o : Nat) (info : DiskInfo) :
    Sliced (k.setDisk o info) i seen left :=
  { sliced with
    registered := fun slot ins slice found => { sliced.registered slot ins slice found with } }

theorem sliced_of_unsliced (unsliced : slicesOf k i = [])
    (sliceRoom : left ≤ freeSliceSlots k) (deviceRoom : left ≤ freeDeviceSlots k) :
    Sliced k i [] left := by
  refine ⟨unsliced ▸ Perm.refl _, fun slot ins slice found => ?_, sliceRoom, deviceRoom⟩
  have none := filterMap_eq_nil_iff.mp unsliced slot (mem_range.mpr ins)
  rw [none] at found
  cases found

section Scanning

variable {k : Kernel} {i : Nat} {sectors : UInt32} {disk : Disk Sector} {gpt : Gpt}
  {boot : Sector}

section

variable (shows : Shows k i sectors disk)
include shows

/-- The reader finds the table and goes over its entries. -/
theorem scanGpt_written (fits : gpt.Fits)
    (size : gpt.diskSectors = sectors.toUInt64) (written : Written gpt boot disk.view)
    (contained : gpt.Contained) (parentName : List UInt8) (parentWritable : Bool)
    (sliced : Sliced k i [] (usedSlots gpt).length) :
    (scanGpt k i parentName parentWritable sectors).1 = .gpt ∧
      ∃ all, Sliced (scanGpt k i parentName parentWritable sectors).2 i all 0 ∧
        all.Perm ((usedSlots gpt).map fun slot => (gpt.entries slot).described slot.val) := by
  have large := fits.sectors size
  have ins : (1 : UInt32).toNat + (1 : UInt32).toNat ≤ sectors.toNat :=
    Nat.le_trans (by decide) large
  have signed : (Header.codec.symm (disk.view 1)).signature = gptSignature := by
    rw [show disk.view 1 = Header.codec _ from written.primary.header, Equiv.symm_apply_apply]
    rfl
  have loaded : loadEither k i sectors =
      (some (false, ⟨gpt.diskSectors - 1, 2, 128, 128, gpt.diskGuid⟩,
        bufferByte fun off => disk.view (2 + off)), k) := by
    unfold loadEither
    rw [loadGpt_written shows fits size written.primary]
  unfold scanGpt
  rw [shows.blockRead (by decide) ins]
  change (if (Header.codec.symm (disk.view 1)).signature ≠ gptSignature then _ else _ :
      Scheme × Kernel).1 = .gpt ∧ ∃ all, Sliced (
        if (Header.codec.symm (disk.view 1)).signature ≠ gptSignature then _ else _ :
        Scheme × Kernel).2 i all 0 ∧ _
  rw [if_neg (not_not.mpr signed), loaded]
  exact ⟨rfl, (sliced.setDisk i _).scanAll fits size contained written.primary.array _ _ _⟩

theorem scanDisk_shown (large : 2 ≤ sectors.toNat) : scanDisk k i =
      scanBoot (k.setDisk i DiskInfo.zero) i (k.devices i) (disk.view 0) := by
  have shown := shows.setDisk i DiskInfo.zero
  have ins : (0 : UInt32).toNat + (1 : UInt32).toNat ≤ sectors.toNat :=
    Nat.le_trans (by decide) large
  have enough : ¬((k.setDisk i DiskInfo.zero).devices i).sectorCount < 2 := by
    rw [shown.size, UInt32.not_lt, UInt32.le_iff_toNat_le]
    exact large
  unfold scanDisk
  simp only [shown.deviceForIndex]
  rw [if_neg enough, shown.blockRead (by decide) ins]
  rfl

theorem scanDisk_written (fits : gpt.Fits)
    (size : gpt.diskSectors = sectors.toUInt64) (written : Written gpt boot disk.view)
    (plain : fatBootCode boot = false) (contained : gpt.Contained)
    (sliced : Sliced k i [] (usedSlots gpt).length) :
    ((scanDisk k i).disks i).scheme = .gpt ∧ ∃ all, Sliced (scanDisk k i) i all 0 ∧
        all.Perm ((usedSlots gpt).map fun slot => (gpt.entries slot).described slot.val) := by
  have shown := shows.setDisk i DiskInfo.zero
  have large : 2 ≤ sectors.toNat := Nat.le_trans (by decide) (fits.sectors size)
  have table : ¬((BootSector.codec.symm (disk.view 0)).signature ≠ 0xaa55 ∨
      isBootSector (disk.view 0) = true) := by
    rw [written.boot, signature_protectiveMbr, isBootSector_protectiveMbr, plain]
    simp
  obtain ⟨found, all, done, same⟩ := scanGpt_written shown fits size written contained
    (k.devices i).name (k.devices i).writable (sliced.setDisk i DiskInfo.zero)
  have sizes : (k.devices i).sectorCount = sectors := shows.size
  rw [scanDisk_shown shows large]
  unfold scanBoot
  rw [if_neg table]
  unfold scanTables
  simp only [sizes, found, ne_eq, reduceCtorEq, not_false_eq_true, if_true]
  refine ⟨?_, all, done.setDisk i _, same⟩
  rw [Kernel.setDisk_self]

/-- A table behind the boot code of a FAT volume is not looked for. -/
theorem scanDisk_bootCode (large : 2 ≤ sectors.toNat) (written : Written gpt boot disk.view)
    (fat : fatBootCode boot = true) : ((scanDisk k i).disks i).scheme = .none := by
  have volume : (BootSector.codec.symm (disk.view 0)).signature ≠ 0xaa55 ∨
      isBootSector (disk.view 0) = true := by
    rw [written.boot, isBootSector_protectiveMbr]
    exact .inr fat
  rw [scanDisk_shown shows large]
  unfold scanBoot
  rw [if_pos volume, Kernel.setDisk_self]
  rfl

end

end Scanning

/-- After an update of a disk the kernel slices it into exactly the partitions of the table, each
a block device of its own, if and only if the disk had no FAT boot code. -/
theorem scanDisk_slices (kernel : Kernel) (index : Nat) (sectors : UInt32) (gpt : Gpt)
    (before disk : Disk Sector) (built : Built sectors.toUInt64 gpt)
    (written : (gptWrite gpt before).1 = .ok ())
    (shows : Shows kernel index sectors disk)
    (same : disk.view = (gptWrite gpt before).2.view)
    (unsliced : slicesOf kernel index = [])
    (sliceRoom : (usedSlots gpt).length ≤ freeSliceSlots kernel)
    (deviceRoom : (usedSlots gpt).length ≤ freeDeviceSlots kernel) :
    (((scanDisk kernel index).disks index).scheme = .gpt ∧
      ((slicesOf (scanDisk kernel index) index).map fun slice => slice.info.described).Perm
        ((usedSlots gpt).map fun slot => (gpt.entries slot).described slot.val) ∧
      ∀ slot < maxSlices, ∀ slice, sliceIn (scanDisk kernel index) index slot = some slice →
        Registered (scanDisk kernel index) slot) ↔ fatBootCode (before.view 0) = false := by
  obtain ⟨size, fits⟩ := built.fits
  have landed : Written gpt (before.view 0) disk.view := by
    rw [same]
    exact (gptWrite_written written).2
  constructor
  · rintro ⟨scheme, _⟩
    rw [← Bool.not_eq_true]
    intro fat
    have none := scanDisk_bootCode shows (Nat.le_trans (by decide) (fits.sectors size)) landed fat
    rw [none] at scheme
    cases scheme
  · intro plain
    obtain ⟨scheme, all, sliced, perm⟩ := scanDisk_written shows fits size landed plain
      built.contained (sliced_of_unsliced unsliced sliceRoom deviceRoom)
    exact ⟨scheme, sliced.slices.trans perm, sliced.registered⟩

/-- A kernel with one disk. -/
def oneDisk (disk : Disk Sector) : Kernel :=
  { devices := fun i =>
      if i = 0 then ⟨true, .disk disk, 8192, true, [100]⟩ else ⟨false, .slice 0, 0, false, []⟩
    deviceCount := 1
    slices := fun _ => Slice.zero
    names := fun _ => []
    disks := fun _ => DiskInfo.zero }

theorem oneDisk_shows {disk : Disk Sector} (healthy : disk.Healthy)
    (whole : disk.sectorCount = (8192 : UInt32).toNat) : Shows (oneDisk disk) 0 8192 disk :=
  ⟨Nat.one_pos, rfl, rfl, rfl, healthy, whole⟩

/-- The small table can be written to the small disk. -/
theorem smallTable_written (boot : Sector) : (gptWrite smallTable (smallDisk boot)).1 = .ok () ∧
      Shows (oneDisk (gptWrite smallTable (smallDisk boot)).2) 0 8192
        (gptWrite smallTable (smallDisk boot)).2 := by
  have ok : (smallDisk boot).Healthy := working_healthy _ _
  have size : (smallDisk boot).sectorCount = smallTable.diskSectors.toNat := rfl
  obtain ⟨done, healthy, whole⟩ := gptWrite_healthy smallTable_built.fits.2.large ok size
  have same : (gptWrite smallTable (smallDisk boot)).2.sectorCount = (8192 : UInt32).toNat :=
    whole.trans (by decide : (8192 : UInt64).toNat = (8192 : UInt32).toNat)
  exact ⟨done, oneDisk_shows healthy same⟩

theorem scanDisk_slices_small :
    ((slicesOf (scanDisk (oneDisk (gptWrite smallTable (smallDisk fun _ => 0)).2) 0) 0).map
      fun slice => slice.info.described).Perm
        [⟨1, 2048, 100, typeEsp, newGuid fun _ => 0, true⟩] := by
  obtain ⟨written, shows⟩ := smallTable_written fun _ => 0
  have sliced := scanDisk_slices _ 0 8192 smallTable (smallDisk fun _ => 0) _ smallTable_built
    written shows rfl rfl (by decide : 1 ≤ 16) (by decide : 1 ≤ 31)
  exact (sliced.mpr (by decide)).2.1

/-- The boot sector of a FAT volume. -/
def fatSector : Sector := fun position =>
  if position = 0 then 0xeb else if position = 54 then 70 else if position = 55 then 65
  else if position = 56 then 84 else 0

/-- On a disk that held a FAT volume the new table is not seen. -/
theorem scanDisk_misses :
    Built 8192 smallTable ∧ (gptWrite smallTable (smallDisk fatSector)).1 = .ok () ∧
      Shows (oneDisk (gptWrite smallTable (smallDisk fatSector)).2) 0 8192
        (gptWrite smallTable (smallDisk fatSector)).2 ∧
      (usedSlots smallTable).length = 1 ∧
      freeSliceSlots (oneDisk (gptWrite smallTable (smallDisk fatSector)).2) = 16 ∧
      freeDeviceSlots (oneDisk (gptWrite smallTable (smallDisk fatSector)).2) = 31 ∧
      slicesOf (oneDisk (gptWrite smallTable (smallDisk fatSector)).2) 0 = [] ∧
      ((scanDisk (oneDisk (gptWrite smallTable
        (smallDisk fatSector)).2) 0).disks 0).scheme = .none ∧
      slicesOf (scanDisk (oneDisk (gptWrite smallTable (smallDisk fatSector)).2) 0) 0 = [] := by
  obtain ⟨written, shows⟩ := smallTable_written fatSector
  have fat : isBootSector ((gptWrite smallTable (smallDisk fatSector)).2.view 0) = true := by
    decide
  refine ⟨smallTable_built, written, shows, by decide, rfl, rfl, rfl, ?_, ?_⟩
  · rfl
  · rfl

end SavanXP.Partition
