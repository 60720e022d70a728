import SavanXP.Library.Bytes
import SavanXP.Library.Crc32
import SavanXP.Library.Disk

/-!
# GUID partition tables

The on-disk records and the library of `libsxdisk/sxdisk.c`: a table is started
or read, partitions are added, removed and renamed in memory, and the whole
table is written as a protective boot sector and two copies of header and
entries.
-/

namespace SavanXP.Partition

open SavanXP.Library Function

abbrev Sector : Type := Bytes 512

scoped instance neZero512 : NeZero 512 := ⟨by decide⟩
scoped instance neZero128 : NeZero 128 := ⟨by decide⟩
abbrev Guid : Type := Bytes 16

def gptArraySectors : Nat := 32
def alignSectors : Nat := 2048
def minDiskSectors : Nat := 2 * alignSectors + 2 * (1 + gptArraySectors) + 1

def gptHeaderSize : UInt32 := 92
def gptRevision : UInt32 := 0x00010000

inductive Error where
  | io
  | invalid
  | noSpace
  | full
  | notFound
deriving DecidableEq

/-! ## Records -/

@[ext]
structure Entry where
  typeGuid : Guid
  uniqueGuid : Guid
  firstLba : UInt64
  lastLba : UInt64
  attributes : UInt64
  name : Fin 36 → UInt16
deriving DecidableEq

/-- A header sector: the 92 bytes of the header and what follows them. -/
@[ext]
structure Header where
  signature : Bytes 8
  revision : UInt32
  headerSize : UInt32
  headerCrc : UInt32
  reserved : UInt32
  myLba : UInt64
  alternateLba : UInt64
  firstUsable : UInt64
  lastUsable : UInt64
  diskGuid : Guid
  entriesLba : UInt64
  entryCount : UInt32
  entrySize : UInt32
  entriesCrc : UInt32
  rest : Bytes 420

structure MbrEntry where
  status : UInt8
  chsFirst : Bytes 3
  type : UInt8
  chsLast : Bytes 3
  firstLba : UInt32
  sectorCount : UInt32

/-- Sector 0: boot code, six bytes, four entries and the boot signature. -/
structure BootSector where
  bootCode : Bytes 440
  diskSignature : Bytes 6
  entries : Fin 4 → MbrEntry
  signature : UInt16

def Entry.codec : Codec Entry 128 :=
  Equiv.trans
    ⟨fun e => (e.typeGuid, e.uniqueGuid, e.firstLba, e.lastLba,
        e.attributes, e.name),
      fun ⟨typeGuid, uniqueGuid, firstLba, lastLba, attributes, name⟩ =>
        ⟨typeGuid, uniqueGuid, firstLba, lastLba, attributes, name⟩,
      fun _ => rfl, fun _ => rfl⟩
    (Codec.pair (Codec.raw 16) <| Codec.pair (Codec.raw 16) <| Codec.pair Codec.u64 <|
      Codec.pair Codec.u64 <| Codec.pair Codec.u64 <| Codec.array 36 Codec.u16)

def Header.codec : Codec Header 512 :=
  Equiv.trans
    ⟨fun hdr => (hdr.signature, hdr.revision, hdr.headerSize, hdr.headerCrc,
        hdr.reserved, hdr.myLba, hdr.alternateLba, hdr.firstUsable,
        hdr.lastUsable, hdr.diskGuid, hdr.entriesLba, hdr.entryCount,
        hdr.entrySize, hdr.entriesCrc, hdr.rest),
      fun ⟨signature, revision, headerSize, headerCrc, reserved, myLba, alternateLba,
          firstUsable, lastUsable, diskGuid, entriesLba, entryCount, entrySize, entriesCrc,
          rest⟩ =>
        ⟨signature, revision, headerSize, headerCrc, reserved, myLba, alternateLba,
          firstUsable, lastUsable, diskGuid, entriesLba, entryCount, entrySize, entriesCrc,
          rest⟩,
      fun _ => rfl, fun _ => rfl⟩
    (Codec.pair (Codec.raw 8) <| Codec.pair Codec.u32 <| Codec.pair Codec.u32 <|
      Codec.pair Codec.u32 <| Codec.pair Codec.u32 <| Codec.pair Codec.u64 <|
      Codec.pair Codec.u64 <| Codec.pair Codec.u64 <| Codec.pair Codec.u64 <|
      Codec.pair (Codec.raw 16) <| Codec.pair Codec.u64 <| Codec.pair Codec.u32 <|
      Codec.pair Codec.u32 <| Codec.pair Codec.u32 <| Codec.raw 420)

def MbrEntry.codec : Codec MbrEntry 16 :=
  Equiv.trans
    ⟨fun e => (e.status, e.chsFirst, e.type, e.chsLast, e.firstLba,
        e.sectorCount),
      fun ⟨status, chsFirst, type, chsLast, firstLba, sectorCount⟩ =>
        ⟨status, chsFirst, type, chsLast, firstLba, sectorCount⟩,
      fun _ => rfl, fun _ => rfl⟩
    (Codec.pair Codec.u8 <| Codec.pair (Codec.raw 3) <| Codec.pair Codec.u8 <|
      Codec.pair (Codec.raw 3) <| Codec.pair Codec.u32 Codec.u32)

/-- What follows the boot code. -/
def BootSector.tailCodec : Codec (Bytes 6 × (Fin 4 → MbrEntry) × UInt16) 72 :=
  Codec.pair (Codec.raw 6) <| Codec.pair (Codec.array 4 MbrEntry.codec) Codec.u16

def BootSector.codec : Codec BootSector 512 :=
  Equiv.trans
    ⟨fun boot => (boot.bootCode, boot.diskSignature, boot.entries, boot.signature),
      fun ⟨bootCode, diskSignature, entries, signature⟩ =>
        ⟨bootCode, diskSignature, entries, signature⟩,
      fun _ => rfl, fun _ => rfl⟩
    (Codec.pair (Codec.raw 440) BootSector.tailCodec)

/-- The entry array as bytes. -/
def entriesCodec : Codec (Fin 128 → Entry) 16384 :=
  Codec.array 128 Entry.codec

/-- The sectors of the entry array as bytes. -/
def sectorsCodec : Codec (Fin 32 → Sector) 16384 :=
  Codec.array 32 (Codec.raw 512)

/-- The eight bytes `EFI PART`. -/
def gptSignature : Bytes 8 := ![69, 70, 73, 32, 80, 65, 82, 84]

def typeEsp : Guid :=
  ![0x28, 0x73, 0x2a, 0xc1, 0x1f, 0xf8, 0xd2, 0x11, 0xba, 0x4b, 0x00, 0xa0, 0xc9, 0x3e, 0xc9, 0x3b]

def Entry.zero : Entry := ⟨fun _ => 0, fun _ => 0, 0, 0, 0, fun _ => 0⟩

def MbrEntry.zero : MbrEntry := ⟨0, fun _ => 0, 0, fun _ => 0, 0, 0⟩

@[irreducible]
def entriesCrc (entries : Fin 128 → Entry) : UInt32 :=
  crc32 (List.ofFn (entriesCodec entries))

/-- The checksum of the header bytes, with the checksum field zeroed. -/
@[irreducible]
def headerCrcOf (hdr : Header) : UInt32 :=
  crc32 ((List.ofFn (Header.codec { hdr with headerCrc := 0 })).take hdr.headerSize.toNat)

/-! ## A table in memory -/

@[ext]
structure Gpt where
  diskSectors : UInt64
  firstUsable : UInt64
  lastUsable : UInt64
  diskGuid : Guid
  fromBackup : Bool
  entries : Fin 128 → Entry
deriving DecidableEq

def guidIsZero (guid : Guid) : Bool :=
  guid = fun _ => 0

/-- A version 4 identifier made of what the random callback filled in. -/
def newGuid (random : Guid) : Guid :=
  update (update random 7 ((random 7 &&& 0x0f) ||| 0x40)) 8
    ((random 8 &&& 0x3f) ||| 0x80)

def arraySectorsEnd (entriesLba : UInt64) : UInt64 :=
  entriesLba + 32

def gptInit (diskSectors : UInt64) (random : Guid) : Except Error Gpt :=
  if diskSectors.toNat < minDiskSectors then .error .invalid
  else .ok
    { diskSectors := diskSectors
      firstUsable := arraySectorsEnd 2
      lastUsable := diskSectors - 2 - 32
      diskGuid := newGuid random
      fromBackup := false
      entries := fun _ => Entry.zero }

def entryInUse (e : Entry) : Bool :=
  !guidIsZero e.typeGuid

def Gpt.setEntry (gpt : Gpt) (k : Fin 128) (e : Entry) : Gpt :=
  { gpt with entries := update gpt.entries k e }

/-- The slot of entry `number`, counted from 1, if it is in use. -/
def gptEntryAt (gpt : Gpt) (number : Nat) : Option (Fin 128) :=
  if inside : number - 1 < 128 then
    if number ≠ 0 ∧ entryInUse (gpt.entries ⟨number - 1, inside⟩) then some ⟨number - 1, inside⟩
    else none
  else none

/-- The name of an entry replaced by an ASCII string, which ends at its first zero. -/
def entrySetName (e : Entry) (name : List UInt8) : Entry :=
  let text := name.takeWhile (· ≠ 0)
  { e with
    name := fun i =>
      match text[i.val]? with
      | some char => if char < 0x80 then char.toUInt16 else 63
      | none => 0 }

/-- Go over the entries: the first free slot, or an error at the first overlap. -/
def addLoop (gpt : Gpt) (firstLba lastLba : UInt64) :
    List (Fin 128) → Option (Fin 128) → Except Error (Option (Fin 128))
  | [], k => .ok k
  | i :: rest, k =>
    let e := gpt.entries i
    if ¬entryInUse e then addLoop gpt firstLba lastLba rest (k.or (some i))
    else if firstLba ≤ e.lastLba ∧ e.firstLba ≤ lastLba then .error .noSpace
    else addLoop gpt firstLba lastLba rest k

/-- The entry of a new partition. -/
def newEntry (firstLba lastLba : UInt64) (typeGuid random : Guid) (name : List UInt8) : Entry :=
  entrySetName ⟨typeGuid, newGuid random, firstLba, lastLba, 0, fun _ => 0⟩ name

/-- A partition over `sectorCount` sectors from `firstLba` in the first empty entry; the result
also gives its number. -/
def gptAdd (gpt : Gpt) (firstLba sectorCount : UInt64) (typeGuid : Guid) (name : List UInt8)
    (random : Guid) : Except Error (Gpt × Nat) :=
  if guidIsZero typeGuid ∨ sectorCount = 0 then .error .invalid
  else
    let lastLba := firstLba + sectorCount - 1
    if lastLba < firstLba ∨ firstLba < gpt.firstUsable ∨ gpt.lastUsable < lastLba then
      .error .noSpace
    else
      match addLoop gpt firstLba lastLba (List.finRange 128) none with
      | .error error => .error error
      | .ok none => .error .full
      | .ok (some k) =>
        .ok (gpt.setEntry k (newEntry firstLba lastLba typeGuid random name), k.val + 1)

def gptRemove (gpt : Gpt) (number : Nat) : Except Error Gpt :=
  match gptEntryAt gpt number with
  | none => .error .notFound
  | some k => .ok (gpt.setEntry k Entry.zero)

/-! ## Reading -/

/-- Everything a header is checked for before its array is read. -/
def headerAccepted (diskSectors lba : UInt64) (hdr : Header) : Bool :=
  hdr.signature = gptSignature &&
    (gptHeaderSize ≤ hdr.headerSize && hdr.headerSize ≤ 512) &&
    (headerCrcOf hdr = hdr.headerCrc && hdr.myLba = lba) &&
    (hdr.entryCount = 128 && hdr.entrySize = 128 &&
      2 ≤ hdr.entriesLba && arraySectorsEnd hdr.entriesLba ≤ diskSectors &&
      hdr.firstUsable ≤ hdr.lastUsable && hdr.lastUsable < diskSectors)

/-- The entries in a buffer of sectors. -/
def entriesOf (buf : Nat → Sector) : Fin 128 → Entry :=
  entriesCodec.symm (sectorsCodec fun i => buf i.val)

/-- The table of an accepted header and its entries. -/
def Header.table (hdr : Header) (diskSectors : UInt64) (entries : Fin 128 → Entry) : Gpt :=
  { diskSectors := diskSectors
    firstUsable := hdr.firstUsable
    lastUsable := hdr.lastUsable
    diskGuid := hdr.diskGuid
    fromBackup := false
    entries := entries }

/-- Read and check the array of an accepted header. -/
def loadArray (diskSectors : UInt64) (hdr : Header) (disk : Disk Sector) :
    Except Error Gpt × Disk Sector :=
  let array := disk.read hdr.entriesLba.toNat gptArraySectors
  match array.1 with
  | none => (.error .io, array.2)
  | some buf =>
    let entries := entriesOf buf
    if entriesCrc entries = hdr.entriesCrc then
      (.ok (hdr.table diskSectors entries), array.2)
    else (.error .invalid, array.2)

/-- Read and check the header at `lba` and its array. -/
def loadCopy (diskSectors lba : UInt64) (disk : Disk Sector) : Except Error Gpt × Disk Sector :=
  let sector := disk.read lba.toNat 1
  match sector.1 with
  | none => (.error .io, sector.2)
  | some buf =>
    let hdr := Header.codec.symm (buf 0)
    if headerAccepted diskSectors lba hdr then loadArray diskSectors hdr sector.2
    else (.error .invalid, sector.2)

/-- The primary copy, or the one on the last sector when the primary is not valid. -/
def gptRead (diskSectors : UInt64) (disk : Disk Sector) : Except Error Gpt × Disk Sector :=
  if diskSectors.toNat < minDiskSectors then (.error .invalid, disk)
  else
    let primary := loadCopy diskSectors 1 disk
    match primary.1 with
    | .ok gpt => (.ok gpt, primary.2)
    | .error .io => (.error .io, primary.2)
    | .error _ =>
      let backup := loadCopy diskSectors (diskSectors - 1) primary.2
      match backup.1 with
      | .ok gpt => (.ok { gpt with fromBackup := true }, backup.2)
      | .error error => (.error error, backup.2)

/-! ## Writing -/

/-- A header before its own checksum is filled in. -/
def unsignedHeader (gpt : Gpt) (lba alternate entriesLba : UInt64) : Header :=
  { signature := gptSignature
    revision := gptRevision
    headerSize := gptHeaderSize
    headerCrc := 0
    reserved := 0
    myLba := lba
    alternateLba := alternate
    firstUsable := gpt.firstUsable
    lastUsable := gpt.lastUsable
    diskGuid := gpt.diskGuid
    entriesLba := entriesLba
    entryCount := 128
    entrySize := 128
    entriesCrc := entriesCrc gpt.entries
    rest := fun _ => 0 }

def buildHeader (gpt : Gpt) (lba alternate entriesLba : UInt64) : Header :=
  let hdr := unsignedHeader gpt lba alternate entriesLba
  { hdr with headerCrc := headerCrcOf hdr }

/-- One entry over the whole disk, capped at 32 bits; the boot code stays. -/
def protectiveMbr (sector : Sector) (last : UInt64) : Sector :=
  BootSector.codec
    { bootCode := (BootSector.codec.symm sector).bootCode
      diskSignature := fun _ => 0
      entries := fun i =>
        if i = 0 then
          { status := 0
            chsFirst := ![0x00, 0x02, 0x00]
            type := 0xee
            chsLast := ![0xff, 0xff, 0xff]
            firstLba := 1
            sectorCount := if 0xffffffff < last then 0xffffffff else last.toUInt32 }
        else MbrEntry.zero
      signature := 0xaa55 }

/-- The sectors of the entry array. -/
def entrySectors (gpt : Gpt) : List Sector :=
  List.ofFn (sectorsCodec.symm (entriesCodec gpt.entries))

/-- The writes of one update, in order: the boot sector, the backup entries and header, the
primary entries and header. -/
def gptCommands (gpt : Gpt) (boot : Sector) : List (Nat × List Sector) :=
  let last := gpt.diskSectors - 1
  let backupEntries := last - 32
  [(0, [protectiveMbr boot last]),
    (backupEntries.toNat, entrySectors gpt),
    (last.toNat, [Header.codec (buildHeader gpt last 1 backupEntries)]),
    (2, entrySectors gpt),
    (1, [Header.codec (buildHeader gpt 1 last 2)])]

def gptWrite (gpt : Gpt) (disk : Disk Sector) : Except Error Unit × Disk Sector :=
  if gpt.diskSectors.toNat < minDiskSectors then (.error .invalid, disk)
  else
    let sector := disk.read 0 1
    match sector.1 with
    | none => (.error .io, sector.2)
    | some buf =>
      let written := sector.2.writeAll (gptCommands gpt (buf 0))
      (if written.1 then .ok () else .error .io, written.2)

end SavanXP.Partition
