import SavanXP.Library.Slots
import SavanXP.Partition.Table

/-!
# Slicing a disk

The block driver of `kernel/partition.cpp`: it reads the table of a disk and
registers every partition as one more block device.  Of the block layer only
the table of devices is kept here: reads of a disk go to the disk, reads of a
slice to its parent.
-/

namespace SavanXP.Partition

open SavanXP.Library Function

def maxSlices : Nat := 16
def maxBlockDevices : Nat := 32
def gptMaxArrayBytes : Nat := 32 * 1024

inductive Scheme where
  | none
  | mbr
  | gpt
  | damaged
deriving DecidableEq

structure Info where
  parentIndex : Nat
  startLba : UInt32
  sectorCount : UInt32
  scheme : Scheme
  number : Nat
  mbrType : UInt8
  esp : Bool
  typeGuid : Guid
  uniqueGuid : Guid
  name : List UInt8

structure DiskInfo where
  scheme : Scheme
  gptFromBackup : Bool
  diskGuid : Guid

structure Slice where
  present : Bool
  deviceIndex : Nat
  parentIndex : Nat
  info : Info

/-- What a block device is made of. -/
inductive Backing where
  | disk (disk : Disk Sector)
  | slice (slot : Nat)

structure BlockDevice where
  present : Bool
  backing : Backing
  sectorCount : UInt32
  writable : Bool
  name : List UInt8

structure Kernel where
  devices : Nat → BlockDevice
  deviceCount : Nat
  slices : Nat → Slice
  names : Nat → List UInt8
  disks : Nat → DiskInfo

def Info.zero : Info := ⟨0, 0, 0, .none, 0, 0, false, fun _ => 0, fun _ => 0, []⟩

def DiskInfo.zero : DiskInfo := ⟨.none, false, fun _ => 0⟩

def Slice.zero : Slice := ⟨false, 0, 0, Info.zero⟩

namespace Kernel

def setDevice (k : Kernel) (i : Nat) (dev : BlockDevice) : Kernel :=
  { k with devices := update k.devices i dev }

def setSlice (k : Kernel) (slot : Nat) (slice : Slice) : Kernel :=
  { k with slices := update k.slices slot slice }

def setName (k : Kernel) (slot : Nat) (name : List UInt8) : Kernel :=
  { k with names := update k.names slot name }

def setDisk (k : Kernel) (i : Nat) (info : DiskInfo) : Kernel :=
  { k with disks := update k.disks i info }

end Kernel

/-! ## The block layer -/

variable (k : Kernel)

def deviceForIndex (i : Nat) : Option BlockDevice :=
  if i < k.deviceCount ∧ (k.devices i).present then some (k.devices i)
  else none

def requestInRange (dev : BlockDevice) (lba sectorCount : UInt32) : Bool :=
  dev.present && sectorCount ≠ 0 && lba < dev.sectorCount &&
    sectorCount ≤ dev.sectorCount - lba

/-- A read of a disk. -/
def diskRead (i : Nat) (lba sectorCount : UInt32) : Option (Nat → Sector) × Kernel :=
  match deviceForIndex k i with
  | none => (none, k)
  | some dev =>
    if requestInRange dev lba sectorCount then
      match dev.backing with
      | .disk disk =>
        let done := disk.read lba.toNat sectorCount.toNat
        (done.1, k.setDevice i { dev with backing := .disk done.2 })
      | .slice _ => (none, k)
    else (none, k)

/-- A read of a block device; a slice moves the origin and reads its parent. -/
def blockRead (i : Nat) (lba sectorCount : UInt32) : Option (Nat → Sector) × Kernel :=
  match deviceForIndex k i with
  | none => (none, k)
  | some dev =>
    if requestInRange dev lba sectorCount then
      match dev.backing with
      | .disk _ => diskRead k i lba sectorCount
      | .slice slot =>
        let slice := k.slices slot
        diskRead k slice.parentIndex (slice.info.startLba + lba) sectorCount
    else (none, k)

def registerDevice (backing : Backing) (sectorCount : UInt32) (writable : Bool)
    (name : List UInt8) : Option Nat × Kernel :=
  if sectorCount = 0 then (none, k)
  else
    match firstFree (fun slot => (k.devices slot).present) maxBlockDevices with
    | none => (none, k)
    | some slot =>
      (some slot,
        { k.setDevice slot ⟨true, backing, sectorCount, writable, name⟩ with
          deviceCount := max k.deviceCount (slot + 1) })

/-! ## Slices -/

/-- `<parent>p<n>`, in a buffer of 24 bytes. -/
def buildName (parent : List UInt8) (ordinal : Nat) : List UInt8 :=
  let digit (v : Nat) : UInt8 := 48 + UInt8.ofNat (v % 10)
  parent.take 19 ++ [112] ++ (if 100 ≤ ordinal then [digit (ordinal / 100)] else []) ++
    (if 10 ≤ ordinal then [digit (ordinal / 10)] else []) ++ [digit ordinal]

/-- A UTF-16 name as ASCII, up to its first zero. -/
def copyGptName (name : Fin 36 → UInt16) : List UInt8 :=
  ((List.ofFn name).takeWhile (· ≠ 0)).map fun unit =>
    if 0x20 ≤ unit ∧ unit < 0x7f then unit.toUInt8 else 63

/-- Register a partition, clipped to the size of its parent. -/
def addSlice (parentIndex : Nat) (parentName : List UInt8)
    (parentWritable : Bool) (parentSectors : UInt32) (info : Info) : Bool × Kernel :=
  if info.sectorCount = 0 ∨ parentSectors ≤ info.startLba then (false, k)
  else
    match firstFree (fun slot => (k.slices slot).present) maxSlices with
    | none => (false, k)
    | some slot =>
      let available := parentSectors - info.startLba
      let clipped := if available < info.sectorCount then available else info.sectorCount
      let slice : Slice :=
        { present := true
          deviceIndex := 0
          parentIndex := parentIndex
          info := { info with parentIndex := parentIndex, sectorCount := clipped } }
      let name := buildName parentName info.number
      let registered := registerDevice ((k.setSlice slot slice).setName slot name)
        (.slice slot) clipped parentWritable name
      match registered.1 with
      | none => (false, registered.2.setSlice slot Slice.zero)
      | some dev => (true, registered.2.setSlice slot { slice with deviceIndex := dev })

/-! ## GUID tables -/

structure GptHeader where
  alternateLba : UInt64
  entryLba : UInt64
  entryCount : UInt32
  entrySize : UInt32
  diskGuid : Guid

/-- Byte `pos` of a buffer of sectors. -/
def bufferByte (buf : Nat → Sector) (pos : Nat) : UInt8 :=
  buf (pos / 512) ⟨pos % 512, Nat.mod_lt _ (by decide)⟩

@[irreducible]
def bufferCrc (bytes : Nat → UInt8) (size : Nat) : UInt32 :=
  crc32 ((List.range size).map bytes)

/-- The size in bytes of the array a header declares. -/
def arrayBytes (hdr : Header) : UInt64 :=
  hdr.entryCount.toUInt64 * hdr.entrySize.toUInt64

def arraySectors (hdr : Header) : UInt32 :=
  ((arrayBytes hdr + 512 - 1) / 512).toUInt32

/-- What is asked of a header before its array is read. -/
def gptHeaderAccepted (parentSectors lba : UInt32) (hdr : Header) : Bool :=
  hdr.signature = gptSignature &&
    (gptHeaderSize ≤ hdr.headerSize && hdr.headerSize ≤ 512) &&
    (headerCrcOf hdr = hdr.headerCrc && hdr.myLba = lba.toUInt64) &&
    (128 ≤ hdr.entrySize && hdr.entrySize ≤ 512 && 512 % hdr.entrySize = 0 &&
      hdr.entryCount ≠ 0) &&
    (arrayBytes hdr).toNat ≤ gptMaxArrayBytes &&
    (hdr.entriesLba ≠ 0 && hdr.entriesLba < parentSectors.toUInt64 &&
      (arraySectors hdr).toUInt64 ≤ parentSectors.toUInt64 - hdr.entriesLba)

/-- Read and check the array of an accepted header; the result is the header and the bytes of the
array. -/
def loadGptArray (parentIndex : Nat) (hdr : Header) :
    Option (GptHeader × (Nat → UInt8)) × Kernel :=
  let array := blockRead k parentIndex hdr.entriesLba.toUInt32 (arraySectors hdr)
  match array.1 with
  | none => (none, array.2)
  | some buf =>
    if bufferCrc (bufferByte buf) (arrayBytes hdr).toNat = hdr.entriesCrc then
      (some
        (⟨hdr.alternateLba, hdr.entriesLba, hdr.entryCount, hdr.entrySize,
          hdr.diskGuid⟩, bufferByte buf), array.2)
    else (none, array.2)

/-- Read and check the header at `lba` and its array. -/
def loadGpt (parentIndex : Nat) (parentSectors lba : UInt32) :
    Option (GptHeader × (Nat → UInt8)) × Kernel :=
  if parentSectors ≤ lba then (none, k)
  else
    let sector := blockRead k parentIndex lba 1
    match sector.1 with
    | none => (none, sector.2)
    | some buf =>
      let hdr := Header.codec.symm (buf 0)
      if gptHeaderAccepted parentSectors lba hdr then
        loadGptArray sector.2 parentIndex hdr
      else (none, sector.2)

/-- The partition an entry describes. -/
def entryInfo (e : Entry) (i : Nat) : Info :=
  { parentIndex := 0
    startLba := e.firstLba.toUInt32
    sectorCount := (e.lastLba - e.firstLba + 1).toUInt32
    scheme := .gpt
    number := i + 1
    mbrType := 0
    esp := e.typeGuid = typeEsp
    typeGuid := e.typeGuid
    uniqueGuid := e.uniqueGuid
    name := copyGptName e.name }

/-- Register entry `i`, if it is in use and fits 32 bits. -/
def scanEntry (parentIndex : Nat) (parentName : List UInt8) (parentWritable : Bool)
    (parentSectors entrySize : UInt32) (entries : Nat → UInt8) (k : Kernel) (i : Nat) :
    Kernel :=
  let e := Entry.codec.symm fun off => entries (i * entrySize.toNat + off.val)
  if guidIsZero e.typeGuid then k
  else if e.lastLba < e.firstLba ∨ 0xffffffff < e.firstLba ∨
      0xffffffff < e.lastLba then k
  else
    (addSlice k parentIndex parentName parentWritable parentSectors
      (entryInfo e i)).2

def scanEntries (parentIndex : Nat) (parentName : List UInt8) (parentWritable : Bool)
    (parentSectors : UInt32) (hdr : GptHeader) (entries : Nat → UInt8) (k : Kernel) :
    Kernel :=
  (List.range (min hdr.entryCount.toNat 128)).foldl
    (scanEntry parentIndex parentName parentWritable parentSectors hdr.entrySize entries) k

/-- What is remembered about the disk itself. -/
def noteGpt (i : Nat) (fromBackup : Bool) (diskGuid : Guid) : Kernel :=
  k.setDisk i
    { scheme := (k.disks i).scheme
      gptFromBackup := fromBackup || (k.disks i).gptFromBackup
      diskGuid := diskGuid }

/-- The header and entries of the primary copy, or of the backup on the last sector. -/
def loadEither (parentIndex : Nat) (parentSectors : UInt32) :
    Option (Bool × GptHeader × (Nat → UInt8)) × Kernel :=
  let primary := loadGpt k parentIndex parentSectors 1
  match primary.1 with
  | some loaded => (some (false, loaded), primary.2)
  | none =>
    let backup := loadGpt primary.2 parentIndex parentSectors (parentSectors - 1)
    (backup.1.map fun loaded => (true, loaded), backup.2)

def scanGpt (parentIndex : Nat) (parentName : List UInt8)
    (parentWritable : Bool) (parentSectors : UInt32) : Scheme × Kernel :=
  let sector := blockRead k parentIndex 1 1
  match sector.1 with
  | none => (.none, sector.2)
  | some buf =>
    if (Header.codec.symm (buf 0)).signature ≠ gptSignature then (.none, sector.2)
    else
      let loaded := loadEither sector.2 parentIndex parentSectors
      match loaded.1 with
      | none => (.damaged, loaded.2)
      | some (fromBackup, hdr, entries) =>
        (.gpt,
          scanEntries parentIndex parentName parentWritable parentSectors hdr entries
            (noteGpt loaded.2 parentIndex fromBackup hdr.diskGuid))

/-! ## Boot sectors -/

def isExtended (type : UInt8) : Bool :=
  type = 0x05 || type = 0x0f || type = 0x85

/-- Register entry `i` of the four in a boot sector. -/
def scanMbrEntry (parentIndex : Nat) (parentName : List UInt8) (parentWritable : Bool)
    (parentSectors : UInt32) (boot : BootSector) (k : Kernel) (i : Fin 4) : Kernel :=
  let e := boot.entries i
  if e.type = 0x00 ∨ isExtended e.type then k
  else
    (addSlice k parentIndex parentName parentWritable parentSectors
      { Info.zero with
        startLba := e.firstLba
        sectorCount := e.sectorCount
        scheme := .mbr
        number := i.val + 1
        mbrType := e.type
        esp := e.type = 0xef }).2

def scanMbr (parentIndex : Nat) (parentName : List UInt8)
    (parentWritable : Bool) (parentSectors : UInt32) (boot : BootSector) : Kernel :=
  (List.finRange 4).foldl
    (scanMbrEntry parentIndex parentName parentWritable parentSectors boot) k

def hasProtectiveMbr (boot : BootSector) : Bool :=
  (List.finRange 4).any fun i => (boot.entries i).type = 0xee

/-- Sector 0 of a FAT volume: a jump, the boot signature and the name of the file system. -/
def isBootSector (sector : Sector) : Bool :=
  let jump := sector 0 = 0xeb || sector 0 = 0xe9
  let signature := sector 510 = 0x55 && sector 511 = 0xaa
  let fat16 := sector 54 = 70 && sector 55 = 65 && sector 56 = 84
  let fat32 := sector 82 = 70 && sector 83 = 65 && sector 84 = 84 && sector 85 = 51 &&
    sector 86 = 50
  jump && signature && (fat16 || fat32)

/-! ## Disks -/

/-- Slice by the GUID table, or by the boot sector when there is no GUID table at all. -/
def scanTables (i : Nat) (dev : BlockDevice) (boot : BootSector) : Kernel :=
  let gpt := scanGpt k i dev.name dev.writable dev.sectorCount
  let k := gpt.2
  if gpt.1 ≠ .none then k.setDisk i { k.disks i with scheme := gpt.1 }
  else if hasProtectiveMbr boot then
    k.setDisk i { k.disks i with scheme := .damaged }
  else
    scanMbr (k.setDisk i { k.disks i with scheme := .mbr }) i dev.name
      dev.writable dev.sectorCount boot

/-- A boot sector without its signature, or of a volume over the whole disk, is no table. -/
def scanBoot (i : Nat) (dev : BlockDevice) (sector : Sector) : Kernel :=
  let boot := BootSector.codec.symm sector
  if boot.signature ≠ 0xaa55 ∨ isBootSector sector then k
  else scanTables k i dev boot

/-- Read one disk's table and register its partitions. -/
def scanDisk (i : Nat) : Kernel :=
  let k := k.setDisk i DiskInfo.zero
  match deviceForIndex k i with
  | none => k
  | some dev =>
    if dev.sectorCount < 2 then k
    else
      let sector := blockRead k i 0 1
      match sector.1 with
      | none => sector.2
      | some buf => scanBoot sector.2 i dev (buf 0)

end SavanXP.Partition
