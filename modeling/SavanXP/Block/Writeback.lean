import SavanXP.Library.Disk

/-!
# The block layer and its writeback queue

Writes to a device with deferred writes are copied into one queue, shared by
all such devices, and reach their device later and in order.  A record of the
queue is a write or, without data, an ordering point, which becomes a flush of
the device.

Whatever the kernel asks of its surroundings may be refused: memory for a
record, and every read, write or flush of a driver.  The surroundings answer
the questions in turn.  A write that a driver refuses leaves any part of its
sectors on the medium.

A device is a medium of its own.  A partition, whose driver calls the block
layer again, is not one of the devices here.
-/

namespace SavanXP.Block

open SavanXP.Library

variable {S : Type}

def sectorSize : Nat := 512

def maxQueuedBytes : Nat := 8 * 1024 * 1024

def stepSectors : Nat := 128

def maxAgeMs : UInt64 := 1000

def forcedStepIntervalMs : UInt64 := 100

/-! ## Devices and their surroundings -/

/-- A command that a driver carried out, one for each sector of a write. -/
inductive Command (S : Type) where
  | write (lba : Nat) (v : S)
  | flush
deriving DecidableEq

/-- A device of the table, with its medium and the commands it carried out. -/
structure Device (S : Type) where
  present : Bool
  deferredWrites : Bool
  hasFlush : Bool
  sectorCount : Nat
  writable : Bool
  unflushed : Bool
  failed : Bool
  medium : Nat → S
  received : List (Command S)

structure Pending (S : Type) where
  device : Nat
  lba : Nat
  written : Nat
  queuedMs : UInt64
  data : List S

inductive Request where
  | allocate
  | read (device : Nat)
  | write (device : Nat)
  | flush (device : Nat)

/-- The answer to a request; `landed` tells which sectors of a refused write
are on the medium nevertheless. -/
structure Answer where
  granted : Bool
  landed : Nat → Bool

abbrev World := Nat → Request → Answer

structure State (S : Type) where
  devices : Nat → Device S
  deviceCount : Nat
  queue : List (Pending S)
  queuedBytes : Nat
  clockMs : UInt64
  lastForcedMs : UInt64
  asked : Nat

def State.setDevice (s : State S) (i : Nat) (change : Device S → Device S) : State S :=
  { s with devices := Function.update s.devices i (change (s.devices i)) }

def State.answered (s : State S) : State S := { s with asked := s.asked + 1 }

/-- The sector writes of one driver call. -/
def writes (lba : Nat) (data : List S) : List (Command S) :=
  (cells lba data).map fun cell => .write cell.1 cell.2

variable (world : World)

def driverWrite (s : State S) (i lba : Nat) (data : List S) : Bool × State S :=
  let answer := world s.asked (.write i)
  if answer.granted then
    (true, s.answered.setDevice i fun device =>
      { device with
        medium := store (cells lba data) device.medium
        received := device.received ++ writes lba data })
  else
    (false, s.answered.setDevice i fun device =>
      { device with medium := store (select answer.landed (cells lba data)) device.medium })

def driverFlush (s : State S) (i : Nat) : Bool × State S :=
  if (world s.asked (.flush i)).granted then
    (true, s.answered.setDevice i fun device =>
      { device with received := device.received ++ [.flush] })
  else (false, s.answered)

def deviceForIndex (s : State S) (i : Nat) : Option (Device S) :=
  if s.deviceCount ≤ i ∨ (s.devices i).present = false then none
  else some (s.devices i)

def requestInRange (device : Device S) (lba sectorCount : Nat) : Bool :=
  device.present && sectorCount != 0 &&
    (decide (lba < device.sectorCount) && decide (sectorCount ≤ device.sectorCount - lba))

/-! ## The queue -/

def enqueue (s : State S) (r : Pending S) : State S :=
  { s with queue := s.queue ++ [{ r with queuedMs := s.clockMs }] }

def popHead (s : State S) : State S :=
  match s.queue with
  | [] => s
  | r :: rest =>
    { s with
      queue := rest
      queuedBytes := s.queuedBytes - (r.data.length - r.written) * sectorSize }

def popMany : Nat → State S → State S
  | 0, s => s
  | n + 1, s => popMany n (popHead s)

/-- A device that refused a background write keeps its queue. -/
def fail (s : State S) (i : Nat) : State S :=
  s.setDevice i fun device => { device with failed := true }

def markUnflushed (s : State S) (i : Nat) (unflushed : Bool) : State S :=
  s.setDevice i fun device => { device with unflushed := unflushed }

/-- An ordering point at the head becomes a flush of its device. -/
def stepOrder (s : State S) (i : Nat) : Bool × State S :=
  if (s.devices i).unflushed ∧ (s.devices i).hasFlush then
    let flushed := driverFlush world s i
    if flushed.1 = false then (false, fail flushed.2 i)
    else (true, popHead (markUnflushed flushed.2 i false))
  else (true, popHead (markUnflushed s i false))

/-- The whole records behind the head that continue it on its device, up to one
step's worth. -/
def mergedRecords (device lba : Nat) : Nat → List (Pending S) → List (Pending S)
  | _, [] => []
  | n, next :: rest =>
    if next.data.length ≠ 0 ∧ next.device = device ∧ next.lba = lba + n ∧
        n + next.data.length ≤ stepSectors then
      next :: mergedRecords device lba (n + next.data.length) rest
    else []

/-- The head record, from where an earlier step left it, and what continues it. -/
def stepWrite (s : State S) (r : Pending S) (rest : List (Pending S)) : Bool × State S :=
  let rem := r.data.length - r.written
  let n := if rem < stepSectors then rem else stepSectors
  let lba := r.lba + r.written
  let merged := if n = rem then mergedRecords r.device lba n rest else []
  let source := (r.data.drop r.written).take n ++ merged.flatMap Pending.data
  let wrote := driverWrite world s r.device lba source
  if wrote.1 = false then (false, fail wrote.2 r.device)
  else
    let marked := markUnflushed wrote.2 r.device true
    if source.length < rem then
      (true, { marked with
        queue := { r with written := r.written + source.length } :: rest
        queuedBytes := marked.queuedBytes - source.length * sectorSize })
    else (true, popMany (merged.length + 1) marked)

def step (s : State S) : Bool × State S :=
  match s.queue with
  | [] => (false, s)
  | r :: rest =>
    if (s.devices r.device).failed then (false, s)
    else if r.data.length = 0 then stepOrder world s r.device
    else stepWrite world s r rest

/-- Every step takes a record or some of its sectors out of the queue, so this
bounds the number of steps. -/
def State.work (s : State S) : Nat :=
  (s.queue.map fun r => r.data.length - r.written + 1).sum

def makeRoomLoop (world : World) (bytes : Nat) : Nat → State S → Bool × State S
  | 0, s => (false, s)
  | rounds + 1, s =>
    if s.queue.length ≠ 0 ∧ maxQueuedBytes < s.queuedBytes + bytes then
      let stepped := step world s
      if stepped.1 = false then (false, stepped.2) else makeRoomLoop world bytes rounds stepped.2
    else (true, s)

def makeRoom (s : State S) (bytes : Nat) : Bool × State S :=
  makeRoomLoop world bytes (s.work + 1) s

def drainQueue (world : World) : Nat → State S → Bool × State S
  | 0, s => (false, s)
  | rounds + 1, s =>
    if s.queue.length ≠ 0 then
      let stepped := step world s
      if stepped.1 = false then (false, stepped.2) else drainQueue world rounds stepped.2
    else (true, s)

/-- The flush of one device at the end of a drain. -/
def drainDevice (drained : Bool × State S) (i : Nat) : Bool × State S :=
  let device := drained.2.devices i
  if device.present = false ∨ device.deferredWrites = false ∨ device.unflushed = false then drained
  else if device.hasFlush then
    let flushed := driverFlush world drained.2 i
    if flushed.1 = false then (false, fail flushed.2 i)
    else (drained.1, markUnflushed flushed.2 i false)
  else (drained.1, markUnflushed drained.2 i false)

def drainAll (s : State S) : Bool × State S :=
  let drained := drainQueue world (s.work + 1) s
  if drained.1 = false then (false, drained.2)
  else (List.range drained.2.deviceCount).foldl (drainDevice world) (true, drained.2)

/-- Lays one queued write over what was read from `lba` on. -/
def overlayRecord (lba : Nat) (buf : List S) (r : Pending S) : List S :=
  let stop := lba + buf.length
  let recordEnd := r.lba + r.data.length
  let first := if lba < r.lba then r.lba else lba
  let last := if recordEnd < stop then recordEnd else stop
  if last ≤ first then buf
  else buf.take (first - lba) ++
    ((r.data.drop (first - r.lba)).take (last - first) ++ buf.drop (last - lba))

def overlayQueued (queue : List (Pending S)) (i lba : Nat) (buf : List S) : List S :=
  queue.foldl (fun buf r =>
    if r.device ≠ i ∨ r.data.length = 0 then buf
    else overlayRecord lba buf r) buf

def queueHasDevice (s : State S) (i : Nat) : Bool :=
  s.queue.any fun r => r.device = i

/-! ## The interface -/

def read (world : World) (s : State S) (i lba sectorCount : Nat) : Option (List S) × State S :=
  match deviceForIndex s i with
  | none => (none, s)
  | some device =>
    if requestInRange device lba sectorCount = false then (none, s)
    else if (world s.asked (.read i)).granted = false then (none, s.answered)
    else
      let buf := (List.range sectorCount).map fun off => device.medium (lba + off)
      (some (if device.deferredWrites then overlayQueued s.queue i lba buf else buf),
        s.answered)

/-- How a write ends: it was not tried, the driver gave up on a write through
the queue, or it was accepted. -/
inductive WriteEnd where
  | refused
  | torn (landed : Nat → Bool)
  | accepted

def WriteEnd.isAccepted : WriteEnd → Bool
  | .accepted => true
  | _ => false

/-- A write that goes to the driver at once. -/
def writeThrough (s : State S) (i lba : Nat) (data : List S) : WriteEnd × State S :=
  let wrote := driverWrite world s i lba data
  if wrote.1 then (.accepted, wrote.2) else (.torn (world s.asked (.write i)).landed, wrote.2)

/-- Without memory for the copy, the queue is emptied and the write goes to the
driver. -/
def writeUncached (s : State S) (i lba : Nat) (data : List S) : WriteEnd × State S :=
  let drained := drainAll world s
  if drained.1 = false then (.refused, drained.2)
  else
    let wrote := writeThrough world drained.2 i lba data
    (wrote.1, if wrote.1.isAccepted then markUnflushed wrote.2 i true else wrote.2)

def queueWrite (s : State S) (i lba : Nat) (data : List S) : State S :=
  let queued := enqueue s ⟨i, lba, 0, 0, data⟩
  { queued with queuedBytes := queued.queuedBytes + data.length * sectorSize }

def writeCachedEnd (s : State S) (i lba : Nat) (data : List S) : WriteEnd × State S :=
  match deviceForIndex s i with
  | none => (.refused, s)
  | some device =>
    if device.writable = false ∨ requestInRange device lba data.length = false then (.refused, s)
    else if device.deferredWrites = false then writeThrough world s i lba data
    else if device.failed then (.refused, s)
    else
      let room := makeRoom world s (data.length * sectorSize)
      if room.1 = false then (.refused, room.2)
      else if (world room.2.asked .allocate).granted = false then
        writeUncached world room.2.answered i lba data
      else (.accepted, queueWrite room.2.answered i lba data)

def writeCached (s : State S) (i lba : Nat) (data : List S) : Bool × State S :=
  let ended := writeCachedEnd world s i lba data
  (ended.1.isAccepted, ended.2)

def flush (s : State S) (i : Nat) : Bool × State S :=
  match deviceForIndex s i with
  | none => (false, s)
  | some device =>
    if device.writable = false then (false, s)
    else if device.deferredWrites = false then
      if device.hasFlush then driverFlush world s i else (true, s)
    else if device.failed then (false, s)
    else if device.unflushed = false ∧ queueHasDevice s i = false then (true, s)
    else if (s.queue.getLast?.map fun r => (r.device, r.data.length)) =
        some (i, 0) then (true, s)
    else if (world s.asked .allocate).granted = false then drainAll world s.answered
    else (true, enqueue s.answered ⟨i, 0, 0, 0, []⟩)

def sync (s : State S) (i : Nat) : Bool × State S :=
  match deviceForIndex s i with
  | none => (false, s)
  | some _ => drainAll world s

def write (s : State S) (i lba : Nat) (data : List S) : Bool × State S :=
  let wrote := writeCached world s i lba data
  if wrote.1 = false then (false, wrote.2)
  else
    let flushed := flush world wrote.2 i
    if flushed.1 = false then (false, flushed.2) else sync world flushed.2 i

def writebackStep (s : State S) : Bool × State S := step world s

def writebackTick (s : State S) (nowMs : UInt64) : State S :=
  let ticked := { s with clockMs := nowMs }
  match ticked.queue with
  | [] => ticked
  | r :: _ =>
    if nowMs - r.queuedMs < maxAgeMs ∨
      nowMs - ticked.lastForcedMs < forcedStepIntervalMs then ticked
    else (step world { ticked with lastForcedMs := nowMs }).2

end SavanXP.Block
