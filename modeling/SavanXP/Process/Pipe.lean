import SavanXP.Library.RingBuffer
import SavanXP.Library.Fallible

/-!
# Pipes

A pipe, the threads that read and write it and the calls they make.  A thread
that finds nothing to read, or no room for its bytes, parks on the pipe.
Whoever makes room or brings bytes then serves the parked threads in the order
of the thread table, and serving one may serve others before the first has
noted its own progress.  A call is a computation that fails when this nesting
passes a given depth, with the machine as it stood there.

The logs say which call each byte was accepted from and given to, and what
each call returned.
-/

namespace SavanXP.Pipes

open SavanXP.Library Fallible

@[irreducible]
def pipeCapacity : Nat := 8192

def pipeChunkSize : Nat := 256

@[irreducible]
def maxThreads : Nat := 256

def badDescriptor : Nat := 9

def tryAgain : Nat := 11

def invalidArgument : Nat := 22

def brokenPipe : Nat := 32

def negativeError (code : Nat) : Int := -(code : Int)

/-- A length turned into a signed 32-bit number. -/
def toInt32 (length : Nat) : Int := (length : Int).bmod (2 ^ 32)

structure Pipe where
  ring : RingBuffer UInt8
  readerRefs : Nat
  writerRefs : Nat
  inUse : Bool

inductive State where
  | ready
  | blockedRead
  | blockedWrite
deriving DecidableEq

/-- A slot of the thread table.  `named` says that `blocked_io_fd` still names
an end of the pipe, and `mapped` how many bytes of the call's buffer, from its
start, are accessible. -/
structure Thread where
  state : State
  named : Bool
  call : Nat
  mapped : Nat
  readCapacity : Nat
  writeBuffer : List UInt8
  writeProgress : Nat

inductive Request where
  | read (capacity : Nat) (nonblock : Bool)
  | write (data : List UInt8) (nonblock : Bool)

structure Machine where
  pipe : Pipe
  threads : Nat → Thread
  /-- What the buffer of each read holds. -/
  memory : Nat → List UInt8
  requests : List Request
  accepted : List (Nat × UInt8)
  delivered : List (Nat × UInt8)
  returned : List (Nat × Int)

abbrev Call : Type → Type := Fallible Machine

/-- What a try at the pipe came to. -/
inductive Outcome where
  | blocked
  | done (result : Int)

namespace Machine

def size (m : Machine) : Nat := m.pipe.ring.size

variable (m : Machine)

def held : List UInt8 := m.pipe.ring.contents pipeCapacity

def setThread (i : Nat) (th : Thread) : Machine :=
  { m with threads := Function.update m.threads i th }

def setBuffer (call : Nat) (buf : List UInt8) : Machine :=
  { m with memory := Function.update m.memory call buf }

/-- `sx::write_user_memory`: the whole stretch or nothing. -/
def writeUserMemory (call mapped off : Nat) (bytes : List UInt8) : Option Machine :=
  if off + bytes.length ≤ mapped then
    let buf := m.memory call
    some (m.setBuffer call
      (buf.take off ++ bytes ++ buf.drop (off + bytes.length)))
  else none

/-- The ring moves past `n` bytes that were copied for `call`. -/
def consume (call n : Nat) : Machine :=
  { m with
    pipe := { m.pipe with ring := m.pipe.ring.advance pipeCapacity n }
    delivered := m.delivered ++ (m.held.take n).map fun byte => (call, byte) }

/-- The ring takes in bytes of `call`. -/
def accept (call : Nat) (bytes : List UInt8) : Machine :=
  { m with
    pipe := { m.pipe with ring := m.pipe.ring.put pipeCapacity bytes }
    accepted := m.accepted ++ bytes.map fun byte => (call, byte) }

def answer (call : Nat) (result : Int) : Machine :=
  { m with returned := m.returned ++ [(call, result)] }

def enter (req : Request) : Machine :=
  { m with requests := m.requests ++ [req] }

def completeBlockedRead (i : Nat) (result : Int) : Machine :=
  let th := m.threads i
  (m.setThread i { th with state := .ready, named := false, readCapacity := 0 }).answer
    th.call result

def completeBlockedWrite (i : Nat) (result : Int) : Machine :=
  let th := m.threads i
  (m.setThread i
    { th with state := .ready, named := false, writeBuffer := [], writeProgress := 0 }).answer
      th.call result

def parkRead (i call capacity mapped : Nat) : Machine :=
  m.setThread i
    { m.threads i with
      state := .blockedRead, named := true, call := call, mapped := mapped,
      readCapacity := capacity }

def parkWrite (i call : Nat) (data : List UInt8) (mapped progress : Nat) : Machine :=
  m.setThread i
    { m.threads i with
      state := .blockedWrite, named := true, call := call, mapped := mapped,
      writeBuffer := data, writeProgress := progress }

/-- Whether slot `i` is parked in `state` on a descriptor of the pipe. -/
def parked (state : State) (i : Nat) : Bool :=
  (m.threads i).state = state && (m.threads i).named

end Machine

/-! ## The two copies -/

/-- `pipe_copy_out`: how many bytes were copied, none when the buffer is not
accessible. -/
def pipeCopyOut (m : Machine) (call mapped n : Nat) : Nat × Machine :=
  let ring := m.pipe.ring
  let toCopy := min n ring.size
  if toCopy = 0 then (0, m)
  else
    let first := ring.firstLength pipeCapacity toCopy
    match m.writeUserMemory call mapped 0 (ring.firstPiece pipeCapacity toCopy) with
    | none => (0, m)
    | some m =>
      if first < toCopy then
        match m.writeUserMemory call mapped first (ring.secondPiece pipeCapacity toCopy) with
        | none => (0, m)
        | some m => (toCopy, m.consume call toCopy)
      else (toCopy, m.consume call toCopy)

/-- The loop of `pipe_write_chunk`: bytes go through a scratch buffer of
`pipeChunkSize` bytes, and an inaccessible stretch stops it. -/
def copyIn (call : Nat) (data : List UInt8) (mapped pos rem : Nat) (m : Machine) :
    Bool × Machine :=
  if rem = 0 then (true, m)
  else
    let step := min rem pipeChunkSize
    if mapped < pos + step then (false, m)
    else
      copyIn call data mapped (pos + step) (rem - step)
        (m.accept call ((data.drop pos).take step))
termination_by rem
decreasing_by
  have positive : 0 < pipeChunkSize := by decide
  omega

/-! ## Tries at the pipe -/

def tryPipeRead (wakeBlockedWriters : Call Unit) (call mapped n : Nat) : Call Outcome := do
  let m ← Fallible.get
  if m.pipe.inUse = false then return .done (negativeError badDescriptor)
  else if n = 0 then return .done 0
  else if m.size = 0 then
    if m.pipe.writerRefs = 0 then return .done 0 else return .blocked
  else do
    update fun m => (pipeCopyOut m call mapped n).2
    let copied := (pipeCopyOut m call mapped n).1
    if copied = 0 then return .done (negativeError invalidArgument)
    else do
      wakeBlockedWriters
      return .done copied

/-- How much of a write fits now. -/
def writableBytes (m : Machine) (n progress : Nat) : Nat :=
  min (pipeCapacity - m.size) (n - progress)

def pipeWriteChunk (wakeBlockedReaders : Call Unit) (call : Nat) (data : List UInt8)
    (mapped progress : Nat) : Call Outcome := do
  let m ← Fallible.get
  if m.pipe.readerRefs = 0 then return .done (negativeError brokenPipe)
  else if data.length = 0 then return .done 0
  else if m.size = pipeCapacity then return .blocked
  else do
    let total := writableBytes m data.length progress
    update fun m => (copyIn call data mapped progress total m).2
    if (copyIn call data mapped progress total m).1 = false then
      return .done (negativeError invalidArgument)
    else do
      wakeBlockedReaders
      return .done total

/-! ## Serving parked threads -/

/-- One round of `wake_blocked_readers_for_pipe`. -/
def serveReader (wakeBlockedWriters : Call Unit) (i : Nat) : Call Unit := do
  let m ← Fallible.get
  if m.parked .blockedRead i = false then pure ()
  else do
    let th := m.threads i
    match ← tryPipeRead wakeBlockedWriters th.call th.mapped th.readCapacity with
    | .blocked => pure ()
    | .done result => update fun m => m.completeBlockedRead i result

/-- The end of a round for a writer some of whose bytes went in: its record is
read again, since the nested wakeups may have changed it. -/
def noteProgress (i : Nat) (step : Int) (m : Machine) : Machine :=
  let th := m.threads i
  let progress := th.writeProgress + step.toNat
  let m := m.setThread i { th with writeProgress := progress }
  if th.writeBuffer.length ≤ progress then
    m.completeBlockedWrite i (toInt32 th.writeBuffer.length)
  else m

/-- One round of `wake_blocked_writers_for_pipe`. -/
def serveWriter (wakeBlockedReaders : Call Unit) (i : Nat) : Call Unit := do
  let m ← Fallible.get
  if m.parked .blockedWrite i = false then pure ()
  else do
    let th := m.threads i
    match ← pipeWriteChunk wakeBlockedReaders th.call th.writeBuffer th.mapped
      th.writeProgress with
    | .blocked => pure ()
    | .done step =>
      if step < 0 then update fun m => m.completeBlockedWrite i step
      else update (noteProgress i step)

inductive Side where
  | readers
  | writers

/-- The two wakeups, which call each other. -/
def wake : Nat → Side → Call Unit
  | 0, _ => Fallible.fail
  | depth + 1, .readers => Fallible.forSlots maxThreads (serveReader (wake depth .writers))
  | depth + 1, .writers => Fallible.forSlots maxThreads (serveWriter (wake depth .readers))

/-! ## Calls -/

/-- `native_read` on the read end of a pipe; `read_handle` does the same. -/
def nativeRead (wakeBlockedWriters : Call Unit) (i capacity mapped : Nat) (nonblock : Bool) :
    Call Unit := do
  let m ← Fallible.get
  let call := m.requests.length
  update fun m => m.enter (.read capacity nonblock)
  if capacity = 0 then update fun m => m.answer call 0
  else if mapped < capacity then
    update fun m => m.answer call (negativeError invalidArgument)
  else do
    match ← tryPipeRead wakeBlockedWriters call mapped capacity with
    | .done result => update fun m => m.answer call result
    | .blocked =>
      if nonblock then
        update fun m => m.answer call (negativeError tryAgain)
      else update fun m => m.parkRead i call capacity mapped

/-- A write that is not to block and does not fit whole. -/
def refusedWhole (m : Machine) (n : Nat) (nonblock : Bool) : Bool :=
  nonblock && decide (n ≤ pipeCapacity) && decide (m.pipe.readerRefs ≠ 0) &&
    decide (pipeCapacity - m.size < n)

/-- What becomes of a write after its try at the pipe. -/
def settleWrite (i call : Nat) (data : List UInt8) (mapped : Nat) (nonblock : Bool) :
    Outcome → Machine → Machine
  | .blocked, m =>
    if nonblock then m.answer call (negativeError tryAgain)
    else m.parkWrite i call data mapped 0
  | .done step, m =>
    if step < 0 then m.answer call step
    else if step.toNat = data.length ∨ nonblock = true then m.answer call step
    else m.parkWrite i call data mapped step.toNat

/-- `native_write` on the write end of a pipe; the pipe case of `write_handle`
takes the same branches. -/
def nativeWrite (wakeBlockedReaders : Call Unit) (i : Nat) (data : List UInt8) (mapped : Nat)
    (nonblock : Bool) : Call Unit := do
  let m ← Fallible.get
  let call := m.requests.length
  update fun m => m.enter (.write data nonblock)
  if data.length = 0 then update fun m => m.answer call 0
  else if mapped < data.length then
    update fun m => m.answer call (negativeError invalidArgument)
  else if refusedWhole m data.length nonblock then
    update fun m => m.answer call (negativeError tryAgain)
  else do
    let outcome ← pipeWriteChunk wakeBlockedReaders call data mapped 0
    update (settleWrite i call data mapped nonblock outcome)

/-- `free_pipe_if_unused`. -/
def freePipeIfUnused (m : Machine) : Machine :=
  if m.pipe.inUse && decide (m.pipe.readerRefs = 0) &&
      decide (m.pipe.writerRefs = 0) then
    { m with pipe := ⟨RingBuffer.empty fun _ => 0, 0, 0, false⟩ }
  else m

/-- No descriptor names an end whose last handle is closed. -/
def forget (state : State) (m : Machine) : Machine :=
  { m with
    threads := fun i =>
      let th := m.threads i
      if th.state = state then { th with named := false } else th }

def dropReader (m : Machine) : Machine :=
  let pipe := { m.pipe with readerRefs := m.pipe.readerRefs - 1 }
  if pipe.readerRefs = 0 then forget .blockedRead { m with pipe := pipe }
  else { m with pipe := pipe }

def dropWriter (m : Machine) : Machine :=
  let pipe := { m.pipe with writerRefs := m.pipe.writerRefs - 1 }
  if pipe.writerRefs = 0 then forget .blockedWrite { m with pipe := pipe }
  else { m with pipe := pipe }

inductive Event where
  | read (i capacity mapped : Nat) (nonblock : Bool)
  | write (i : Nat) (data : List UInt8) (mapped : Nat) (nonblock : Bool)
  /-- The descriptor a parked thread waits on is closed by a sibling. -/
  | closeDescriptor (i : Nat)
  /-- The last handle of a read end, or of a write end, is closed. -/
  | closeReader
  | closeWriter
  /-- A sibling unmaps the end of a parked thread's buffer. -/
  | unmap (i mapped : Nat)

/-- Whether a thread can call on an end with `refs` streams. -/
def canCall (m : Machine) (i refs : Nat) : Bool :=
  decide (i < maxThreads) && decide ((m.threads i).state = .ready) && decide (refs ≠ 0)

def step (depth : Nat) : Event → Call Unit
  | .read i capacity mapped nonblock => do
      let m ← Fallible.get
      if canCall m i m.pipe.readerRefs then
        nativeRead (wake depth .writers) i capacity mapped nonblock
      else pure ()
  | .write i data mapped nonblock => do
      let m ← Fallible.get
      if canCall m i m.pipe.writerRefs then
        nativeWrite (wake depth .readers) i data mapped nonblock
      else pure ()
  | .closeDescriptor i =>
    update fun m =>
      m.setThread i { m.threads i with named := false }
  | .closeReader => do
      let m ← Fallible.get
      if m.pipe.readerRefs = 0 then pure ()
      else do
        update dropReader
        wake depth .writers
        update freePipeIfUnused
  | .closeWriter => do
      let m ← Fallible.get
      if m.pipe.writerRefs = 0 then pure ()
      else do
        update dropWriter
        wake depth .readers
        update freePipeIfUnused
  | .unmap i mapped =>
    update fun m =>
      let th := m.threads i
      m.setThread i { th with mapped := min th.mapped mapped }

def run (depth : Nat) : List Event → Call Unit
  | [] => pure ()
  | event :: rest => do
      step depth event
      run depth rest

def Thread.fresh : Thread := ⟨.ready, false, 0, 0, 0, [], 0⟩

/-- A new pipe with its two ends. -/
def opened (cells : Nat → UInt8) : Machine where
  pipe := ⟨RingBuffer.empty cells, 1, 1, true⟩
  threads := fun _ => Thread.fresh
  memory := fun _ => []
  requests := []
  accepted := []
  delivered := []
  returned := []

end SavanXP.Pipes
