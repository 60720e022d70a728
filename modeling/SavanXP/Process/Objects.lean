import SavanXP.Library.Tables

/-!
# Kernel objects and the tables that name them

Every kernel object starts with a header that counts the references to it:
`object::retain` adds one and `object::release` takes one away and destroys the
object at zero.  References are held by the handle tables of the processes, by
the handles queued on pipes, by the connections queued on ports, by the section
views of the address spaces (an unmapped view may leave its reference on the
deferred list until the cores have flushed) and by the thread records.

Streams (`IoObject`) and ports release other objects when they are destroyed: a
stream may be the last reader of a pipe, which then drops the handles queued on
it, and a port drops the streams of its pending connections.  Streams and ports
never travel over a pipe, so the nesting ends there.

Each object carries a birth number, which the kernel does not have, so that an object
that takes the slot of another one is told apart from it.
-/

namespace SavanXP.Objects

open Library Function

@[irreducible] def maxProcesses : Nat := 64
@[irreducible] def maxFileHandles : Nat := 64
@[irreducible] def maxPipeCount : Nat := 64
@[irreducible] def maxIoObjects : Nat := 256
@[irreducible] def maxPortObjects : Nat := 16
@[irreducible] def maxThreads : Nat := 256
@[irreducible] def maxSectionViews : Nat := 64
def pipeHandleQueueCapacity : Nat := 8
def portPendingCapacity : Nat := 8
def portNameCapacity : Nat := 32

abbrev Process := Fin maxProcesses
abbrev Fd := Fin maxFileHandles
abbrev PipeId := Fin maxPipeCount
abbrev StreamId := Fin maxIoObjects
abbrev PortId := Fin maxPortObjects
abbrev ThreadId := Fin maxThreads
abbrev ViewId := Fin maxSectionViews

/-- The objects whose destruction releases nothing else. -/
inductive Kind
  | event
  | timer
  | semaphore
  | section
  | thread
  deriving DecidableEq, Repr

/-- The size of the table of each kind. -/
def Kind.capacity : Kind → Nat
  | .event => 128
  | .timer => 128
  | .semaphore => 64
  | .section => 256
  | .thread => 256

/-- A reference to a kernel object. -/
inductive Ref
  | plain (kind : Kind) (slot : Nat)
  | stream (stream : StreamId)
  | port (port : PortId)
  deriving DecidableEq

structure Header where
  inUse : Bool := false
  refcount : Nat := 0
  birth : Nat := 0

/-- The vnode behind an open file, as far as the section cache looks at it. -/
structure Node where
  number : Nat
  file : Bool
  volume : Bool
  deriving DecidableEq

/-- What a stream is open on. -/
inductive HandleKind
  | none
  | tty
  | vnode (node : Node)
  | device (node : Node)
  | pipe (pipe : PipeId)
  deriving DecidableEq

/-- An `IoObject` without its header. -/
structure Stream where
  kind : HandleKind := .none
  read : Bool := false
  write : Bool := false

def Stream.pipe (r : Stream) : Option PipeId :=
  match r.kind with
  | .pipe pipe => some pipe
  | _ => none

def Stream.node (r : Stream) : Option Node :=
  match r.kind with
  | .vnode node | .device node => some node
  | _ => none

/-- The key of a cached file section. -/
structure FileRange where
  node : Nat
  offset : Nat
  length : Nat
  deriving DecidableEq

/-- A handle queued on a pipe; streams and ports cannot be queued. -/
structure Passed where
  kind : Kind
  slot : Nat
  granted : Nat

def Passed.object (passed : Passed) : Ref := .plain passed.kind passed.slot

structure Pipe where
  inUse : Bool := false
  readerRefs : Nat := 0
  writerRefs : Nat := 0
  handles : List Passed := []

/-- A connection waiting to be accepted: the server's ends. -/
structure Connection where
  serverRead : StreamId
  serverWrite : StreamId

structure Port where
  name : List UInt8 := []
  pending : List Connection := []

structure Handle where
  object : Ref
  granted : Nat

structure View where
  slot : Nat
  shareOnFork : Bool

structure Thread where
  process : Process
  object : Nat
  sleepTimer : Option Nat := none

inductive Lifecycle
  | unused
  | alive
  | zombie
  deriving DecidableEq

structure Machine where
  headers : Ref → Header
  streams : StreamId → Stream
  ports : PortId → Port
  pipes : PipeId → Pipe
  sources : Nat → Option FileRange
  deferred : Nat → Nat
  life : Process → Lifecycle
  handles : Process → Fd → Option Handle
  views : Process → ViewId → Option View
  threads : ThreadId → Option Thread
  births : Nat

inductive Errno
  | EINVAL
  | ENOMEM
  | EBADF
  | ENOENT
  | EAGAIN
  | EEXIST
  | EPIPE
  deriving DecidableEq

/-- What a call returns and the machine it leaves. -/
structure Reply where
  result : Except Errno Nat
  machine : Machine

namespace Machine

variable (machine : Machine)

/-- The kernel before its first process. -/
def booted : Machine where
  headers _ := {}
  streams _ := {}
  ports _ := {}
  pipes _ := {}
  sources _ := none
  deferred _ := 0
  life _ := .unused
  handles _ _ := none
  views _ _ := none
  threads _ := none
  births := 0

def inUse (ref : Ref) : Bool := (machine.headers ref).inUse

def setHeader (ref : Ref) (hdr : Header) : Machine :=
  { machine with headers := update machine.headers ref hdr }

def setStream (stream : StreamId) (r : Stream) : Machine :=
  { machine with streams := update machine.streams stream r }

def setPort (port : PortId) (r : Port) : Machine :=
  { machine with ports := update machine.ports port r }

def setPipe (pipe : PipeId) (r : Pipe) : Machine :=
  { machine with pipes := update machine.pipes pipe r }

variable (process : Process)

def setHandle (fd : Fd) (entry : Option Handle) : Machine :=
  { machine with
    handles := update machine.handles process
      (update (machine.handles process) fd entry) }

def setView (view : ViewId) (r : Option View) : Machine :=
  { machine with
    views := update machine.views process
      (update (machine.views process) view r) }

def setThread (th : ThreadId) (r : Option Thread) : Machine :=
  { machine with threads := update machine.threads th r }

def setDeferred (slot n : Nat) : Machine :=
  { machine with deferred := update machine.deferred slot n }

def setSource (slot : Nat) (source : Option FileRange) : Machine :=
  { machine with sources := update machine.sources slot source }

/-- Zeroes what a slot holds besides its header. -/
def wipe : Ref → Machine
  | .plain .section slot => (machine.setSource slot none).setDeferred slot 0
  | .plain _ _ => machine
  | .stream stream => machine.setStream stream {}
  | .port port => machine.setPort port {}

/-- Takes a slot: zeroed, in use and without references. -/
def create (ref : Ref) : Machine :=
  { (machine.wipe ref).setHeader ref { inUse := true, birth := machine.births } with
    births := machine.births + 1 }

/-- Gives a slot back, zeroed. -/
def clear (ref : Ref) : Machine :=
  (machine.wipe ref).setHeader ref {}

def retain (ref : Ref) : Machine :=
  machine.setHeader ref
    { machine.headers ref with refcount := ((machine.headers ref).refcount + 1) % 2 ^ 32 }

def decrement (ref : Ref) : Machine :=
  machine.setHeader ref
    { machine.headers ref with refcount := (machine.headers ref).refcount - 1 }

/-- `object::release`, given what destroys the object.  Every object in use has
a `destroy` function and no other slot has one. -/
def lower (ref : Ref) (destroy : Machine → Machine) : Machine :=
  if ((machine.decrement ref).headers ref).refcount = 0 ∧ (machine.decrement ref).inUse ref = true
  then destroy (machine.decrement ref)
  else machine.decrement ref

/-- Events, timers, semaphores, sections and thread objects. -/
def releasePlain (kind : Kind) (slot : Nat) : Machine :=
  machine.lower (.plain kind slot) fun lowered => lowered.clear (.plain kind slot)

/-- The handles still queued on a pipe are released in order. -/
def drainPipeHandles (pipe : PipeId) : List Passed → Machine → Machine
  | [], machine => machine
  | passed :: rest, machine =>
    drainPipeHandles pipe rest
      ((machine.setPipe pipe { machine.pipes pipe with handles := rest }).releasePlain
        passed.kind passed.slot)

/-- The queue of a pipe without readers goes, and the pipe with its last end. -/
def freePipeIfUnused (pipe : PipeId) : Machine :=
  if (machine.pipes pipe).inUse = false then machine
  else if (machine.pipes pipe).readerRefs = 0 then
    let drained := drainPipeHandles pipe (machine.pipes pipe).handles machine
    if (machine.pipes pipe).writerRefs = 0 then drained.setPipe pipe {} else drained
  else machine

/-- One end of a pipe is gone: its reader and writer counts. -/
def dropEnd (pipe : PipeId) (r : Stream) : Machine :=
  machine.setPipe pipe
    { machine.pipes pipe with
      readerRefs := (machine.pipes pipe).readerRefs - r.read.toNat
      writerRefs := (machine.pipes pipe).writerRefs - r.write.toNat }

def destroyIoObject (stream : StreamId) : Machine :=
  match (machine.streams stream).pipe with
  | some pipe =>
    ((machine.dropEnd pipe (machine.streams stream)).freePipeIfUnused pipe).clear (.stream stream)
  | none => machine.clear (.stream stream)

def releaseStream (stream : StreamId) : Machine :=
  machine.lower (.stream stream) fun lowered => lowered.destroyIoObject stream

/-- The connections still queued on a port are released in order. -/
def drainPort (port : PortId) : List Connection → Machine → Machine
  | [], machine => machine
  | conn :: rest, machine =>
    drainPort port rest
      (((machine.setPort port { machine.ports port with pending := rest }).releaseStream
        conn.serverRead).releaseStream conn.serverWrite)

def destroyPort (port : PortId) : Machine :=
  (drainPort port (machine.ports port).pending machine).clear (.port port)

def releasePort (port : PortId) : Machine :=
  machine.lower (.port port) fun lowered => lowered.destroyPort port

def release : Ref → Machine
  | .plain kind slot => machine.releasePlain kind slot
  | .stream stream => machine.releaseStream stream
  | .port port => machine.releasePort port

/-! ## Handle tables -/

/-- `HandleEntry` of a handle number, when it names one. -/
def entry (handle : Nat) : Option Handle :=
  if inside : handle < maxFileHandles then machine.handles process ⟨handle, inside⟩ else none

def lookupHandle (handle desired : Nat) : Option Ref :=
  match machine.entry process handle with
  | some entry => if entry.granted &&& desired = desired then some entry.object else none
  | none => none

def fdToIoObject (handle desired : Nat) : Option StreamId :=
  match machine.lookupHandle process handle desired with
  | some (.stream stream) => some stream
  | _ => none

def allocateFdSlot : Option Fd :=
  freeEntry fun fd => (machine.handles process fd).isSome

/-- Closes one entry of the table, when it is open. -/
def closeEntry (fd : Fd) : Machine :=
  match machine.handles process fd with
  | some entry => (machine.setHandle process fd none).release entry.object
  | none => machine

/-- What the entry held is released before the new object is retained. -/
def installHandle (fd : Fd) (object : Ref) (granted : Nat) : Machine :=
  ((machine.closeEntry process fd).retain object).setHandle process fd (some ⟨object, granted⟩)

def allocateFd (object : Ref) (granted : Nat) : Option (Fd × Machine) :=
  match machine.allocateFdSlot process with
  | some fd => some (fd, machine.installHandle process fd object granted)
  | none => none

def releaseAllHandles : Machine :=
  (List.finRange maxFileHandles).foldl (fun machine fd => machine.closeEntry process fd) machine

/-! ## New slots -/

/-- The first free slot of a kind. -/
def freeSlot (kind : Kind) : Option Nat :=
  (List.range kind.capacity).find? fun slot => !machine.inUse (.plain kind slot)

def allocateIoObject : Option (StreamId × Machine) :=
  match freeEntry fun stream => machine.inUse (.stream stream) with
  | some stream => some (stream, machine.create (.stream stream))
  | none => none

/-- An object nobody has referenced is given back as it is. -/
def discardIoObject (stream : StreamId) : Machine :=
  machine.clear (.stream stream)

def allocatePipe : Option (PipeId × Machine) :=
  match freeEntry fun pipe => (machine.pipes pipe).inUse with
  | some pipe => some (pipe, machine.setPipe pipe { inUse := true })
  | none => none

end Machine

end SavanXP.Objects
