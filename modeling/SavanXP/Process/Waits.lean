import SavanXP.Library.Slots

/-!
# Waiting on objects

Events, timers, semaphores, threads, ports and readable streams live in tables
of slots; a process names them through its handles, and the last reference to
go clears the slot for another object.  A wait names a list of handles and ends
when one of their objects, or all of them, are signalled.  A thread that cannot
go on parks with the slots it waits for, and whoever signals an object then
looks through the thread table for waits that can complete.  Completing a wait
takes a unit from each object that does not stay signalled.

The logs say how each wait began and what it returned, which units it took, and
how many units each slot was given and lost without a wait taking them.
-/

namespace SavanXP.Waits

open SavanXP.Library Function

@[irreducible]
def maxThreads : Nat := 256

@[irreducible]
def maxFileHandles : Nat := 64

def maxWaitHandles : Nat := 16

def portPendingCapacity : Nat := 8

def badDescriptor : Int := -9

def invalidArgument : Int := -22

def timedOut : Int := -110

inductive Kind where
  | event
  | timer
  | semaphore
  | thread
  | port
  | stream
deriving DecidableEq

/-- How many slots the table of a kind has. -/
def Kind.limit : Kind → Nat
  | .event => 128
  | .timer => 128
  | .semaphore => 64
  | .thread => 256
  | .port => 16
  | .stream => 256

structure Slot where
  kind : Kind
  index : Nat
deriving DecidableEq

/-- What a slot holds.  A port's signals are its pending connections, `held` says
that a thread record refers to its thread object, `readable` is what the
stream's own layer answers, and `birth` numbers the objects in the order they
were created. -/
structure Object where
  inUse : Bool
  refcount : Nat
  manualReset : Bool
  signalCount : Nat
  maxCount : Nat
  armed : Bool
  due : Nat
  period : Nat
  ended : Bool
  held : Bool
  readable : Bool
  birth : Nat

def Object.blank : Object :=
  { inUse := false, refcount := 0, manualReset := false, signalCount := 0, maxCount := 0,
    armed := false, due := 0, period := 0, ended := false, held := false, readable := false,
    birth := 0 }

/-- The units of an object: the signals that a wait uses up. -/
def Object.units (object : Object) : Nat :=
  if object.manualReset then 0 else object.signalCount

/-- A slot of the thread table.  `waited` keeps the places of the objects, not
their handles; `call` is the wait the record belongs to. -/
structure Thread where
  parked : Bool
  waited : List Slot
  waitAll : Bool
  deadline : Nat
  call : Nat

def Thread.idle : Thread :=
  { parked := false, waited := [], waitAll := false, deadline := 0, call := 0 }

/-- An object as it stood when a wait looked at its slot. -/
structure Target where
  slot : Slot
  birth : Nat
  consuming : Bool
  ready : Bool
deriving DecidableEq

/-- A wait as it began. -/
structure Call where
  targets : List Target
  waitAll : Bool

/-- What a wait returned, and how its objects stood just before. -/
structure Return where
  call : Nat
  result : Int
  seen : List Target
deriving DecidableEq

structure Machine where
  objects : Slot → Object
  threads : Nat → Thread
  handles : Nat → Nat → Option Slot
  births : Nat
  calls : List Call
  returned : List Return
  taken : List (Nat × Slot)
  raised : Slot → Nat
  dropped : Slot → Nat

def fresh : Machine :=
  { objects := fun _ => .blank, threads := fun _ => .idle, handles := fun _ _ => none,
    births := 0, calls := [], returned := [], taken := [], raised := fun _ => 0,
    dropped := fun _ => 0 }

namespace Machine

/-! ## Objects -/

def isWaitable (slot : Slot) : Bool := slot.kind ≠ .stream

def targetReady (m : Machine) (slot : Slot) : Bool :=
  if isWaitable slot then 0 < (m.objects slot).signalCount
  else (m.objects slot).readable

/-- Acquiring the object uses up one of its signals. -/
def consuming (m : Machine) (slot : Slot) : Bool :=
  isWaitable slot && !(m.objects slot).manualReset

def look (m : Machine) (slot : Slot) : Target :=
  { slot := slot, birth := (m.objects slot).birth, consuming := m.consuming slot,
    ready := m.targetReady slot }

/-- A change of an object that is no wait's doing.  The units it brings and the
units it loses are noted. -/
def replace (slot : Slot) (object : Object) (m : Machine) : Machine :=
  let before := (m.objects slot).units
  { m with
    objects := update m.objects slot object
    raised := update m.raised slot (m.raised slot + (object.units - before))
    dropped := update m.dropped slot
      (m.dropped slot + (before - object.units)) }

def setSignal (slot : Slot) (n : Nat) (m : Machine) : Machine :=
  m.replace slot { m.objects slot with signalCount := n }

def retain (slot : Slot) (m : Machine) : Machine :=
  m.replace slot
    { m.objects slot with refcount := (m.objects slot).refcount + 1 }

def release (slot : Slot) (m : Machine) : Machine :=
  let refcount := (m.objects slot).refcount - 1
  if refcount = 0 then m.replace slot .blank
  else m.replace slot { m.objects slot with refcount := refcount }

/-! ## Taking signals -/

/-- A wait uses up a signal. -/
def take (call : Nat) (slot : Slot) (m : Machine) : Machine :=
  { m with
    objects := update m.objects slot
      { m.objects slot with signalCount := (m.objects slot).signalCount - 1 }
    taken := m.taken ++ [(call, slot)] }

def acquireTarget (call : Nat) (slot : Slot) (m : Machine) : Option Machine :=
  if m.targetReady slot then
    some (if m.consuming slot then m.take call slot else m)
  else none

def canCompleteObjectWait (m : Machine) (th : Thread) : Bool :=
  if th.waited = [] then false
  else if th.waitAll then th.waited.all m.targetReady
  else th.waited.any m.targetReady

/-- Acquires the objects in order up to the first that cannot be. -/
def acquireAll (call : Nat) : List Slot → Machine → Int × Machine
  | [], m => (0, m)
  | slot :: rest, m =>
    match m.acquireTarget call slot with
    | none => (invalidArgument, m)
    | some t => acquireAll call rest t

/-- Acquires the first object that can be; the answer is its place. -/
def acquireAny (call : Nat) : Nat → List Slot → Machine → Int × Machine
  | _, [], m => (invalidArgument, m)
  | index, slot :: rest, m =>
    match m.acquireTarget call slot with
    | none => acquireAny call (index + 1) rest m
    | some t => (index, t)

def consumeObjectWait (th : Thread) (m : Machine) : Int × Machine :=
  if th.waited = [] then (invalidArgument, m)
  else if th.waitAll then acquireAll th.call th.waited m
  else acquireAny th.call 0 th.waited m

/-! ## Parked threads -/

def setThread (index : Nat) (th : Thread) (m : Machine) : Machine :=
  { m with threads := update m.threads index th }

def answer (call : Nat) (result : Int) (seen : List Target) (m : Machine) : Machine :=
  { m with
    returned := m.returned ++ [{ call := call, result := result, seen := seen }] }

/-- The wait of a thread ends with this result. -/
def completeBlockedWait (index : Nat) (result : Int) (seen : List Target)
    (m : Machine) : Machine :=
  (m.answer (m.threads index).call result seen).setThread index .idle

/-- A parked thread whose wait can complete takes what it waits for.  If it
cannot take all of it, it stays parked and keeps what it took. -/
def serve (index : Nat) (m : Machine) : Machine :=
  let th := m.threads index
  if th.parked && m.canCompleteObjectWait th then
    let consumed := m.consumeObjectWait th
    if consumed.1 < 0 then consumed.2
    else consumed.2.completeBlockedWait index consumed.1 (th.waited.map m.look)
  else m

def recheckParkedThreads (m : Machine) : Machine :=
  overSlots serve maxThreads m

def serveWaiterFor (slot : Slot) (index : Nat) (m : Machine) : Machine :=
  if slot ∈ (m.threads index).waited then m.serve index else m

def wakeWaitersForObject (slot : Slot) (m : Machine) : Machine :=
  if isWaitable slot then
    recheckParkedThreads (overSlots (serveWaiterFor slot) maxThreads m)
  else m

def expire (now : Nat) (index : Nat) (m : Machine) : Machine :=
  let th := m.threads index
  if th.parked && th.deadline ≠ 0 && th.deadline ≤ now then
    m.completeBlockedWait index timedOut (th.waited.map m.look)
  else m

def wakeWaitTimeouts (now : Nat) (m : Machine) : Machine :=
  overSlots (expire now) maxThreads m

/-! ## Timers -/

/-- The first time after `now` at which a periodic timer is due again. -/
def nextDue (now due period : Nat) : Nat :=
  if 0 < period ∧ due + period ≤ now then nextDue now (due + period) period else due + period
termination_by now - due

def fired (now : Nat) (timer : Object) : Object :=
  if timer.period ≠ 0 then
    { timer with signalCount := 1, due := nextDue now timer.due timer.period }
  else { timer with signalCount := 1, armed := false, due := 0 }

def pollTimer (now : Nat) (index : Nat) (m : Machine) : Machine :=
  let slot : Slot := ⟨.timer, index⟩
  let timer := m.objects slot
  if timer.inUse && timer.armed && timer.due ≤ now then
    (m.replace slot (fired now timer)).wakeWaitersForObject slot
  else m

def pollTimers (now : Nat) (m : Machine) : Machine :=
  overSlots (pollTimer now) (Kind.limit .timer) m

def tick (now : Nat) (m : Machine) : Machine :=
  ((m.pollTimers now).wakeWaitTimeouts now).recheckParkedThreads

/-! ## Handles -/

def lookupHandle (m : Machine) (p fd : Nat) : Option Slot :=
  if fd < maxFileHandles then m.handles p fd else none

/-- The object of one kind that a handle names. -/
def lookupKind (m : Machine) (kind : Kind) (p fd : Nat) : Option Slot :=
  (m.lookupHandle p fd).filter fun slot => slot.kind = kind

def setHandle (p fd : Nat) (e : Option Slot) (m : Machine) : Machine :=
  { m with
    handles := update m.handles p
      (update (m.handles p) fd e) }

/-- The first free place of the handle table names the object, if there is one. -/
def allocateFd (p : Nat) (slot : Slot) (m : Machine) : Option Machine :=
  (firstFree (fun fd => (m.handles p fd).isSome) maxFileHandles).map fun fd =>
    (m.retain slot).setHandle p fd (some slot)

/-- A new object goes into the first free slot of its table. -/
def create (slot : Slot) (object : Object) (m : Machine) : Machine :=
  { m.replace slot { object with inUse := true, birth := m.births } with
    births := m.births + 1 }

def freeSlot (m : Machine) (kind : Kind) : Option Slot :=
  (firstFree (fun index => (m.objects ⟨kind, index⟩).inUse) kind.limit).map fun index =>
    ⟨kind, index⟩

/-- A new object and a handle for it; without room for the handle the object
goes again. -/
def createHandle (p : Nat) (kind : Kind) (object : Object) (m : Machine) : Machine :=
  match m.freeSlot kind with
  | none => m
  | some slot =>
    let made := m.create slot object
    match made.allocateFd p slot with
    | none => made.release slot
    | some t => t

def close (p fd : Nat) (m : Machine) : Machine :=
  match m.lookupHandle p fd with
  | none => m
  | some slot => (m.setHandle p fd none).release slot

/-- The handle's object under another handle, in this process or another. -/
def duplicate (p fd receiver : Nat) (m : Machine) : Machine :=
  match m.lookupHandle p fd with
  | none => m
  | some slot => (m.allocateFd receiver slot).getD m

/-! ## Signals -/

def setEvent (p fd : Nat) (m : Machine) : Machine :=
  match m.lookupKind .event p fd with
  | none => m
  | some slot => (m.setSignal slot 1).wakeWaitersForObject slot

def resetEvent (p fd : Nat) (m : Machine) : Machine :=
  match m.lookupKind .event p fd with
  | none => m
  | some slot => m.setSignal slot 0

def setTimer (p fd now due period : Nat) (m : Machine) : Machine :=
  match m.lookupKind .timer p fd with
  | none => m
  | some slot =>
    let armed := m.replace slot
      { m.objects slot with
        armed := true, signalCount := 0, due := now + due, period := period }
    if due = 0 then armed.pollTimers now else armed

def cancelTimer (p fd : Nat) (m : Machine) : Machine :=
  match m.lookupKind .timer p fd with
  | none => m
  | some slot =>
    m.replace slot
      { m.objects slot with armed := false, signalCount := 0, due := 0, period := 0 }

def releaseSemaphore (p fd n : Nat) (m : Machine) : Machine :=
  match m.lookupKind .semaphore p fd with
  | none => m
  | some slot =>
    let semaphore := m.objects slot
    if n = 0 ∨ n > semaphore.maxCount - semaphore.signalCount then m
    else (m.setSignal slot (semaphore.signalCount + n)).wakeWaitersForObject slot

/-- A client connects to a port. -/
def connect (slot : Slot) (m : Machine) : Machine :=
  let port := m.objects slot
  if slot.kind = .port ∧ port.inUse ∧ port.signalCount < portPendingCapacity then
    (m.setSignal slot (port.signalCount + 1)).wakeWaitersForObject slot
  else m

def accept (p fd : Nat) (m : Machine) : Machine :=
  match m.lookupKind .port p fd with
  | none => m
  | some slot => m.setSignal slot ((m.objects slot).signalCount - 1)

/-- A stream becomes readable, which its writer makes known. -/
def feed (slot : Slot) (m : Machine) : Machine :=
  if slot.kind = .stream ∧ (m.objects slot).inUse then
    (m.replace slot { m.objects slot with readable := true }).recheckParkedThreads
  else m

def drain (slot : Slot) (m : Machine) : Machine :=
  if slot.kind = .stream then
    m.replace slot { m.objects slot with readable := false }
  else m

/-- A thread ends: its object is signalled. -/
def endThread (slot : Slot) (m : Machine) : Machine :=
  let th := m.objects slot
  if slot.kind = .thread ∧ th.inUse ∧ ¬ th.ended then
    (m.replace slot { th with ended := true, signalCount := 1 }).wakeWaitersForObject slot
  else m

/-- The record of a thread that ended lets its object go. -/
def releaseThread (slot : Slot) (m : Machine) : Machine :=
  let th := m.objects slot
  if th.ended ∧ th.held then
    (m.replace slot { th with held := false }).release slot
  else m

/-! ## Waits -/

/-- A wait that is refused before it looks at any object. -/
def refuse (waitAll : Bool) (error : Int) (m : Machine) : Machine :=
  let called : Machine :=
    { m with calls := m.calls ++ [{ targets := [], waitAll := waitAll }] }
  called.answer m.calls.length error []

/-- The wait as it begins. -/
def newCall (slots : List Slot) (waitAll : Bool) (m : Machine) : Call :=
  { targets := slots.map m.look, waitAll := waitAll }

/-- What the thread records of its wait. -/
def newRecord (slots : List Slot) (waitAll : Bool) (m : Machine) : Thread :=
  { parked := false, waited := slots, waitAll := waitAll, deadline := 0,
    call := m.calls.length }

def record (index : Nat) (slots : List Slot) (waitAll : Bool) (m : Machine) : Machine :=
  { m with
    calls := m.calls ++ [m.newCall slots waitAll]
    threads := update m.threads index (m.newRecord slots waitAll) }

def beginObjectWait (index : Nat) (slots : List Slot) (waitAll : Bool) (timeout : Int) (now : Nat)
    (m : Machine) : Machine :=
  let recorded := m.record index slots waitAll
  let th := recorded.threads index
  if recorded.canCompleteObjectWait th then
    let consumed := recorded.consumeObjectWait th
    consumed.2.answer th.call consumed.1 (slots.map m.look)
  else if timeout = 0 then
    recorded.completeBlockedWait index timedOut (slots.map m.look)
  else
    recorded.setThread index
      { th with parked := true, deadline := if 0 < timeout then now + timeout.toNat else 0 }

def waitOnManyHandles (index p : Nat) (fds : List Nat) (waitAll : Bool) (timeout : Int)
    (now : Nat) (m : Machine) : Machine :=
  if fds = [] ∨ maxWaitHandles < fds.length then m.refuse waitAll invalidArgument
  else
    match fds.mapM (m.lookupHandle p) with
    | none => m.refuse waitAll badDescriptor
    | some slots => m.beginObjectWait index slots waitAll timeout now

end Machine

/-! ## Runs -/

inductive Event where
  | createEvent (p : Nat) (manualReset initialState : Bool)
  | createTimer (p : Nat) (manualReset : Bool)
  | createSemaphore (p : Nat) (initialCount maxCount : Int)
  | createThread (p : Nat)
  | createPort (p : Nat)
  | createStream (p : Nat)
  | setEvent (p fd : Nat)
  | resetEvent (p fd : Nat)
  | setTimer (p fd now due period : Nat)
  | cancelTimer (p fd : Nat)
  | releaseSemaphore (p fd n : Nat)
  | connect (slot : Slot)
  | accept (p fd : Nat)
  | feed (slot : Slot)
  | drain (slot : Slot)
  | endThread (slot : Slot)
  | releaseThread (slot : Slot)
  | duplicate (p fd receiver : Nat)
  | close (p fd : Nat)
  | tick (now : Nat)
  | wait (index p : Nat) (fds : List Nat) (waitAll : Bool) (timeout : Int) (now : Nat)

open Machine in
/-- What one call, interrupt or end of a thread does.  A parked thread makes no
calls. -/
def step (event : Event) (m : Machine) : Machine :=
  match event with
  | .createEvent p manualReset initialState =>
    m.createHandle p .event
      { Object.blank with
        manualReset := manualReset, signalCount := if initialState then 1 else 0 }
  | .createTimer p manualReset =>
    m.createHandle p .timer { Object.blank with manualReset := manualReset }
  | .createSemaphore p initialCount maxCount =>
    if maxCount ≤ 0 ∨ initialCount < 0 ∨ maxCount < initialCount then m
    else
      m.createHandle p .semaphore
        { Object.blank with signalCount := initialCount.toNat, maxCount := maxCount.toNat }
  | .createThread p =>
    m.createHandle p .thread
      { Object.blank with manualReset := true, refcount := 1, held := true }
  | .createPort p =>
    m.createHandle p .port { Object.blank with manualReset := true }
  | .createStream p => m.createHandle p .stream Object.blank
  | .setEvent p fd => m.setEvent p fd
  | .resetEvent p fd => m.resetEvent p fd
  | .setTimer p fd now due period => m.setTimer p fd now due period
  | .cancelTimer p fd => m.cancelTimer p fd
  | .releaseSemaphore p fd n => m.releaseSemaphore p fd n
  | .connect slot => m.connect slot
  | .accept p fd => m.accept p fd
  | .feed slot => m.feed slot
  | .drain slot => m.drain slot
  | .endThread slot => m.endThread slot
  | .releaseThread slot => m.releaseThread slot
  | .duplicate p fd receiver => m.duplicate p fd receiver
  | .close p fd => m.close p fd
  | .tick now => m.tick now
  | .wait index p fds waitAll timeout now =>
    if index < maxThreads ∧ ¬ (m.threads index).parked then
      m.waitOnManyHandles index p fds waitAll timeout now
    else m

def run (events : List Event) (m : Machine) : Machine :=
  events.foldl (fun current event => step event current) m

end SavanXP.Waits
