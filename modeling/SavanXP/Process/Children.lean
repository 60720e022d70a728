import SavanXP.Library.Slots

/-!
# Children and those who wait for them

Processes and threads live in tables of slots.  A process knows its parent by
number; when it ends it stays in the table until a thread of the parent has
asked for it.  A thread that asks for a child that has not ended yet parks, and
the child that ends looks for such a thread.  When the parent ends first, its
ended children go unreported and the others become orphans, children of the
first process, which go unreported too unless that process is waiting.

The logs say which processes ended and how each of them left the table: reported
to whom, or unreported.
-/

namespace SavanXP.Children

open SavanXP.Library Function

@[irreducible]
def maxProcesses : Nat := 64

@[irreducible]
def maxThreads : Nat := 256

def maxCpus : Nat := 32

def waitAnyPid : Nat := 0xffffffff

inductive Life where
  | unused
  | alive
  | zombie
deriving DecidableEq

/-- A slot of the process table.  `bornOf` is the process that made it. -/
structure Process where
  life : Life
  pid : Nat
  parentPid : Nat
  idle : Bool
  orphaned : Bool
  exitRequested : Bool
  exitCode : Int
  bornOf : Nat

def Process.blank : Process :=
  { life := .unused, pid := 0, parentPid := 0, idle := false, orphaned := false,
    exitRequested := false, exitCode := 0, bornOf := 0 }

inductive State where
  | unused
  | ready
  | waiting
  | zombie
deriving DecidableEq

/-- A slot of the thread table.  Of the states in which a thread is not stopped
for good, only parking in waitpid matters here; the others are `ready`. -/
structure Thread where
  state : State
  process : Nat
  waitingFor : Nat

def Thread.blank : Thread := { state := .unused, process := 0, waitingFor := 0 }

/-- How a process that ended left the table.  A reported one was returned to a
process that asked for it; an unreported one was made by `bornOf`. -/
inductive Fate where
  | reported (parent waiter req : Nat) (result : Int)
  | unreported (bornOf : Nat)
deriving DecidableEq

structure Outcome where
  child : Nat
  code : Int
  fate : Fate
deriving DecidableEq

structure Machine where
  processes : Nat → Process
  threads : Nat → Thread
  nextPid : Nat
  initPid : Nat
  ended : List (Nat × Int)
  outcomes : List Outcome

/-- The request names the child. -/
def asksFor (req pid : Nat) : Prop := req = waitAnyPid ∨ pid = req

instance (req pid : Nat) : Decidable (asksFor req pid) :=
  inferInstanceAs (Decidable (_ ∨ _))

/-- The request as the kernel keeps it: 32 bits, and all ones for any child. -/
def waitedPid (waited : Int) : Nat :=
  if waited = -1 then waitAnyPid else (waited % 2 ^ 32).toNat

namespace Machine

def setProcess (k : Nat) (process : Process) (m : Machine) : Machine :=
  { m with processes := update m.processes k process }

def setThread (i : Nat) (th : Thread) (m : Machine) : Machine :=
  { m with threads := update m.threads i th }

variable (m : Machine)

/-- The process that a thread belongs to. -/
def owner (i : Nat) : Process :=
  m.processes (m.threads i).process

def takePid : Machine :=
  { m with nextPid := (m.nextPid + 1) % 2 ^ 32 }

def resetProcessSlot (k : Nat) (m : Machine) : Machine :=
  m.setProcess k { Process.blank with idle := (m.processes k).idle }

/-- The process leaves the table, with its threads. -/
def reapProcess (k : Nat) (m : Machine) : Machine :=
  let released : Machine := { m with
    threads := fun i =>
      if (m.threads i).state ≠ .unused ∧ (m.threads i).process = k then
        Thread.blank
      else m.threads i }
  released.resetProcessSlot k

/-! ## Waiting -/

def findZombieChild (parent waited : Nat) : Option Nat :=
  (List.range maxProcesses).find? fun k =>
    (m.processes k).life = .zombie ∧ (m.processes k).parentPid = parent ∧
      asksFor waited (m.processes k).pid

/-- Some process in the table is a child that the request names. -/
def hasChild (parent waited : Nat) : Bool :=
  (List.range maxProcesses).any fun k =>
    (m.processes k).life ≠ .unused ∧ (m.processes k).parentPid = parent ∧
      asksFor waited (m.processes k).pid

def findWaitingParentFor (child : Process) : Option Nat :=
  (List.range maxThreads).find? fun i =>
    (m.threads i).state = .waiting ∧ (m.owner i).pid = child.parentPid ∧
      asksFor (m.threads i).waitingFor child.pid

/-- Notes how a process leaves the table. -/
def note (k : Nat) (fate : Fate) (m : Machine) : Machine :=
  let process := m.processes k
  { m with
    outcomes := m.outcomes ++
      [{ child := process.pid, code := process.exitCode, fate := fate }] }

def report (k waiter req : Nat) (result : Int) (m : Machine) : Machine :=
  m.note k (.reported (m.processes k).parentPid waiter req result)

def discard (k : Nat) (m : Machine) : Machine :=
  m.note k (.unreported (m.processes k).bornOf)

def waitpidChild (i : Nat) (waited : Int) (m : Machine) : Machine :=
  let pid := (m.owner i).pid
  match m.findZombieChild pid (waitedPid waited) with
  | some k =>
    let result := ((m.processes k).pid : Int).bmod (2 ^ 32)
    (m.report k pid (waitedPid waited) result).reapProcess k
  | none =>
    if m.hasChild pid (waitedPid waited) then
      m.setThread i
        { m.threads i with state := .waiting, waitingFor := waitedPid waited }
    else m

/-- A child that ended is handed to a thread that waits for it. -/
def wakeWaitingParent (k : Nat) (m : Machine) : Machine :=
  let child := m.processes k
  match m.findWaitingParentFor child with
  | none => if child.orphaned then (m.discard k).reapProcess k else m
  | some i =>
    let reported := m.report k (m.owner i).pid
      (m.threads i).waitingFor child.pid
    let woken := reported.setThread i
      { m.threads i with state := .ready, waitingFor := 0 }
    woken.reapProcess k

/-! ## Ends -/

def adopt (parent : Nat) (k : Nat) (m : Machine) : Machine :=
  let child := m.processes k
  if child.life = .unused ∨ child.parentPid ≠ parent then m
  else if child.life = .zombie then (m.discard k).reapProcess k
  else m.setProcess k { child with parentPid := m.initPid, orphaned := true }

def reparentOrphanedChildren (parent : Nat) (m : Machine) : Machine :=
  overSlots (adopt parent) maxProcesses m

/-- The threads of the process stop and it becomes a zombie. -/
def bury (k : Nat) (m : Machine) : Machine :=
  let process := m.processes k
  { m with
    threads := fun i =>
      if (m.threads i).state ≠ .unused ∧ (m.threads i).process = k then
        { m.threads i with state := .zombie, waitingFor := 0 }
      else m.threads i
    processes := update m.processes k { process with life := .zombie }
    ended := m.ended ++ [(process.pid, process.exitCode)] }

def requestExit (k : Nat) (code : Int) (m : Machine) : Machine :=
  let process := m.processes k
  if process.exitRequested then m
  else m.setProcess k { process with exitRequested := true, exitCode := code }

/-- `deferred` says that another thread of the process still runs on some core
or is stopped inside the kernel: the process then ends later. -/
def terminateProcess (k : Nat) (code : Int) (deferred : Bool) (m : Machine) : Machine :=
  let process := m.processes k
  if process.idle ∨ process.life ≠ .alive then m
  else
    let asked := m.requestExit k code
    if deferred then asked
    else ((asked.bury k).wakeWaitingParent k).reparentOrphanedChildren process.pid

def liveThreadCount (k : Nat) : Nat :=
  (List.range maxThreads).countP fun i =>
    (m.threads i).process = k ∧ (m.threads i).state ≠ .unused ∧
      (m.threads i).state ≠ .zombie

/-- The thread stops for good while its process goes on. -/
def stopThread (i : Nat) (m : Machine) : Machine :=
  m.setThread i { m.threads i with state := .zombie, waitingFor := 0 }

def exitCurrentThread (i : Nat) (code : Int) (deferred : Bool) (m : Machine) : Machine :=
  let k := (m.threads i).process
  if (m.owner i).exitRequested then
    m.terminateProcess k (m.owner i).exitCode deferred
  else if m.liveThreadCount k ≤ 1 then m.terminateProcess k code deferred
  else m.stopThread i

/-! ## Births -/

def freeThread : Option Nat :=
  firstFree (fun i => (m.threads i).state ≠ .unused) maxThreads

def startThread (i k : Nat) (m : Machine) : Machine :=
  m.setThread i { state := .ready, process := k, waitingFor := 0 }

/-- A new process and its first thread, for spawn and fork alike.  `fails` says
that memory or handles ran out on the way. -/
def spawn (parent : Nat) (fails : Bool) (m : Machine) : Machine :=
  match firstFree (fun k => (m.processes k).life ≠ .unused) maxProcesses with
  | none => m
  | some k =>
    let made := (m.setProcess k
      { Process.blank with
        life := .alive, pid := m.nextPid, parentPid := parent, bornOf := parent }).takePid
    match made.freeThread with
    | none => made.reapProcess k
    | some i => if fails then made.reapProcess k else made.startThread i k

/-- A further thread of a process; its number comes from the same counter. -/
def createThread (k : Nat) (fails : Bool) (m : Machine) : Machine :=
  match m.freeThread with
  | none => m
  | some i => if fails then m.takePid else m.takePid.startThread i k

end Machine

/-! ## Runs -/

inductive Event where
  | spawn (i : Nat) (fails : Bool)
  | createThread (i : Nat) (fails : Bool)
  | waitpid (i : Nat) (waited : Int)
  | exitThread (i : Nat) (code : Int) (deferred : Bool)
  | terminate (k : Nat) (code : Int) (deferred : Bool)
  | stopThread (i : Nat)
  | releaseThread (i : Nat)

/-- The thread can make a call. -/
def Machine.running (m : Machine) (i : Nat) : Bool :=
  i < maxThreads ∧ (m.threads i).state = .ready ∧ (m.owner i).life = .alive

open Machine in
def step (event : Event) (m : Machine) : Machine :=
  match event with
  | .spawn i fails =>
    if m.running i then m.spawn (m.owner i).pid fails else m
  | .createThread i fails =>
    if m.running i then m.createThread (m.threads i).process fails
    else m
  | .waitpid i waited =>
    if m.running i then m.waitpidChild i waited else m
  | .exitThread i code deferred =>
    if m.running i then m.exitCurrentThread i code deferred else m
  | .terminate k code deferred => m.terminateProcess k code deferred
  | .stopThread i =>
    if (m.threads i).state ≠ .unused ∧ (m.owner i).life = .alive then
      m.stopThread i
    else m
  | .releaseThread i =>
    if (m.threads i).state = .zombie ∧ (m.owner i).life = .alive then
      m.setThread i .blank
    else m

def run (events : List Event) (m : Machine) : Machine :=
  events.foldl (fun current event => step event current) m

/-- After the start: an idle process for each core, and the first process. -/
def booted (cores : Fin (maxCpus + 1)) : Machine :=
  { processes := fun k =>
      if k ≤ cores.val then
        { Process.blank with life := .alive, pid := k + 1, idle := k < cores.val }
      else .blank
    threads := fun i =>
      if i ≤ cores.val then { state := .ready, process := i, waitingFor := 0 } else .blank
    nextPid := cores.val + 2
    initPid := cores.val + 1
    ended := []
    outcomes := [] }

end SavanXP.Children
