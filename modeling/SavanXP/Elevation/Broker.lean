import SavanXP.Elevation.ConsentText
import SavanXP.Library.Fallible

/-!
# The elevation broker

`elevationd` takes one request at a time.  It talks to everybody through the
kernel, so a run is the list of its system calls with their results, and the
kernel that answers them is arbitrary: it may let any client write anything, any
process own a port and any wait end in any way.
-/

namespace SavanXP.Elevation.Broker

open Library

/-! ## Records -/

structure Identity where
  uid : UInt32
  euid : UInt32
  gid : UInt32
  deriving DecidableEq

/-- `sxn_port_connection_ex`. -/
structure Connection where
  clientPid : UInt32
  readHandle : Int
  writeHandle : Int
  client : Identity
  deriving DecidableEq

/-- What connecting to a port gives: both handles and who created the port. -/
structure Channel where
  toWindowd : Int
  fromWindowd : Int
  creator : Identity
  deriving DecidableEq

deriving instance DecidableEq for ConsentRequest

structure ProcessQuery where
  state : UInt32
  name : Bytes
  nameSize : name.length = nameCapacity
  deriving DecidableEq

/-- `savanxp_elevation_request`; its character arrays have fixed sizes. -/
structure ElevationRequest where
  magic : UInt32
  version : UInt32
  flags : UInt32
  argc : UInt32
  path : Bytes
  args : Bytes
  pathSize : path.length = pathCapacity
  argsSize : args.length = argsCapacity
  deriving DecidableEq

structure ConsentReply where
  magic : UInt32
  answer : Int32
  deriving DecidableEq

inductive PortName
  | elevation
  | consent
  deriving DecidableEq

inductive Record
  | started
  | exited
  deriving DecidableEq

def elevationMagic : UInt32 := 0x56454c45
def elevationVersion : UInt32 := 1
def elevationWait : UInt32 := 1
def processEnded : UInt32 := 2

def ENOENT : Int := 2
def EIO : Int := 5
def EAGAIN : Int := 11
def EACCES : Int := 13
def EPIPE : Int := 32

def requestMs : Nat := 2000
def consentMs : UInt64 := 10 * 60 * 1000
def tickMs : Nat := 250
def maxChildren : Nat := 16

/-! ## System calls -/

inductive Call
  | clockNs
  | portCreate (name : PortName)
  | portAcceptEx (port : Int)
  | portConnectEx (name : PortName)
  | waitOne (handle : Int) (timeout : Nat)
  | waitMany (handles : List Int) (timeout : Nat)
  | processQuery (pid : Int)
  | waitpid (pid : Int)
  | readRequest (handle : Int)
  | readConsentReply (handle : Int)
  | readDiscard (handle : Int)
  | writeConsent (handle : Int) (req : ConsentRequest)
  | writeReply (handle : Int) (r : Record) (status : Int32)
  | spawnExAs (path : Bytes) (argv : List Bytes) (identity : Identity)
  | close (handle : Int)
  deriving DecidableEq

/-- A read of a record gives it only when it was read whole, and a write tells
whether all of it was written. -/
@[reducible]
def Call.Result : Call → Type
  | .clockNs => UInt64
  | .portCreate _ => Int
  | .portAcceptEx _ => Option Connection
  | .portConnectEx _ => Option Channel
  | .waitOne _ _ => Int
  | .waitMany _ _ => Int
  | .processQuery _ => Option ProcessQuery
  | .waitpid _ => Option Int32
  | .readRequest _ => Option ElevationRequest
  | .readConsentReply _ => Option ConsentReply
  | .readDiscard _ => Int
  | .writeConsent _ _ => Bool
  | .writeReply _ _ _ => Unit
  | .spawnExAs _ _ _ => Int
  | .close _ => Unit

instance (call : Call) : DecidableEq call.Result := by
  cases call <;> exact inferInstance

/-- A call with its result and the clock when it returned. -/
structure Event where
  call : Call
  result : call.Result
  time : UInt64
  deriving DecidableEq

/-- Everything outside the broker: it may take all earlier calls into account. -/
structure Kernel where
  time : List Event → UInt64
  answer : List Event → (call : Call) → call.Result

/-- The clock that is read is the one that the calls are timed by. -/
def Kernel.reply (kernel : Kernel) (log : List Event) : (call : Call) → call.Result
  | .clockNs => kernel.time log
  | call => kernel.answer log call

structure Child where
  pid : Int
  replyHandle : Int

structure Daemon where
  log : List Event
  children : Fin maxChildren → Child

def freeChild (children : Fin maxChildren → Child) : Option (Fin maxChildren) :=
  (List.finRange maxChildren).find? fun slot => (children slot).pid = 0

/-! ## The request -/

/-- The strings that `argv` is made to point to; `rest` is what follows the offset. -/
def parseArgs : Nat → Bytes → Option (List Bytes)
  | 0, _ => some []
  | n + 1, rest =>
    if rest.isEmpty then none
    else if rest.contains 0 then
      (parseArgs n (afterString rest)).map (firstString rest :: ·)
    else none

def parseRequest (req : ElevationRequest) : Option (List Bytes) :=
  if req.magic ≠ elevationMagic ∨ req.version ≠ elevationVersion ∨
      req.flags &&& ~~~elevationWait ≠ 0 ∨ req.argc = 0 ∨ maxArgs < req.argc.toNat then
    none
  else if req.path.head? ≠ some 47 ∨ req.path.contains 0 = false then none
  else parseArgs req.argc.toNat req.args

/-- The record that windowd is shown. -/
def consentRequest (client : Connection) (query : Option ProcessQuery) (asked : ElevationRequest) :
    ConsentRequest where
  magic := consentMagic
  version := consentVersion
  requesterPid := client.clientPid
  requesterUid := client.client.uid
  requesterName := (query.elim (List.replicate 31 0) fun query => query.name.take 31) ++ [0]
  path := asked.path.take 127 ++ [0]
  argc := asked.argc
  args := asked.args
  nameSize := by cases query with
    | none => rfl
    | some query => simp [query.nameSize, nameCapacity]
  pathSize := by simp [asked.pathSize, pathCapacity]
  argsSize := asked.argsSize

def answerOf : Option ConsentReply → Int
  | none => 0
  | some reply =>
    if reply.magic ≠ consentMagic then 0
    else if reply.answer = 1 then 1
    else if reply.answer < 0 then reply.answer.toInt
    else 0

/-! ## The daemon -/

section Daemon

variable (kernel : Kernel)

def sys (call : Call) : Fallible Daemon call.Result := fun daemon =>
  let result := kernel.reply daemon.log call
  (some result, { daemon with log := daemon.log ++ [⟨call, result, kernel.time daemon.log⟩] })

def closeHandle (handle : Int) : Fallible Daemon Unit :=
  if 0 ≤ handle then do
    sys kernel (.close handle)
    pure ()
  else pure ()

def closeBoth (one other : Int) : Fallible Daemon Unit := do
  closeHandle kernel one
  closeHandle kernel other

def setChild (slot : Fin maxChildren) (child : Child) : Fallible Daemon Unit :=
  Fallible.update fun daemon =>
    { daemon with children := Function.update daemon.children slot child }

/-- The loop of `ask_consent`, for so many rounds; a run that is still waiting then
stops there. -/
def awaitAnswer (fromWindowd clientRead : Int) (deadline : UInt64) : Nat → Fallible Daemon Int
  | 0 => Fallible.fail
  | rounds + 1 => do
      let now : UInt64 ← sys kernel .clockNs
      if deadline ≤ now then pure 0
      else
        let which : Int ← sys kernel
          (.waitMany [fromWindowd, clientRead] (((deadline - now) / 1000000).toNat + 1))
        if which = 0 then
          let reply : Option ConsentReply ← sys kernel (.readConsentReply fromWindowd)
          pure (answerOf reply)
        else if which = 1 then
          let got : Int ← sys kernel (.readDiscard clientRead)
          -- the requester hung up
          if got ≤ 0 then pure (-EPIPE)
          else awaitAnswer fromWindowd clientRead deadline rounds
        else awaitAnswer fromWindowd clientRead deadline rounds

section

variable (client : Connection)

/-- From the write of the consent request on. -/
def showPrompt (asked : ElevationRequest) (channel : Channel)
    (deadline : UInt64) (rounds : Nat) : Fallible Daemon Int := do
  let query : Option ProcessQuery ← sys kernel (.processQuery client.clientPid.toNat)
  let written : Bool ← sys kernel
    (.writeConsent channel.toWindowd (consentRequest client query asked))
  if written = false then
    closeBoth kernel channel.toWindowd channel.fromWindowd
    pure (- EIO)
  else
    let answer ← awaitAnswer kernel channel.fromWindowd client.readHandle deadline rounds
    closeBoth kernel channel.toWindowd channel.fromWindowd
    pure answer

def askConsent (asked : ElevationRequest) (rounds : Nat) : Fallible Daemon Int := do
  let started : UInt64 ← sys kernel .clockNs
  let connected : Option Channel ← sys kernel (.portConnectEx .consent)
  match connected with
  | none => pure (-ENOENT)
  | some channel =>
    if channel.creator.euid ≠ 0 then
      closeBoth kernel channel.toWindowd channel.fromWindowd
      pure (-EACCES)
    else showPrompt kernel client asked channel (started + consentMs * 1000000) rounds

def tellStarted (consent pid : Int) : Fallible Daemon Unit :=
  if consent = -EPIPE then pure ()
  else do
    sys kernel (.writeReply client.writeHandle .started (Int32.ofInt pid))
    pure ()

/-- The child gets its slot; the requester's pipe is kept for one that waits. -/
def keepChild (asked : ElevationRequest) (slot : Fin maxChildren)
    (consent pid : Int) : Fallible Daemon Unit :=
  if 0 < pid then
    if asked.flags &&& elevationWait ≠ 0 ∧ consent ≠ -EPIPE then
      setChild slot ⟨pid, client.writeHandle⟩
    else do
      setChild slot ⟨pid, -1⟩
      closeHandle kernel client.writeHandle
  else closeHandle kernel client.writeHandle

/-- The end of `serve`. -/
def finish (asked : ElevationRequest) (slot : Fin maxChildren)
    (consent pid : Int) : Fallible Daemon Unit := do
  tellStarted kernel client consent pid
  closeHandle kernel client.readHandle
  keepChild kernel client asked slot consent pid

/-- The system asking is not asked about. -/
def consentFor (asked : ElevationRequest) (rounds : Nat) : Fallible Daemon Int :=
  if client.client.euid = 0 then pure 1 else askConsent kernel client asked rounds

/-- From an accepted request on. -/
def handle (asked : ElevationRequest) (argv : List Bytes) (rounds : Nat) :
    Fallible Daemon Unit := do
  let daemon ← Fallible.get
  match freeChild daemon.children with
  | none =>
    sys kernel (.writeReply client.writeHandle .started (Int32.ofInt (-EAGAIN)))
    closeBoth kernel client.readHandle client.writeHandle
  | some slot =>
    let consent ← consentFor kernel client asked rounds
    if consent = 1 then
      let pid : Int ← sys kernel (.spawnExAs (firstString asked.path) argv
        ⟨client.client.uid, 0, client.client.gid⟩)
      finish kernel client asked slot consent pid
    else finish kernel client asked slot consent (if consent < 0 then consent else -EACCES)

end

def serve (port : Int) (rounds : Nat) : Fallible Daemon Unit := do
  let accepted : Option Connection ← sys kernel (.portAcceptEx port)
  match accepted with
  | none => pure ()
  | some client =>
    let readable : Int ← sys kernel (.waitMany [client.readHandle] requestMs)
    if readable ≠ 0 then closeBoth kernel client.readHandle client.writeHandle
    else
      let req : Option ElevationRequest ← sys kernel (.readRequest client.readHandle)
      match req with
      | none => closeBoth kernel client.readHandle client.writeHandle
      | some asked =>
        match parseRequest asked with
        | none => closeBoth kernel client.readHandle client.writeHandle
        | some argv => handle kernel client asked argv rounds

def tellExited (child : Child) (status : Option Int32) : Fallible Daemon Unit :=
  if 0 ≤ child.replyHandle then do
    sys kernel (.writeReply child.replyHandle .exited (status.getD (-1)))
    closeHandle kernel child.replyHandle
  else pure ()

def reapChild (slot : Fin maxChildren) : Fallible Daemon Unit := do
  let daemon ← Fallible.get
  let child := daemon.children slot
  if child.pid = 0 then pure ()
  else
    let query : Option ProcessQuery ← sys kernel (.processQuery child.pid)
    if query.any fun query => query.state ≠ processEnded then pure ()
    else
      let status : Option Int32 ← sys kernel (.waitpid child.pid)
      tellExited kernel child status
      setChild slot ⟨0, min child.replyHandle (-1)⟩

def reapChildren : Fallible Daemon Unit :=
  (List.finRange maxChildren).foldlM (fun _ slot => reapChild kernel slot) ()

def turn (port : Int) (rounds : Nat) : Fallible Daemon Unit := do
  let woken : Int ← sys kernel (.waitOne port tickMs)
  if woken = 0 then do
    serve kernel port rounds
    reapChildren kernel
  else reapChildren kernel

/-- The loop of `main`, for so many turns. -/
def mainLoop (port : Int) (rounds : Nat) : Nat → Fallible Daemon Unit
  | 0 => pure ()
  | turns + 1 => do
      turn kernel port rounds
      mainLoop port rounds turns

def main (rounds turns : Nat) : Fallible Daemon Unit := do
  let port : Int ← sys kernel (.portCreate .elevation)
  if port < 0 then pure () else mainLoop kernel port rounds turns

/-- The calls of a run: so many turns of the main loop, with at most so many rounds of
waiting for each answer. -/
def run (rounds turns : Nat) : List Event :=
  (main kernel rounds turns ⟨[], fun _ => ⟨0, -1⟩⟩).2.log

end Daemon

end SavanXP.Elevation.Broker
