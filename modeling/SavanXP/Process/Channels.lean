import SavanXP.Process.Objects

/-!
# Pipes and ports

The calls that make channels: the POSIX pipe call, the native pipe creation, and
the connection to a port and its acceptance.  Each takes pipes, streams and
handle entries one after another and gives back by hand what it took when a
later step fails.
-/

namespace SavanXP.Objects

open Library

def accessRead : Nat := 1
def accessWrite : Nat := 2
def accessQuery : Nat := 8
def accessModify : Nat := 16
def accessSynchronize : Nat := 32

def objectAccessForOpenFlags (read write : Bool) : Nat :=
  accessQuery ||| accessSynchronize ||| (if read then accessRead else 0) |||
    (if write then accessWrite else 0)

/-- User memory given to a call: whether its range is accessible when the call
checks it, and whether the copy to it succeeds. -/
structure Buffer where
  accessible : Bool
  copied : Bool

namespace Machine

variable (m : Machine)

/-- The two ends of a pipe are set up; it has one reader and one writer. -/
def linkEnds (pipe : PipeId) (reader writer : StreamId) : Machine :=
  ((m.setStream reader { kind := .pipe pipe, read := true }).setStream writer
    { kind := .pipe pipe, write := true }).setPipe pipe
      { inUse := true, readerRefs := 1, writerRefs := 1 }

variable (p : Process)

/-- Gives a stream to a process. -/
def allocateEnd (stream : StreamId) (read write : Bool) : Option (Fd × Machine) :=
  m.allocateFd p (.stream stream) (objectAccessForOpenFlags read write)

/-- The end of `create_pipe`, once the pipe and its ends exist. -/
def installEnds (pipe : PipeId) (reader writer : StreamId) (buf : Buffer) : Reply :=
  match m.allocateEnd p reader true false with
  | none =>
    ⟨.error .EBADF, ((m.discardIoObject reader).discardIoObject writer).setPipe pipe {}⟩
  | some (readFd, first) =>
    match first.allocateEnd p writer false true with
    | none => ⟨.error .EBADF, (first.closeEntry p readFd).discardIoObject writer⟩
    | some (writeFd, second) =>
      if buf.copied then ⟨.ok 0, second⟩
      else ⟨.error .EINVAL, (second.closeEntry p readFd).closeEntry p writeFd⟩

/-- The POSIX pipe call.  When no stream is free the second allocation fails like
the first. -/
def createPipe (buf : Buffer) : Reply :=
  if buf.accessible = false then ⟨.error .EINVAL, m⟩
  else
    match m.allocatePipe with
    | none => ⟨.error .ENOMEM, m⟩
    | some (pipe, piped) =>
      match piped.allocateIoObject with
      | none => ⟨.error .ENOMEM, piped⟩
      | some (reader, readable) =>
        match readable.allocateIoObject with
        | none => ⟨.error .ENOMEM, readable.discardIoObject reader⟩
        | some (writer, writable) =>
          (writable.linkEnds pipe reader writer).installEnds p pipe reader writer buf

/-- A pipe and its two ends, each holding one reference that the caller owns. -/
def createPipePair : Option (StreamId × StreamId) × Machine :=
  match m.allocatePipe with
  | none => (none, m)
  | some (pipe, piped) =>
    match piped.allocateIoObject with
    | none => (none, piped.setPipe pipe {})
    | some (reader, readable) =>
      match readable.allocateIoObject with
      | none => (none, (readable.discardIoObject reader).setPipe pipe {})
      | some (writer, writable) =>
        (some (reader, writer),
          ((writable.linkEnds pipe reader writer).retain (.stream reader)).retain
            (.stream writer))

/-- The end of `native_pipe_create`, once the pair exists.  The creation
references go when the handle table has its own. -/
def installPair (reader writer : StreamId) (buf : Buffer) : Reply :=
  match m.allocateEnd p reader true false with
  | none => ⟨.error .EBADF, (m.releaseStream reader).releaseStream writer⟩
  | some (readFd, first) =>
    match first.allocateEnd p writer false true with
    | none =>
      ⟨.error .EBADF,
        ((first.releaseStream reader).releaseStream writer).closeEntry p readFd⟩
    | some (writeFd, second) =>
      let installed := (second.releaseStream reader).releaseStream writer
      if buf.copied then ⟨.ok 0, installed⟩
      else ⟨.error .EINVAL, (installed.closeEntry p readFd).closeEntry p writeFd⟩

def nativePipeCreate (buf : Buffer) : Reply :=
  if buf.accessible = false then ⟨.error .EINVAL, m⟩
  else
    match m.createPipePair with
    | (none, t) => ⟨.error .ENOMEM, t⟩
    | (some (reader, writer), t) => t.installPair p reader writer buf

/-! ## Ports -/

def findPort (name : List UInt8) : Option PortId :=
  if name = [] then none
  else
    (List.finRange maxPortObjects).find? fun port =>
      m.inUse (.port port) && (m.ports port).name == name

def createPort (name : List UInt8) : Option (PortId × Machine) :=
  if name = [] ∨ m.findPort name ≠ none ∨ portNameCapacity ≤ name.length then none
  else
    match freeEntry fun port => m.inUse (.port port) with
    | some port => some (port, (m.create (.port port)).setPort port { name := name })
    | none => none

/-- The name is `none` when copying it from user memory fails. -/
def nativePortCreate (name : Option (List UInt8)) : Reply :=
  match name with
  | none => ⟨.error .EINVAL, m⟩
  | some name =>
    if name = [] then ⟨.error .EINVAL, m⟩
    else if m.findPort name ≠ none then ⟨.error .EEXIST, m⟩
    else
      match m.createPort name with
      | none => ⟨.error .ENOMEM, m⟩
      | some (port, made) =>
        match made.allocateFd p (.port port) (accessQuery ||| accessSynchronize) with
        | none => ⟨.error .EBADF, (made.retain (.port port)).release (.port port)⟩
        | some (fd, installed) => ⟨.ok fd, installed⟩

def portEnqueue (port : PortId) (conn : Connection) : Option Machine :=
  if portPendingCapacity ≤ (m.ports port).pending.length then none
  else
    some (m.setPort port
      { m.ports port with pending := (m.ports port).pending ++ [conn] })

def portDequeue (port : PortId) : Option (Connection × Machine) :=
  match (m.ports port).pending with
  | [] => none
  | conn :: rest =>
    some (conn, m.setPort port { m.ports port with pending := rest })

/-- The server's ends of a connection that is not offered are released. -/
def withdraw (requestReader replyWriter : StreamId) : Machine :=
  (m.releaseStream requestReader).releaseStream replyWriter

/-- The end of `native_port_connect`, once both pairs exist. -/
def offerConnection (port : PortId) (req reply : StreamId × StreamId) (copied : Bool) : Reply :=
  match m.allocateEnd p req.2 false true with
  | none =>
    ⟨.error .EBADF,
      ((m.releaseStream req.2).releaseStream reply.1).withdraw req.1 reply.2⟩
  | some (writeFd, first) =>
    match first.allocateEnd p reply.1 true false with
    | none =>
      let owned := (first.releaseStream req.2).releaseStream reply.1
      ⟨.error .EBADF, (owned.closeEntry p writeFd).withdraw req.1 reply.2⟩
    | some (readFd, second) =>
      let owned := (second.releaseStream req.2).releaseStream reply.1
      let refused : Reply := ⟨.error .EAGAIN,
        ((owned.closeEntry p writeFd).closeEntry p readFd).withdraw req.1
          reply.2⟩
      if copied then
        match owned.portEnqueue port ⟨req.1, reply.2⟩ with
        | some offered => ⟨.ok 0, offered⟩
        | none => refused
      else refused

/-- `creator` is the buffer of `CONNECT_EX`, when given. -/
def nativePortConnect (name : Option (List UInt8)) (buf : Buffer)
    (creator : Option Buffer) : Reply :=
  match name with
  | none => ⟨.error .EINVAL, m⟩
  | some name =>
    if name = [] ∨ buf.accessible = false ∨ creator.all Buffer.accessible = false then
      ⟨.error .EINVAL, m⟩
    else
      match m.findPort name with
      | none => ⟨.error .ENOENT, m⟩
      | some port =>
        if portPendingCapacity ≤ (m.ports port).pending.length then
          ⟨.error .EAGAIN, m⟩
        else
          match m.createPipePair with
          | (none, t) => ⟨.error .ENOMEM, t⟩
          | (some req, t) =>
            match t.createPipePair with
            | (none, last) =>
              ⟨.error .ENOMEM, (last.releaseStream req.1).releaseStream req.2⟩
            | (some reply, last) =>
              last.offerConnection p port req reply
                (buf.copied && creator.all Buffer.copied)

/-- The end of `native_port_accept`, once the connection is off the queue. -/
def takeConnection (conn : Connection) (buf : Buffer) : Reply :=
  match m.allocateEnd p conn.serverRead true false with
  | none => ⟨.error .EBADF, m.withdraw conn.serverRead conn.serverWrite⟩
  | some (readFd, first) =>
    match first.allocateEnd p conn.serverWrite false true with
    | none =>
      ⟨.error .EBADF,
        (first.withdraw conn.serverRead conn.serverWrite).closeEntry p readFd⟩
    | some (writeFd, second) =>
      let taken := second.withdraw conn.serverRead conn.serverWrite
      if buf.copied then ⟨.ok 0, taken⟩
      else ⟨.error .EINVAL, (taken.closeEntry p readFd).closeEntry p writeFd⟩

def nativePortAccept (handle : Nat) (buf : Buffer) : Reply :=
  match m.lookupHandle p handle accessQuery with
  | some (.port port) =>
    if buf.accessible = false then ⟨.error .EINVAL, m⟩
    else
      match m.portDequeue port with
      | none => ⟨.error .EAGAIN, m⟩
      | some (conn, t) => t.takeConnection p conn buf
  | _ => ⟨.error .EBADF, m⟩

end Machine

end SavanXP.Objects
