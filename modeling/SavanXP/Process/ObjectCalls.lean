import SavanXP.Process.Channels

/-!
# The calls that take and give up references

Creating objects, opening files, devices and file sections, duplicating, closing
and passing handles, mapping and unmapping section views, threads, and the life
of a process from spawn or fork to the reap.  What the kernel learns from the
rest of the system during a call (whether memory was found, whether the cores
have flushed, whether an image loads) is given with the call.

A run is any sequence of calls by any processes.
-/

namespace SavanXP.Objects

open Library Function

def maxSectionBytes : Nat := 67108864
def spawnMaxHandles : Nat := 4

/-- How `map_section_view` ends once the section is known to be live: refused by
its checks, broken off in the middle (the unmapped pages may have to wait for
other cores), or with every page mapped. -/
inductive Mapping
  | refused
  | broken (waits : Bool)
  | mapped

/-- What an unmapping finds: the deferred sections whose cores have flushed, and
whether its own reference has to wait. -/
structure Flush where
  flushed : Nat → Bool
  waits : Bool

namespace Machine

variable (m : Machine)

/-! ## Objects -/

/-- An object of a kind and a handle to it; without a free entry the object goes
again. -/
def createHandle (kind : Kind) (p : Process) (granted : Nat) : Reply :=
  match m.freeSlot kind with
  | none => ⟨.error .ENOMEM, m⟩
  | some k =>
    match (m.create (.plain kind k)).allocateFd p (.plain kind k) granted with
    | none => ⟨.error .EBADF, (m.create (.plain kind k)).releasePlain kind k⟩
    | some (fd, installed) => ⟨.ok fd, installed⟩

section

variable (p : Process)

def createEventHandle : Reply :=
  m.createHandle .event p (accessQuery ||| accessModify ||| accessSynchronize)

def createTimerHandle : Reply :=
  m.createHandle .timer p (accessQuery ||| accessModify ||| accessSynchronize)

def createSemaphoreHandle (initialCount maxCount : Int) : Reply :=
  if maxCount ≤ 0 ∨ initialCount < 0 ∨ maxCount < initialCount then ⟨.error .EINVAL, m⟩
  else m.createHandle .semaphore p (accessQuery ||| accessModify ||| accessSynchronize)

/-- `memory` says whether the pages of the section are found. -/
def createSectionHandle (size access : Nat) (memory : Bool) : Reply :=
  if size = 0 then ⟨.error .EINVAL, m⟩
  else if maxSectionBytes < size ∨ memory = false then ⟨.error .ENOMEM, m⟩
  else m.createHandle .section p (accessQuery ||| accessSynchronize ||| access)

def findFileSection (range : FileRange) : Option Nat :=
  (List.range Kind.section.capacity).find? fun k =>
    m.inUse (.plain .section k) && m.sources k == some range

/-- A file of a mounted volume has one section for each range of it. -/
def cachedSection (node : Node) (off bytes : Nat) : Option Nat :=
  if node.volume then m.findFileSection ⟨node.number, off, bytes⟩ else none

/-- A range of length zero is the whole file. -/
def rangeBytes (size length : Nat) : Nat := if length = 0 then size else length

/-- The section the cache has, or a new one; the reference is left to the caller
in both cases. -/
def acquireFileRangeSection (node : Node) (size off length : Nat) (memory : Bool) :
    Option (Nat × Machine) :=
  let bytes := rangeBytes size length
  if size < off ∨ size - off < bytes ∨ bytes = 0 ∨ maxSectionBytes < bytes then none
  else
    match m.cachedSection node off bytes with
    | some k => some (k, m)
    | none =>
      match (if memory then m.freeSlot .section else none) with
      | none => none
      | some k =>
        some (k, (m.create (.plain .section k)).setSource k
          (if node.volume then some ⟨node.number, off, bytes⟩ else none))

/-- The end of `open_range_section_handle`. -/
def installSection (k access : Nat) : Reply :=
  match m.allocateFd p (.plain .section k)
      (accessQuery ||| accessSynchronize ||| access) with
  | none => ⟨.error .EBADF, m.releasePlain .section k⟩
  | some (fd, installed) => ⟨.ok fd, installed⟩

def fdToNode (handle : Nat) : Option Node :=
  match m.fdToIoObject p handle accessRead with
  | some stream => (m.streams stream).node
  | none => none

/-- `size` is the size of the file at the time of the call. -/
def openRangeSectionHandle (handle size off length access : Nat) (memory : Bool) : Reply :=
  match m.fdToNode p handle with
  | none => ⟨.error .EBADF, m⟩
  | some node =>
    if node.file = false ∨ access &&& accessWrite ≠ 0 then ⟨.error .EINVAL, m⟩
    else
      match m.acquireFileRangeSection node size off length memory with
      | none => ⟨.error .ENOMEM, m⟩
      | some (k, t) => t.installSection p k (access ||| accessRead)

/-- Opening a file or a device, once the path has led to one: a stream and a
handle to it. -/
def openStream (r : Stream) : Reply :=
  match m.allocateIoObject with
  | none => ⟨.error .ENOMEM, m⟩
  | some (stream, made) =>
    let opened := made.setStream stream r
    match opened.allocateEnd p stream r.read r.write with
    | none => ⟨.error .EBADF, opened.discardIoObject stream⟩
    | some (fd, installed) => ⟨.ok fd, installed⟩

/-- `open_node` and `native_open_device`: a device has its own kind of stream. -/
def openNode (node : Node) (dev read write : Bool) : Reply :=
  m.openStream p
    { kind := if dev then .device node else .vnode node, read := read, write := write }

/-! ## Handles -/

def duplicate (handle : Nat) : Reply :=
  match m.lookupHandle p handle accessQuery, m.entry p handle with
  | some object, some source =>
    match m.allocateFd p object source.granted with
    | none => ⟨.error .EBADF, m⟩
    | some (fd, installed) => ⟨.ok fd, installed⟩
  | _, _ => ⟨.error .EBADF, m⟩

def duplicateTo (handle target : Nat) : Reply :=
  match m.lookupHandle p handle accessQuery, m.entry p handle with
  | some object, some source =>
    if inside : target < maxFileHandles then
      if handle = target then ⟨.ok target, m⟩
      else ⟨.ok target, m.installHandle p ⟨target, inside⟩ object source.granted⟩
    else ⟨.error .EBADF, m⟩
  | _, _ => ⟨.error .EBADF, m⟩

def close (handle : Nat) : Reply :=
  if inside : handle < maxFileHandles then
    if (m.handles p ⟨handle, inside⟩).isSome then
      ⟨.ok 0, m.closeEntry p ⟨handle, inside⟩⟩
    else ⟨.error .EBADF, m⟩
  else ⟨.error .EBADF, m⟩

/-- The pipe of a stream open in the direction asked for. -/
def pipeEnd (handle : Nat) (write : Bool) : Option PipeId :=
  match m.fdToIoObject p handle (if write then accessWrite else accessRead) with
  | some stream =>
    if (if write then (m.streams stream).write else (m.streams stream).read) then
      (m.streams stream).pipe
    else none
  | none => none

/-- Streams and ports do not travel. -/
def pipeSendHandle (pipeHandle handle : Nat) : Reply :=
  match m.pipeEnd p pipeHandle true, m.entry p handle with
  | some pipe, some e =>
    match e.object with
    | .plain kind k =>
      if (m.pipes pipe).readerRefs = 0 then ⟨.error .EPIPE, m⟩
      else if pipeHandleQueueCapacity ≤ (m.pipes pipe).handles.length then
        ⟨.error .EAGAIN, m⟩
      else
        ⟨.ok 0, (m.retain (.plain kind k)).setPipe pipe
          { m.pipes pipe with
            handles := (m.pipes pipe).handles ++ [⟨kind, k, e.granted⟩] }⟩
    | _ => ⟨.error .EINVAL, m⟩
  | _, _ => ⟨.error .EBADF, m⟩

/-- Without a free entry the handle stays queued. -/
def pipeReceiveHandle (pipeHandle : Nat) : Reply :=
  match m.pipeEnd p pipeHandle false with
  | some pipe =>
    match (m.pipes pipe).handles with
    | [] => ⟨.error .EAGAIN, m⟩
    | passed :: rest =>
      match m.allocateFd p passed.object passed.granted with
      | none => ⟨.error .EBADF, m⟩
      | some (fd, installed) =>
        ⟨.ok fd, (installed.setPipe pipe
          { installed.pipes pipe with handles := rest }).releasePlain passed.kind passed.slot⟩
  | none => ⟨.error .EBADF, m⟩

/-! ## Section views -/

/-- Gives up one reference to a section whose pages were just unmapped, at once
or when the cores that may still reach them have flushed. -/
def releaseAfterShootdown (k : Nat) (waits : Bool) : Machine :=
  if waits then m.setDeferred k ((m.deferred k + 1) % 2 ^ 32)
  else m.releasePlain .section k

def releaseTimes (k : Nat) : Nat → Machine → Machine
  | 0, m => m
  | n + 1, m => releaseTimes k n (m.releasePlain .section k)

/-- The deferred references whose cores have flushed are released. -/
def reclaimDeferredViews (flushed : Nat → Bool) : Machine :=
  (List.range Kind.section.capacity).foldl
    (fun m k =>
      if flushed k then releaseTimes k (m.deferred k) (m.setDeferred k 0)
      else m)
    m

def findFreeSectionView : Option ViewId :=
  freeEntry fun view => (m.views p view).isSome

def mapSectionView (k : Nat) (share : Bool) (mapping : Mapping) : Bool × Machine :=
  if m.inUse (.plain .section k) = false then (false, m)
  else
    match mapping with
    | .refused => (false, m)
    | .broken waits =>
      if m.findFreeSectionView p = none then (false, m)
      else (false, (m.retain (.plain .section k)).releaseAfterShootdown k waits)
    | .mapped =>
      match m.findFreeSectionView p with
      | none => (false, m)
      | some view =>
        (true, (m.retain (.plain .section k)).setView p view (some ⟨k, share⟩))

def mapViewBaseHandle (handle : Nat) (share : Bool) (mapping : Mapping) : Machine :=
  match m.lookupHandle p handle accessQuery with
  | some (.plain .section k) => (m.mapSectionView p k share mapping).2
  | _ => m

def unmapSectionView (view : ViewId) (flush : Flush) : Machine :=
  match m.views p view with
  | none => m
  | some r =>
    ((m.reclaimDeferredViews flush.flushed).releaseAfterShootdown r.slot
      flush.waits).setView p view none

def destroyAddressSpace (flush : ViewId → Flush) : Machine :=
  (List.finRange maxSectionViews).foldl
    (fun m view => m.unmapSectionView p view (flush view)) m

/-- A section with the same contents; `memory` says whether its pages are found. -/
def cloneSection (k : Nat) (memory : Bool) : Option (Nat × Machine) :=
  if m.inUse (.plain .section k) = false ∨ memory = false then none
  else
    match m.freeSlot .section with
    | none => none
    | some copy => some (copy, m.create (.plain .section copy))

/-- One view of the source while an address space is cloned. -/
def cloneView (child : Process) (r : View) (memory : Bool) (mapping : Mapping) :
    Bool × Machine :=
  if r.shareOnFork then m.mapSectionView child r.slot true mapping
  else
    match m.cloneSection r.slot memory with
    | none => (false, m)
    | some (copy, made) =>
      let mapped := made.mapSectionView child copy false mapping
      (mapped.1, mapped.2.releasePlain .section copy)

/-- The views of the source in turn, up to the first that fails. -/
def cloneViews (parent child : Process) (memory : ViewId → Bool) (mapping : ViewId → Mapping) :
    List ViewId → Machine → Bool × Machine
  | [], m => (true, m)
  | view :: rest, m =>
    match m.views parent view with
    | none => cloneViews parent child memory mapping rest m
    | some r =>
      match m.cloneView child r (memory view) (mapping view) with
      | (true, t) => cloneViews parent child memory mapping rest t
      | (false, t) => (false, t)

/-! ## Threads and processes -/

/-- `stack` says whether pages for the kernel stack are found. -/
def allocateThread (stack : Bool) : Option ThreadId × Machine :=
  match freeEntry fun th => (m.threads th).isSome with
  | none => (none, m)
  | some th =>
    match m.freeSlot .thread with
    | none => (none, m)
    | some k =>
      let made := m.create (.plain .thread k)
      if stack then
        (some th,
          (made.retain (.plain .thread k)).setThread th (some { process := p, object := k }))
      else (none, made.clear (.plain .thread k))

def releaseThread (th : ThreadId) : Machine :=
  match m.threads th with
  | none => m
  | some r =>
    let slept := match r.sleepTimer with
      | some timer => m.releasePlain .timer timer
      | none => m
    (slept.releasePlain .thread r.object).setThread th none

def createThread (stack : Bool) : Reply :=
  match m.allocateThread p stack with
  | (none, t) => ⟨.error .ENOMEM, t⟩
  | (some th, t) =>
    match t.threads th with
    | none => ⟨.error .ENOMEM, t⟩
    | some r =>
      match t.allocateFd p (.plain .thread r.object)
          (accessSynchronize ||| accessQuery) with
      | none => ⟨.error .EBADF, t.releaseThread th⟩
      | some (fd, installed) => ⟨.ok fd, installed⟩

end

def ensureSleepTimer (th : ThreadId) : Machine :=
  match m.threads th with
  | some { process := p, object, sleepTimer := none } =>
    match m.freeSlot .timer with
    | none => m
    | some timer =>
      ((m.create (.plain .timer timer)).retain (.plain .timer timer)).setThread th
        (some { process := p, object, sleepTimer := some timer })
  | _ => m

/-- The slot of a process is zeroed as it is. -/
def zeroProcess (p : Process) (life : Lifecycle) : Machine :=
  { m with
    handles := update m.handles p fun _ => none
    views := update m.views p fun _ => none
    life := update m.life p life }

def allocateProcessSlot : Option (Process × Machine) :=
  match freeEntry fun p => m.life p != .unused with
  | some p => some (p, m.zeroProcess p .alive)
  | none => none

variable (p : Process)

def resetProcessSlot : Machine :=
  m.zeroProcess p .unused

def releaseProcessResources (flush : ViewId → Flush) : Machine :=
  ((List.finRange maxThreads).foldl
    (fun m th =>
      if (m.threads th).any (·.process == p) then m.releaseThread th
      else m)
    m).destroyAddressSpace p flush

def reapProcess (flush : ViewId → Flush) : Machine :=
  ((m.releaseAllHandles p).releaseProcessResources p flush).resetProcessSlot
    p

/-- A child that has no handles yet gives back what it has. -/
def abandonProcess (flush : ViewId → Flush) : Machine :=
  (m.releaseProcessResources p flush).resetProcessSlot p

def clearHandleEntries : Machine :=
  { m with handles := update m.handles p fun _ => none }

def inheritHandle (child : Process) (childFd : Nat) (parent : Process) (parentFd : Nat) :
    Option Machine :=
  match m.entry parent parentFd with
  | none => none
  | some source =>
    if inside : childFd < maxFileHandles then
      some (m.installHandle child ⟨childFd, inside⟩ source.object source.granted)
    else none

/-- Handles of the child from handles of the parent, up to the first that is not
one. -/
def inheritHandles (child parent : Process) : List (Nat × Nat) → Machine → Bool × Machine
  | [], m => (true, m)
  | (childFd, parentFd) :: rest, m =>
    match m.inheritHandle child childFd parent parentFd with
    | some t => inheritHandles child parent rest t
    | none => (false, m)

/-- The entries of the child are overwritten as empty before the parent's are
installed one by one. -/
def inheritAllHandles (child parent : Process) : Machine :=
  (List.finRange maxFileHandles).foldl
    (fun m fd =>
      match m.handles parent fd with
      | some source => m.installHandle child fd source.object source.granted
      | none => m)
    (m.clearHandleEntries child)

/-- The first three handles. -/
def standardFd (i : Fin 3) : Fd :=
  ⟨i, Nat.lt_of_lt_of_le i.isLt (by unfold maxFileHandles; decide)⟩

def installStandard (i : Fin 3) (stream : StreamId) (read write : Bool) : Machine :=
  m.installHandle p (standardFd i) (.stream stream)
    (objectAccessForOpenFlags read write)

def createTtyIoObject (read write : Bool) : Option (StreamId × Machine) :=
  match m.allocateIoObject with
  | some (stream, made) =>
    some (stream, made.setStream stream { kind := .tty, read := read, write := write })
  | none => none

/-- A console stream for each standard handle of the first process. -/
def initializeStandardHandles : Bool × Machine :=
  let empty := m.clearHandleEntries p
  match empty.createTtyIoObject true false with
  | none => (false, empty)
  | some (input, first) =>
    match first.createTtyIoObject false true with
    | none => (false, first.discardIoObject input)
    | some (output, second) =>
      match second.createTtyIoObject false true with
      | none => (false, (second.discardIoObject input).discardIoObject output)
      | some (error, third) =>
        (true, ((third.installStandard p 0 input true false).installStandard p 1
          output false true).installStandard p 2 error false true)

end Machine

/-- What the kernel finds while it makes a process: an address space, a kernel
stack, an image that loads, and how the views unmap if it has to give up. -/
structure Launch where
  space : Bool
  stack : Bool
  image : Bool
  flush : ViewId → Flush

/-- What the kernel finds while it forks: whether the private pages are copied,
and the outcome for each view. -/
structure Copying where
  pages : Bool
  memory : ViewId → Bool
  mapping : ViewId → Mapping
  stack : Bool
  flush : ViewId → Flush

/-- The handles a spawned child gets: the first three only, the caller's whole
table (`SXN_SYS_SPAWN`), or a list of them (`SXN_SYS_SPAWN_EX`). -/
inductive Inheritance
  | stdio
  | all
  | listed (handles : List Nat)

namespace Machine

variable (m : Machine)

/-- A child whose image does not load is taken down again. -/
def loadImage (child : Process) (launch : Launch) : Option Process × Machine :=
  if launch.image then (some child, m)
  else (none, m.reapProcess child launch.flush)

/-- `standard` gives the parent's handles for the child's first three, each one
the parent's own when it is not given. -/
def createProcessInternal (parent : Option Process) (standard : Fin 3 → Option Nat)
    (launch : Launch) : Option Process × Machine :=
  match m.allocateProcessSlot with
  | none => (none, m)
  | some (child, slotted) =>
    if launch.space = false then (none, slotted.resetProcessSlot child)
    else
      match slotted.allocateThread child launch.stack with
      | (none, t) => (none, t.abandonProcess child launch.flush)
      | (some _, t) =>
        match parent with
        | none =>
          match t.initializeStandardHandles child with
          | (true, last) => last.loadImage child launch
          | (false, last) => (none, last.abandonProcess child launch.flush)
        | some parent =>
          match inheritHandles child parent
              [(0, (standard 0).getD 0), (1, (standard 1).getD 1), (2, (standard 2).getD 2)]
              t with
          | (true, last) => last.loadImage child launch
          | (false, last) => (none, last.reapProcess child launch.flush)

def cloneHandlesForSpawn (child parent : Process) : Machine :=
  m.inheritAllHandles child parent

def addSpawnHandles (child parent : Process) (handles : List Nat) (flush : ViewId → Flush) :
    Machine :=
  match inheritHandles child parent (handles.mapIdx fun i handle => (3 + i, handle))
      m with
  | (true, t) => t
  | (false, t) => t.reapProcess child flush

def handleIsOpen (p : Process) (handle : Nat) : Bool :=
  (m.entry p handle).isSome

/-- `SXN_SYS_SPAWN_EX` checks the handles of its request first. -/
def spawnRefused (parent : Process) (inheritance : Inheritance) (standard : Fin 3 → Option Nat) :
    Bool :=
  match inheritance with
  | .listed handles =>
    decide (spawnMaxHandles < handles.length) ||
      !((List.finRange 3).all fun i => (standard i).all (m.handleIsOpen parent)) ||
      !handles.all (m.handleIsOpen parent)
  | _ => false

def spawn (parent : Process) (inheritance : Inheritance) (standard : Fin 3 → Option Nat)
    (launch : Launch) : Machine :=
  if m.spawnRefused parent inheritance standard then m
  else
    match m.createProcessInternal (some parent) standard launch with
    | (none, t) => t
    | (some child, t) =>
      match inheritance with
      | .stdio => t
      | .all => t.cloneHandlesForSpawn child parent
      | .listed handles => t.addSpawnHandles child parent handles launch.flush

def forkProcess (parent : Process) (copying : Copying) : Machine :=
  match m.allocateProcessSlot with
  | none => m
  | some (child, slotted) =>
    if copying.pages = false then
      (slotted.destroyAddressSpace child copying.flush).resetProcessSlot child
    else
      match cloneViews parent child copying.memory copying.mapping (List.finRange maxSectionViews)
          slotted with
      | (false, t) => (t.destroyAddressSpace child copying.flush).resetProcessSlot child
      | (true, t) =>
        match t.allocateThread child copying.stack with
        | (none, last) => last.abandonProcess child copying.flush
        | (some _, last) => last.inheritAllHandles child parent

/-- The handles go with the process; its threads and its address space stay for
the reap. -/
def terminateProcess (p : Process) : Machine :=
  { m.releaseAllHandles p with
    life := update m.life p .zombie }

end Machine

inductive Event
  | createEvent (p : Process)
  | createTimer (p : Process)
  | createSemaphore (p : Process) (initialCount maxCount : Int)
  | createSection (p : Process) (size access : Nat) (memory : Bool)
  | createPort (p : Process) (name : Option (List UInt8))
  | openSection (p : Process) (handle size off length access : Nat) (memory : Bool)
  | openNode (p : Process) (node : Node) (dev read write : Bool)
  | createPipe (p : Process) (buf : Buffer)
  | nativePipeCreate (p : Process) (buf : Buffer)
  | connect (p : Process) (name : Option (List UInt8)) (buf : Buffer)
      (creator : Option Buffer)
  | accept (p : Process) (handle : Nat) (buf : Buffer)
  | duplicate (p : Process) (handle : Nat)
  | duplicateTo (p : Process) (handle target : Nat)
  | close (p : Process) (handle : Nat)
  | sendHandle (p : Process) (pipeHandle handle : Nat)
  | receiveHandle (p : Process) (pipeHandle : Nat)
  | mapView (p : Process) (handle : Nat) (share : Bool) (mapping : Mapping)
  | unmapView (p : Process) (view : ViewId) (flush : Flush)
  | createThread (p : Process) (stack : Bool)
  | spawn (p : Process) (inheritance : Inheritance) (standard : Fin 3 → Option Nat)
      (launch : Launch)
  | fork (p : Process) (copying : Copying)
  | exit (p : Process)
  | reap (p : Process) (flush : ViewId → Flush)
  | start (launch : Launch)
  | sleep (th : ThreadId)
  | retire (th : ThreadId)
  | reclaim (flushed : Nat → Bool)

/-- The process that has to be alive for an event: the one that calls. -/
def Event.caller : Event → Option Process
  | .createEvent p | .createTimer p | .createSemaphore p _ _
  | .createSection p _ _ _ | .createPort p _ | .openSection p _ _ _ _ _ _
  | .openNode p _ _ _ _ | .createPipe p _ | .nativePipeCreate p _
  | .connect p _ _ _ | .accept p _ _ | .duplicate p _ | .duplicateTo p _ _
  | .close p _ | .sendHandle p _ _ | .receiveHandle p _
  | .mapView p _ _ _ | .unmapView p _ _ | .createThread p _
  | .spawn p _ _ _ | .fork p _ | .exit p => some p
  | _ => none

/-- What an event does when its caller is alive. -/
def Event.perform (m : Machine) : Event → Machine
  | .createEvent p => (m.createEventHandle p).machine
  | .createTimer p => (m.createTimerHandle p).machine
  | .createSemaphore p initialCount maxCount =>
    (m.createSemaphoreHandle p initialCount maxCount).machine
  | .createSection p size access memory =>
    (m.createSectionHandle p size access memory).machine
  | .createPort p name => (m.nativePortCreate p name).machine
  | .openSection p handle size off length access memory =>
    (m.openRangeSectionHandle p handle size off length access memory).machine
  | .openNode p node dev read write =>
    (m.openNode p node dev read write).machine
  | .createPipe p buf => (m.createPipe p buf).machine
  | .nativePipeCreate p buf => (m.nativePipeCreate p buf).machine
  | .connect p name buf creator =>
    (m.nativePortConnect p name buf creator).machine
  | .accept p handle buf => (m.nativePortAccept p handle buf).machine
  | .duplicate p handle => (m.duplicate p handle).machine
  | .duplicateTo p handle target => (m.duplicateTo p handle target).machine
  | .close p handle => (m.close p handle).machine
  | .sendHandle p pipeHandle handle =>
    (m.pipeSendHandle p pipeHandle handle).machine
  | .receiveHandle p pipeHandle => (m.pipeReceiveHandle p pipeHandle).machine
  | .mapView p handle share mapping => m.mapViewBaseHandle p handle share mapping
  | .unmapView p view flush => m.unmapSectionView p view flush
  | .createThread p stack => (m.createThread p stack).machine
  | .spawn p inheritance standard launch =>
    m.spawn p inheritance standard launch
  | .fork p copying => m.forkProcess p copying
  | .exit p => m.terminateProcess p
  | .reap p flush =>
    if m.life p = .zombie then m.reapProcess p flush else m
  | .start launch => (m.createProcessInternal none (fun _ => none) launch).2
  | .sleep th => m.ensureSleepTimer th
  | .retire th => m.releaseThread th
  | .reclaim flushed => m.reclaimDeferredViews flushed

def Machine.step (m : Machine) (event : Event) : Machine :=
  match event.caller with
  | some p => if m.life p = .alive then event.perform m else m
  | none => event.perform m

def Machine.run (m : Machine) (events : List Event) : Machine :=
  events.foldl Machine.step m

end SavanXP.Objects
