import SavanXP.Process.ChannelAccounts

/-!
# The pipes over a whole run

Every call keeps the books of the pipes, apart from the POSIX pipe call when it
finds a pipe but not two streams, or exactly one free handle entry.
-/

namespace SavanXP.Objects

open Library Function

namespace Machine

variable {m t : Machine}

namespace Plumbed

variable {p : Process} {fd : Fd}

/-! ## The other calls -/

section

variable (ok : m.Plumbed)
include ok

theorem createHandle (kind : Kind) (p : Process) (granted : Nat) :
    (m.createHandle kind p granted).machine.Plumbed := by
  unfold Machine.createHandle
  split
  · exact ok
  rename_i k _
  have made := ok.create_plain kind k
  split
  · exact made.releasePlain kind k
  next fd installed found =>
    exact made.allocateFd found

variable (p : Process)

theorem openRangeSectionHandle (handle size offset length access : Nat) (memory : Bool) :
    (m.openRangeSectionHandle p handle size offset length access memory).machine.Plumbed := by
  unfold Machine.openRangeSectionHandle
  split
  · exact ok
  split
  · exact ok
  split
  · exact ok
  rename_i k t acquired
  have found : t.Plumbed := by
    unfold acquireFileRangeSection at acquired
    simp only at acquired
    split at acquired
    · cases acquired
    split at acquired
    · cases acquired
      exact ok
    split at acquired
    · cases acquired
    · cases acquired
      exact ok.create_plain .section k
  unfold installSection
  split
  · exact found.releasePlain .section k
  next fd installed e =>
    exact found.allocateFd e

theorem openNode (node : Node) (dev read write : Bool) :
    (m.openNode p node dev read write).machine.Plumbed := by
  have onNode : ∀ dev : Bool, Stream.pipe
      { kind := if dev then .device node else .vnode node, read := read, write := write } =
        none := by
    intro dev
    cases dev <;> rfl
  unfold Machine.openNode openStream
  split
  · exact ok
  rename_i str made found
  have opened := ok.newStream found (onNode dev)
  simp only
  split
  · apply opened.discard
    show (update made.streams str _ str).pipe = none
    rw [update_self]
    exact onNode dev
  next fd installed e =>
    exact opened.allocateFd e

theorem duplicate (handle : Nat) : (m.duplicate p handle).machine.Plumbed := by
  unfold Machine.duplicate
  split
  · split
    · exact ok
    next fd installed found =>
      exact ok.allocateFd found
  · exact ok

theorem duplicateTo (handle target : Nat) : (m.duplicateTo p handle target).machine.Plumbed := by
  unfold Machine.duplicateTo
  split
  · split
    · split
      · exact ok
      · exact ok.installHandle ..
    · exact ok
  · exact ok

theorem close (handle : Nat) : (m.close p handle).machine.Plumbed := by
  unfold Machine.close
  split
  · split
    · exact ok.closeEntry p _
    · exact ok
  · exact ok

/-- Only the queue of a pipe changes. -/
theorem setQueue (pipe : PipeId) (queue : List Passed) :
    (m.setPipe pipe { m.pipes pipe with handles := queue }).Plumbed :=
  Plumbing.requeue ok (update_keeps Pipe.inUse rfl) fun other reads =>
    update_keeps (Pipe.refs · reads) (by rfl) other

theorem pipeSendHandle (pipeHandle handle : Nat) :
    (m.pipeSendHandle p pipeHandle handle).machine.Plumbed := by
  unfold Machine.pipeSendHandle
  split
  next pipe e _ _ =>
    split
    next kind k _ =>
      split
      · exact ok
      split
      · exact ok
      · exact (ok.retain (.plain kind k)).setQueue pipe _
    · exact ok
  · exact ok

theorem pipeReceiveHandle (pipeHandle : Nat) :
    (m.pipeReceiveHandle p pipeHandle).machine.Plumbed := by
  unfold Machine.pipeReceiveHandle
  split
  next pipe _ =>
    split
    · exact ok
    rename_i passed rest _
    split
    · exact ok
    next fd installed found =>
      exact ((ok.allocateFd found).setQueue pipe rest).releasePlain passed.kind passed.slot
  · exact ok

theorem releaseAfterShootdown (k : Nat) (waits : Bool) :
    (m.releaseAfterShootdown k waits).Plumbed := by
  unfold Machine.releaseAfterShootdown
  split
  · exact ok
  · exact ok.releasePlain .section k

theorem releaseTimes (k n : Nat) : (releaseTimes k n m).Plumbed := by
  induction n generalizing m with
  | zero => exact ok
  | succ n ih => exact ih (ok.releasePlain .section k)

theorem reclaimDeferredViews (flushed : Nat → Bool) : (m.reclaimDeferredViews flushed).Plumbed := by
  apply fold _ ok
  intro old k kept
  split
  · have cleared : (old.setDeferred k 0).Plumbed := kept
    exact cleared.releaseTimes k _
  · exact kept

theorem mapSectionView (k : Nat) (share : Bool)
    (mapping : Mapping) : (m.mapSectionView p k share mapping).2.Plumbed := by
  unfold Machine.mapSectionView
  split
  · exact ok
  split
  · exact ok
  · split
    · exact ok
    · exact (ok.retain _).releaseAfterShootdown k _
  · split
    · exact ok
    · exact ok.retain (.plain .section k)

theorem mapViewBaseHandle (handle : Nat) (share : Bool) (mapping : Mapping) :
    (m.mapViewBaseHandle p handle share mapping).Plumbed := by
  unfold Machine.mapViewBaseHandle
  split
  · exact ok.mapSectionView ..
  · exact ok

theorem unmapSectionView (view : ViewId)
    (flush : Flush) : (m.unmapSectionView p view flush).Plumbed := by
  unfold Machine.unmapSectionView
  split
  · exact ok
  rename_i r _
  have released := (ok.reclaimDeferredViews flush.flushed).releaseAfterShootdown r.slot
    flush.waits
  exact released

theorem destroyAddressSpace (flush : ViewId → Flush) : (m.destroyAddressSpace p flush).Plumbed :=
  fold (fun _ view old => old.unmapSectionView p view (flush view)) ok _

theorem cloneView (child : Process) (r : View) (memory : Bool)
    (mapping : Mapping) : (m.cloneView child r memory mapping).2.Plumbed := by
  unfold Machine.cloneView
  split
  · exact ok.mapSectionView ..
  split
  · exact ok
  rename_i copy made cloned
  have fresh : made.Plumbed := by
    unfold cloneSection at cloned
    split at cloned
    · cases cloned
    split at cloned
    · cases cloned
    · cases cloned
      exact ok.create_plain .section copy
  exact (fresh.mapSectionView child copy false mapping).releasePlain .section copy

theorem cloneViews (parent child : Process) (memory : ViewId → Bool)
    (mapping : ViewId → Mapping) (views : List ViewId) :
    (cloneViews parent child memory mapping views m).2.Plumbed := by
  induction views generalizing m with
  | nil => exact ok
  | cons view rest ih =>
    unfold cloneViews
    split
    · exact ih ok
    rename_i r _
    have cloned := ok.cloneView child r (memory view) (mapping view)
    split <;> rename_i result <;> rw [result] at cloned
    · exact ih cloned
    · exact cloned

theorem allocateThread (stack : Bool) : (m.allocateThread p stack).2.Plumbed := by
  unfold Machine.allocateThread
  split
  · exact ok
  split
  · exact ok
  rename_i k _
  have made := ok.create_plain .thread k
  split
  · exact made.retain (.plain .thread k)
  · exact made.clear_plain .thread k

theorem releaseThread (th : ThreadId) : (m.releaseThread th).Plumbed := by
  unfold Machine.releaseThread
  split
  · exact ok
  split
  · exact (ok.releasePlain ..).releasePlain ..
  · exact ok.releasePlain ..

theorem createThread (stack : Bool) : (m.createThread p stack).machine.Plumbed := by
  unfold Machine.createThread
  have alloc := ok.allocateThread p stack
  split <;> rename_i result <;> rw [result] at alloc
  · exact alloc
  split
  · exact alloc
  split
  · exact releaseThread alloc _
  next fd installed found =>
    exact allocateFd alloc found

theorem ensureSleepTimer (th : ThreadId) : (m.ensureSleepTimer th).Plumbed := by
  unfold Machine.ensureSleepTimer
  split
  · split
    · exact ok
    next timer _ =>
      exact (ok.create_plain .timer timer).retain (.plain .timer timer)
  · exact ok

theorem releaseProcessResources
    (flush : ViewId → Flush) : (m.releaseProcessResources p flush).Plumbed := by
  apply destroyAddressSpace
  apply fold _ ok
  intro old th kept
  split
  · exact kept.releaseThread th
  · exact kept

theorem reapProcess (flush : ViewId → Flush) : (m.reapProcess p flush).Plumbed :=
  (ok.releaseAllHandles p).releaseProcessResources p flush

theorem abandonProcess (flush : ViewId → Flush) : (m.abandonProcess p flush).Plumbed :=
  ok.releaseProcessResources p flush

theorem inheritHandles (child parent : Process)
    (pairs : List (Nat × Nat)) : (inheritHandles child parent pairs m).2.Plumbed := by
  induction pairs generalizing m with
  | nil => exact ok
  | cons pair rest ih =>
    unfold inheritHandles
    split
    next t inherited =>
      apply ih
      unfold inheritHandle at inherited
      split at inherited
      · cases inherited
      split at inherited
      · cases inherited
        exact ok.installHandle ..
      · cases inherited
    · exact ok

theorem inheritAllHandles (child parent : Process) :
    (m.inheritAllHandles child parent).Plumbed := by
  have emptied : (m.clearHandleEntries child).Plumbed := ok
  apply fold _ emptied
  intro old fd kept
  split
  · exact kept.installHandle ..
  · exact kept

/-- A new console stream. -/
theorem createTtyIoObject {read write : Bool} {str : StreamId}
    (made : m.createTtyIoObject read write = some (str, t)) :
    t.Plumbed ∧ (t.streams str).pipe = none ∧
      ∀ other, (m.streams other).pipe = none → (t.streams other).pipe = none := by
  unfold Machine.createTtyIoObject at made
  split at made
  next k created found =>
    cases made
    have r : ((created.setStream str
        { kind := .tty, read := read, write := write }).streams str) =
          { kind := .tty, read := read, write := write } := update_self ..
    refine ⟨ok.newStream found rfl, ?_, ?_⟩
    · rw [r]
      rfl
    intro other none
    by_cases eq : other = str
    · rw [eq, r]
      rfl
    obtain ⟨_, rfl⟩ := allocateIoObject_some found
    have same : (((m.create (.stream str)).setStream str
        { kind := .tty, read := read, write := write }).streams other) = m.streams other := by
      show update (update m.streams str {}) str _ other = _
      rw [update_of_ne eq, update_of_ne eq]
    rw [same]
    exact none
  · cases made

theorem initializeStandardHandles : (m.initializeStandardHandles p).2.Plumbed := by
  have emptied : (m.clearHandleEntries p).Plumbed := ok
  unfold Machine.initializeStandardHandles
  simp only
  split
  · exact emptied
  rename_i input first firstMade
  obtain ⟨one, inputFirst, _⟩ := emptied.createTtyIoObject firstMade
  split
  · exact one.discard inputFirst
  rename_i output second secondMade
  obtain ⟨two, outputSecond, still⟩ := one.createTtyIoObject secondMade
  split
  · apply (two.discard (still input inputFirst)).discard
    by_cases eq : output = input
    · have blank : (second.discardIoObject input).streams input = {} := update_self ..
      rw [eq, blank]
      rfl
    · have same : (second.discardIoObject input).streams output = second.streams output :=
        update_of_ne eq ..
      rw [same]
      exact outputSecond
  next error third thirdMade =>
    obtain ⟨three, _, _⟩ := two.createTtyIoObject thirdMade
    exact ((three.installHandle p _ _ _).installHandle p _ _ _).installHandle p _ _ _

theorem loadImage (child : Process) (launch : Launch) : (m.loadImage child launch).2.Plumbed := by
  unfold Machine.loadImage
  split
  · exact ok
  · exact ok.reapProcess ..

theorem createProcessInternal (parent : Option Process)
    (standard : Fin 3 → Option Nat) (launch : Launch) :
    (m.createProcessInternal parent standard launch).2.Plumbed := by
  unfold Machine.createProcessInternal
  split
  · exact ok
  rename_i child slotted alloc
  have zeroed : slotted.Plumbed := by
    unfold allocateProcessSlot at alloc
    split at alloc
    · cases alloc
      exact ok
    · cases alloc
  split
  · exact zeroed
  have threaded := zeroed.allocateThread child launch.stack
  split <;> rename_i result <;> rw [result] at threaded
  · exact abandonProcess threaded ..
  split
  · have given := initializeStandardHandles threaded child
    split <;> rename_i result <;> rw [result] at given
    · exact loadImage given ..
    · exact abandonProcess given ..
  next parent =>
    have given := inheritHandles threaded child parent
      [(0, (standard 0).getD 0), (1, (standard 1).getD 1), (2, (standard 2).getD 2)]
    split <;> rename_i result <;> rw [result] at given
    · exact loadImage given ..
    · exact reapProcess given ..

theorem spawn (parent : Process) (inheritance : Inheritance)
    (standard : Fin 3 → Option Nat) (launch : Launch) :
    (m.spawn parent inheritance standard launch).Plumbed := by
  unfold Machine.spawn
  split
  · exact ok
  have created := ok.createProcessInternal (some parent) standard launch
  split <;> rename_i result <;> rw [result] at created
  · exact created
  rename_i child _
  split
  · exact created
  · exact inheritAllHandles created ..
  rename_i handles _
  unfold addSpawnHandles
  have given := inheritHandles created child parent
    (handles.mapIdx fun i handle => (3 + i, handle))
  split <;> rename_i result <;> rw [result] at given
  · exact given
  · exact reapProcess given ..

theorem forkProcess (parent : Process) (copying : Copying) :
    (m.forkProcess parent copying).Plumbed := by
  unfold Machine.forkProcess
  split
  · exact ok
  rename_i child slotted alloc
  have zeroed : slotted.Plumbed := by
    unfold allocateProcessSlot at alloc
    split at alloc
    · cases alloc
      exact ok
    · cases alloc
  split
  · exact zeroed.destroyAddressSpace child copying.flush
  have cloned := zeroed.cloneViews parent child copying.memory copying.mapping
    (List.finRange maxSectionViews)
  split <;> rename_i result <;> rw [result] at cloned
  · exact destroyAddressSpace cloned child copying.flush
  have threaded := allocateThread cloned child copying.stack
  split <;> rename_i result <;> rw [result] at threaded
  · exact abandonProcess threaded ..
  · exact inheritAllHandles threaded ..

end

end Plumbed

end Machine

variable {m : Machine}

/-! ## Runs -/

/-- The POSIX pipe call finds what it needs, or no pipe at all. -/
def FindsPipe (m : Machine) : Event → Prop
  | .createPipe p buf => m.PipeRoom p buf
  | _ => True

/-- A connection that is taken off a queue can be handed over. -/
def HandsOver (m : Machine) : Event → Prop
  | .accept p handle buf => m.AcceptRoom p handle buf
  | _ => True

/-- Every step of the run finds its pipe in the machine it meets. -/
def FindsPipes : Machine → List Event → Prop
  | _, [] => True
  | m, event :: rest => FindsPipe m event ∧ FindsPipes (m.step event) rest

theorem Machine.Plumbed.perform (ok : m.Plumbed) {event : Event}
    (finds : FindsPipe m event) : (event.perform m).Plumbed := by
  cases event with
  | createEvent | createTimer => exact ok.createHandle ..
  | createSemaphore p initialCount maxCount =>
    show (m.createSemaphoreHandle p initialCount maxCount).machine.Plumbed
    unfold createSemaphoreHandle
    split
    · exact ok
    · exact ok.createHandle ..
  | createSection p size access memory =>
    show (m.createSectionHandle p size access memory).machine.Plumbed
    unfold createSectionHandle
    split
    · exact ok
    split
    · exact ok
    · exact ok.createHandle ..
  | createPort => exact ok.nativePortCreate ..
  | openSection => exact ok.openRangeSectionHandle ..
  | openNode => exact ok.openNode ..
  | createPipe => exact ok.createPipe finds
  | nativePipeCreate => exact ok.nativePipeCreate ..
  | connect => exact ok.nativePortConnect ..
  | accept => exact ok.nativePortAccept ..
  | duplicate => exact ok.duplicate ..
  | duplicateTo => exact ok.duplicateTo ..
  | close => exact ok.close ..
  | sendHandle => exact ok.pipeSendHandle ..
  | receiveHandle => exact ok.pipeReceiveHandle ..
  | mapView => exact ok.mapViewBaseHandle ..
  | unmapView => exact ok.unmapSectionView ..
  | createThread => exact ok.createThread ..
  | spawn => exact ok.spawn ..
  | fork => exact ok.forkProcess ..
  | exit p => exact ok.releaseAllHandles p
  | reap p flush =>
    show (if m.life p = .zombie then m.reapProcess p flush
      else m).Plumbed
    split
    · exact ok.reapProcess ..
    · exact ok
  | start => exact ok.createProcessInternal ..
  | sleep => exact ok.ensureSleepTimer ..
  | retire => exact ok.releaseThread ..
  | reclaim => exact ok.reclaimDeferredViews ..

theorem Machine.Plumbed.step (ok : m.Plumbed) {event : Event}
    (finds : FindsPipe m event) : (m.step event).Plumbed := by
  unfold Machine.step
  split
  · split
    · exact ok.perform finds
    · exact ok
  · exact ok.perform finds

theorem Machine.Plumbed.run (ok : m.Plumbed) {events : List Event}
    (finds : FindsPipes m events) : (m.run events).Plumbed := by
  induction events generalizing m with
  | nil => exact ok
  | cons event rest ih => exact ih (ok.step finds.1) finds.2

theorem booted_plumbed : Machine.booted.Plumbed := by
  have unread : ∀ pipe reads, (Machine.booted.pipes pipe).refs reads = 0 := by
    intro pipe reads
    cases reads <;> rfl
  refine ⟨fun _ _ => rfl, fun pipe reads => ?_, fun pipe => ?_, fun _ => Plumbing.directed_none rfl⟩
  · rw [unread]
    exact (Finset.sum_eq_zero fun _ _ => Plumbing.adds_none rfl).symm
  refine iff_of_false Bool.false_ne_true ?_
  rintro ⟨reads, pos⟩
  rw [unread] at pos
  exact Nat.lt_irrefl 0 pos

/-! ## What the books say -/

/-- A stream in use that refers to a pipe. -/
def Machine.OnPipe (m : Machine) (pipe : PipeId) (str : StreamId) : Prop :=
  m.inUse (.stream str) = true ∧ (m.streams str).pipe = some pipe

instance (m : Machine) (pipe : PipeId) (str : StreamId) :
    Decidable (m.OnPipe pipe str) :=
  inferInstanceAs (Decidable (_ ∧ _))

namespace Machine.Plumbed

theorem onPipe (ok : m.Plumbed) {pipe : PipeId} {str : StreamId} :
    m.OnPipe pipe str ↔ (m.streams str).pipe = some pipe := by
  refine ⟨fun own => own.2, fun here => ⟨?_, here⟩⟩
  cases used : m.inUse (.stream str) with
  | true => rfl
  | false =>
    rw [ok.idle str used] at here
    cases here

/-- A count of a pipe is the number of the streams in use on it with that direction. -/
theorem refs_card (ok : m.Plumbed) (pipe : PipeId) (reads : Bool) :
    (m.pipes pipe).refs reads = (Finset.univ.filter fun str =>
      m.OnPipe pipe str ∧ (m.streams str).toward reads = true).card := by
  rw [ok.refs pipe, Finset.card_filter]
  apply Finset.sum_congr rfl
  intro str _
  by_cases here : (m.streams str).pipe = some pipe
  · have own := ok.onPipe.mpr here
    rw [Stream.adds, if_pos here]
    cases (m.streams str).toward reads <;> simp [own]
  · have off : ¬ m.OnPipe pipe str := fun own => here own.2
    simp [Stream.adds, here, off]

theorem inUse_iff (ok : m.Plumbed) (pipe : PipeId) :
    (m.pipes pipe).inUse = true ↔ ∃ str, m.OnPipe pipe str := by
  constructor
  · intro used
    obtain ⟨reads, pos⟩ := (ok.inUse pipe).mp used
    rw [ok.refs_card, Finset.card_pos] at pos
    obtain ⟨str, found⟩ := pos
    exact ⟨str, (Finset.mem_filter.mp found).2.1⟩
  · rintro ⟨str, _, here⟩
    exact Plumbing.on_pipe ok here

end Machine.Plumbed

/-- What a channel call replies. -/
def Event.channelReply (m : Machine) : Event → Option Reply
  | .createPipe p buf => some (m.createPipe p buf)
  | .nativePipeCreate p buf => some (m.nativePipeCreate p buf)
  | .connect p name buf creator =>
    some (m.nativePortConnect p name buf creator)
  | .accept p handle buf => some (m.nativePortAccept p handle buf)
  | _ => none

/-- In every state a channel call leaves nothing behind when it fails if and only if it finds
its pipe and hands over what it takes off a queue; and after every run whose pipe
calls find their pipes, a pipe is in use exactly when a stream in use refers to
it, and its counts are the numbers of reading and writing streams that do. -/
theorem failed_channel_calls_leave_nothing_behind (machine : Machine) (event : Event)
    (events : List Event) :
    (∀ reply, event.channelReply machine = some reply →
      ((∀ errno, reply.result = .error errno → Unchanged machine reply.machine) ↔
        FindsPipe machine event ∧ HandsOver machine event)) ∧
    (FindsPipes Machine.booted events → let machine := Machine.booted.run events
      ∀ pipe, ((machine.pipes pipe).inUse = true ↔ ∃ stream, machine.OnPipe pipe stream) ∧
        (machine.pipes pipe).readerRefs = (Finset.univ.filter fun stream =>
          machine.OnPipe pipe stream ∧ (machine.streams stream).read = true).card ∧
        (machine.pipes pipe).writerRefs = (Finset.univ.filter fun stream =>
          machine.OnPipe pipe stream ∧ (machine.streams stream).write = true).card) := by
  constructor
  · intro reply replied
    cases event with
    | createPipe process buffer =>
      cases replied
      refine ⟨fun kept => ⟨?_, trivial⟩, fun room errno => createPipe_failed room.1⟩
      by_contra none
      obtain ⟨⟨errno, failed⟩, changed⟩ := createPipe_leaves none
      exact changed (kept errno failed)
    | nativePipeCreate process buffer =>
      cases replied
      exact iff_of_true (fun errno => nativePipeCreate_failed) ⟨trivial, trivial⟩
    | connect process name buffer creator =>
      cases replied
      exact iff_of_true (fun errno => nativePortConnect_failed) ⟨trivial, trivial⟩
    | accept process handle buffer =>
      cases replied
      refine ⟨fun kept => ⟨trivial, ?_⟩, fun room errno => nativePortAccept_failed room.2⟩
      by_contra none
      obtain ⟨⟨errno, failed⟩, changed⟩ := nativePortAccept_loses none
      exact changed (kept errno failed)
    | _ => cases replied
  · intro finds machine pipe
    have plumbed : machine.Plumbed := booted_plumbed.run finds
    exact ⟨plumbed.inUse_iff pipe, plumbed.refs_card pipe true, plumbed.refs_card pipe false⟩

/-- A launch during which the kernel finds everything it needs. -/
def calmLaunch : Launch :=
  { space := true, stack := true, image := true, flush := fun _ => ⟨fun _ => false, false⟩ }

def firstProcess : Process := ⟨0, by unfold maxProcesses; decide⟩
def firstPipe : PipeId := ⟨0, by unfold maxPipeCount; decide⟩
def firstPort : PortId := ⟨0, by unfold maxPortObjects; decide⟩

/-- A process makes a pipe and closes its reading end. -/
def readerClosed : List Event :=
  [.start calmLaunch, .createPipe firstProcess ⟨true, true⟩, .close firstProcess 3]

theorem failed_channel_calls_leave_nothing_behind_one_pipe :
    (FindsPipe (Machine.booted.run [.start calmLaunch]) (.createPipe firstProcess ⟨true, false⟩) ∧
      ((Machine.booted.run [.start calmLaunch]).createPipe firstProcess ⟨true, false⟩).result =
        .error .EINVAL ∧
      Unchanged (Machine.booted.run [.start calmLaunch])
        ((Machine.booted.run [.start calmLaunch]).createPipe firstProcess ⟨true, false⟩).machine) ∧
    FindsPipes Machine.booted readerClosed ∧
    ((Machine.booted.run readerClosed).pipes firstPipe).writerRefs = 1 ∧
    ∃ stream, (Machine.booted.run readerClosed).OnPipe firstPipe stream := by
  have room : ∀ buffer, (Machine.booted.run [.start calmLaunch]).PipeRoom firstProcess buffer := by
    intro buffer _ _
    decide +kernel
  have failed : ((Machine.booted.run [.start calmLaunch]).createPipe firstProcess
      ⟨true, false⟩).result = .error .EINVAL := by
    decide +kernel
  have finds : FindsPipes Machine.booted readerClosed := ⟨trivial, room _, trivial, trivial⟩
  have used : ((Machine.booted.run readerClosed).pipes firstPipe).inUse = true := by
    decide +kernel
  refine ⟨⟨room _, failed, ?_⟩, finds, ?_, ?_⟩
  · have first := (failed_channel_calls_leave_nothing_behind
      (Machine.booted.run [.start calmLaunch])
      (.createPipe firstProcess ⟨true, false⟩) []).1 _ rfl
    exact first.mpr ⟨room _, trivial⟩ .EINVAL failed
  · decide +kernel
  · exact (((failed_channel_calls_leave_nothing_behind Machine.booted (.start calmLaunch)
      readerClosed).2 finds firstPipe).1).mp used

/-- All handle entries of the first process but one are taken. -/
def oneEntryLeft : List Event :=
  .start calmLaunch :: List.replicate 60 (.duplicate firstProcess 0)

/-- A process connects to its own port and then fills its handle table. -/
def tableFull : List Event :=
  [.start calmLaunch, .createPort firstProcess (some [112]),
    .connect firstProcess (some [112]) ⟨true, true⟩ none] ++
  List.replicate 58 (.duplicate firstProcess 0)

/-- With one free entry the POSIX pipe call fails and leaves a pipe in use that no
stream refers to; with none the acceptance fails and the pending connection is
gone. -/
theorem pipe_and_connection_left_behind :
    (((Machine.booted.run oneEntryLeft).createPipe firstProcess ⟨true, true⟩).result =
        .error .EBADF ∧
      ((Machine.booted.run oneEntryLeft).pipes firstPipe).inUse = false ∧
      (((Machine.booted.run oneEntryLeft).createPipe firstProcess ⟨true, true⟩).machine.pipes
        firstPipe).inUse = true ∧
      ∀ stream, ¬ ((Machine.booted.run oneEntryLeft).createPipe firstProcess
        ⟨true, true⟩).machine.OnPipe firstPipe stream) ∧
    (((Machine.booted.run tableFull).nativePortAccept firstProcess 3 ⟨true, true⟩).result =
        .error .EBADF ∧
      ((Machine.booted.run tableFull).ports firstPort).pending.length = 1 ∧
      ((((Machine.booted.run tableFull).nativePortAccept firstProcess 3 ⟨true, true⟩).machine).ports
        firstPort).pending.length = 0) := by
  constructor
  · decide +kernel
  · decide +kernel

end SavanXP.Objects
