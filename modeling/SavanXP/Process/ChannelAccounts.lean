import SavanXP.Process.ObjectCalls
import SavanXP.Process.ChannelFailures

/-!
# Pipes and the streams that refer to them

The reader and writer counts of a pipe live apart from the reference counts of
the objects.  Along every run in which the POSIX pipe call finds what it needs, a
pipe is in use exactly when a stream refers to it, and its counts are the numbers
of reading and of writing streams that do.
-/

namespace SavanXP.Objects

open Library Function Machine

/-! ## The books of the pipes -/

/-- Whether a stream reads, or whether it writes. -/
def Stream.toward (r : Stream) (reads : Bool) : Bool :=
  if reads then r.read else r.write

/-- The readers of a pipe, or its writers. -/
def Pipe.refs (r : Pipe) (reads : Bool) : Nat :=
  if reads then r.readerRefs else r.writerRefs

/-- What a stream adds to a count of a pipe. -/
def Stream.adds (pipe : PipeId) (reads : Bool) (r : Stream) : Nat :=
  if r.pipe = some pipe then (r.toward reads).toNat else 0

/-- A stream on a pipe has a direction. -/
def Stream.Directed (r : Stream) : Prop :=
  r.pipe ≠ none → ∃ reads, r.toward reads = true

/-- The tables of the streams and the pipes agree: unused streams are zeroed, the
counts of each pipe are those of its streams, and a pipe without ends is free. -/
structure Plumbing (used : StreamId → Bool) (streams : StreamId → Stream) (pipes : PipeId → Pipe) :
    Prop where
  idle : ∀ str, used str = false → streams str = {}
  refs : ∀ pipe reads, (pipes pipe).refs reads = ∑ str, (streams str).adds pipe reads
  inUse : ∀ pipe, (pipes pipe).inUse = true ↔ ∃ reads, 0 < (pipes pipe).refs reads
  directed : ∀ str, (streams str).Directed

variable {r : Stream}

namespace Plumbing

variable {used : StreamId → Bool} {streams : StreamId → Stream} {pipes after : PipeId → Pipe}
  {str : StreamId} {pipe : PipeId} {reads : Bool}

section

variable (plumbing : Plumbing used streams pipes)
include plumbing

/-- The queues of the pipes do not matter. -/
theorem requeue (inUse : ∀ pipe, (after pipe).inUse = (pipes pipe).inUse)
    (refs : ∀ pipe reads, (after pipe).refs reads = (pipes pipe).refs reads) :
    Plumbing used streams after where
  idle := plumbing.idle
  refs pipe reads := (refs pipe reads).trans (plumbing.refs pipe reads)
  inUse pipe := by simp only [inUse, refs, plumbing.inUse]
  directed := plumbing.directed

/-- A pipe that is not in use has no ends. -/
theorem unused (free : (pipes pipe).inUse = false)
    (reads : Bool) : (pipes pipe).refs reads = 0 := by
  by_contra some
  have used := (plumbing.inUse pipe).mpr ⟨reads, Nat.pos_of_ne_zero some⟩
  rw [free] at used
  cases used

/-- A free pipe may be zeroed. -/
theorem zero (free : (pipes pipe).inUse = false) :
    Plumbing used streams (update pipes pipe {}) := by
  refine plumbing.requeue (update_keeps Pipe.inUse free.symm) fun other reads => ?_
  refine update_keeps (Pipe.refs · reads) ?_ other
  rw [plumbing.unused free]
  cases reads <;> rfl

/-- One stream is replaced, and the counts of the pipes follow. -/
theorem replace {now : Bool} (zeroed : now = false → r = {}) (directed : r.Directed)
    (refs : ∀ pipe reads, (after pipe).refs reads + (streams str).adds pipe reads =
      (pipes pipe).refs reads + r.adds pipe reads)
    (inUse : ∀ pipe, (after pipe).inUse = true ↔ ∃ reads, 0 < (after pipe).refs reads) :
    Plumbing (update used str now) (update streams str r) after := by
  refine ⟨fun other unused => ?_, fun pipe reads => ?_, inUse,
    (forall_update_iff _ fun _ => Stream.Directed).mpr ⟨directed, fun o _ => plumbing.directed o⟩⟩
  · by_cases eq : other = str
    · rw [eq, update_self] at unused ⊢
      exact zeroed unused
    · rw [update_of_ne eq] at unused ⊢
      exact plumbing.idle other unused
  · have total := sum_update streams str r (Stream.adds pipe reads)
    have old := plumbing.refs pipe reads
    have now := refs pipe reads
    omega

end

theorem adds_none (none : r.pipe = none) : r.adds pipe reads = 0 := by
  simp [Stream.adds, none]

theorem directed_none (none : r.pipe = none) : r.Directed := fun some => absurd none some

/-- A stream that is on no pipe is replaced by another. -/
theorem other (plumbing : Plumbing used streams pipes) {now : Bool}
    (old : (streams str).pipe = none) (none : r.pipe = none) (zeroed : now = false → r = {}) :
    Plumbing (update used str now) (update streams str r) pipes := by
  apply plumbing.replace zeroed (directed_none none) _ plumbing.inUse
  intro pipe reads
  rw [adds_none old, adds_none none]

theorem idle_pipe (plumbing : Plumbing used streams pipes) (free : used str = false) :
    (streams str).pipe = none := by
  rw [plumbing.idle str free]
  rfl

theorem endRecord_adds (side : Bool) (other : PipeId) :
    (endRecord pipe side).adds other reads = if other = pipe ∧ reads = side then 1 else 0 := by
  by_cases eq : pipe = other
  · subst eq
    cases side <;> cases reads <;> simp [Stream.adds, Stream.pipe, Stream.toward, endRecord]
  · simp [Stream.adds, Stream.pipe, endRecord, eq, Ne.symm eq]

theorem endRecord_directed (side : Bool) : (endRecord pipe side).Directed := by
  intro _
  refine ⟨side, ?_⟩
  cases side <;> rfl

section

variable (plumbing : Plumbing used streams pipes)
include plumbing

/-- One end is put on a pipe. -/
theorem connect (free : used str = false) (side : Bool) {r : Pipe} (inUse : r.inUse = true)
    (refs : ∀ reads, r.refs reads = (pipes pipe).refs reads + if reads = side then 1 else 0) :
    Plumbing (update used str true)
      (update streams str (endRecord pipe side)) (update pipes pipe r) := by
  have awake : true = false → endRecord pipe side = {} := nofun
  apply plumbing.replace awake (endRecord_directed side)
  · intro other reads
    rw [adds_none (plumbing.idle_pipe free), endRecord_adds]
    by_cases eq : other = pipe
    · subst eq
      simp [refs]
    · simp [eq]
  · intro other
    by_cases eq : other = pipe
    · rw [eq, update_self]
      exact iff_of_true inUse ⟨side, by simp [refs]⟩
    · rw [update_of_ne eq]
      exact plumbing.inUse other

section

variable (here : (streams str).pipe = some pipe)
include here

/-- A stream on a pipe counts for it. -/
theorem counted (reads : Bool) : ((streams str).toward reads).toNat ≤ (pipes pipe).refs reads := by
  rw [plumbing.refs]
  have adds : (streams str).adds pipe reads = ((streams str).toward reads).toNat := if_pos here
  rw [← adds]
  exact Finset.single_le_sum (f := fun str => (streams str).adds pipe reads)
    (fun _ _ => Nat.zero_le _) (Finset.mem_univ str)

/-- A pipe with a stream on it is in use. -/
theorem on_pipe : (pipes pipe).inUse = true := by
  obtain ⟨reads, directed⟩ := plumbing.directed str (by rw [here]; exact nofun)
  have bound := plumbing.counted here reads
  rw [directed] at bound
  exact (plumbing.inUse pipe).mpr ⟨reads, bound⟩

/-- A stream goes, and its pipe counts one end less. -/
theorem disconnect (elsewhere : ∀ other ≠ pipe, after other = pipes other)
    (refs : ∀ reads, (after pipe).refs reads =
      (pipes pipe).refs reads - ((streams str).toward reads).toNat)
    (inUse : (after pipe).inUse = true ↔ ∃ reads, 0 < (after pipe).refs reads) :
    Plumbing (update used str false) (update streams str {}) after := by
  apply plumbing.replace (fun _ => rfl) (directed_none rfl)
  · intro other reads
    have blank : Stream.adds other reads {} = 0 := adds_none rfl
    by_cases eq : other = pipe
    · subst eq
      have bound := plumbing.counted here reads
      rw [blank, refs, Stream.adds, if_pos here]
      omega
    · have away : (streams str).pipe ≠ some other := by
        rw [here]
        exact fun same => eq (Option.some.inj same).symm
      rw [blank, elsewhere other eq, Stream.adds, if_neg away]
  · intro other
    by_cases eq : other = pipe
    · rw [eq]
      exact inUse
    · rw [elsewhere other eq]
      exact plumbing.inUse other

end

end

end Plumbing

/-! ## Releases -/

/-- The tables of a machine agree. -/
def Machine.Plumbed (m : Machine) : Prop :=
  Plumbing m.openStreams m.streams m.pipes

/-- The streams are as before. -/
structure Machine.KeepsStreams (m t : Machine) : Prop where
  used : t.openStreams = m.openStreams
  streams : t.streams = m.streams

namespace Machine

variable {m t : Machine}

theorem Plumbed.keep (ok : m.Plumbed) (keeps : m.KeepsStreams t)
    (pipes : t.pipes = m.pipes) : t.Plumbed := by
  unfold Plumbed
  rw [keeps.used, keeps.streams, pipes]
  exact ok

theorem setHeader_keepsStreams {ref : Ref} {hdr : Header} (same : hdr.inUse = m.inUse ref) :
    m.KeepsStreams (m.setHeader ref hdr) := by
  refine ⟨funext fun str => ?_, rfl⟩
  unfold openStreams inUse at *
  by_cases eq : Ref.stream str = ref
  · rw [eq, setHeader_self]
    exact same
  · rw [setHeader_of_ne eq]

theorem keepsStreams_frame : Frame KeepsStreams fun ref => ∀ str, Ref.stream str ≠ ref where
  refl _ := ⟨rfl, rfl⟩
  trans first second := ⟨second.used.trans first.used, second.streams.trans first.streams⟩
  header m ref hdr other := by
    refine ⟨funext fun str => ?_, rfl⟩
    unfold openStreams inUse
    rw [setHeader_of_ne (other str)]
  wipe m ref other := by
    refine ⟨by unfold openStreams inUse; rw [wipe_headers], ?_⟩
    cases ref with
    | plain kind k => cases kind <;> rfl
    | stream str => exact absurd rfl (other str)
    | port port => rfl
  log _ _ := ⟨rfl, rfl⟩
  pipe _ _ _ := ⟨rfl, rfl⟩
  plain _ _ _ := nofun

variable {pipe : PipeId}

/-- A pipe in use keeps its counts, and goes when they are zero. -/
theorem freePipeIfUnused_pipes (used : (m.pipes pipe).inUse = true) :
    ∃ r, (m.freePipeIfUnused pipe).pipes = update m.pipes pipe r ∧
      (∀ reads, r.refs reads = (m.pipes pipe).refs reads) ∧
      (r.inUse = true ↔ ∃ reads, 0 < r.refs reads) := by
  unfold freePipeIfUnused
  rw [if_neg (by rw [used]; exact nofun)]
  split
  next noReader =>
    have drained := @drainPipeHandles_pipes m pipe (m.pipes pipe).handles rfl
    split
    next noWriter =>
      refine ⟨{}, ?_, ?_, by decide⟩
      · show update (drainPipeHandles pipe _ m).pipes pipe {} = _
        rw [drained, update_idem]
      · rintro (_ | _)
        · exact noWriter.symm
        · exact noReader.symm
    next writers =>
      exact ⟨_, drained, fun _ => rfl, iff_of_true used ⟨false, Nat.pos_of_ne_zero writers⟩⟩
  next readers =>
    exact ⟨m.pipes pipe, (update_eq_self ..).symm, fun _ => rfl,
      iff_of_true used ⟨true, Nat.pos_of_ne_zero readers⟩⟩

theorem Plumbed.clear_stream (ok : m.Plumbed) {str : StreamId}
    (none : (m.streams str).pipe = none) : (m.clear (.stream str)).Plumbed := by
  unfold Plumbed
  rw [openStreams_clear]
  exact Plumbing.other ok none rfl fun _ => rfl

/-- A stream that was never on a pipe is thrown away. -/
theorem Plumbed.discard (ok : m.Plumbed) {str : StreamId}
    (none : (m.streams str).pipe = none) : (m.discardIoObject str).Plumbed :=
  ok.clear_stream none

theorem Plumbed.destroyIoObject (ok : m.Plumbed) (str : StreamId) :
    (m.destroyIoObject str).Plumbed := by
  unfold Machine.destroyIoObject
  cases here : (m.streams str).pipe with
  | none => exact ok.clear_stream here
  | some pipe =>
    simp only
    generalize droppedAt : m.dropEnd pipe (m.streams str) = dropped
    have droppedPipe : dropped.pipes pipe =
        { m.pipes pipe with
          readerRefs := (m.pipes pipe).readerRefs - (m.streams str).read.toNat
          writerRefs := (m.pipes pipe).writerRefs - (m.streams str).write.toNat } := by
      rw [← droppedAt]
      exact setPipe_self ..
    have droppedUsed : (dropped.pipes pipe).inUse = true := by
      rw [droppedPipe]
      exact ok.on_pipe here
    obtain ⟨r, pipes, refs, inUse⟩ := freePipeIfUnused_pipes droppedUsed
    have first : m.KeepsStreams dropped := droppedAt ▸ ⟨rfl, rfl⟩
    have keeps : m.KeepsStreams (dropped.freePipeIfUnused pipe) :=
      keepsStreams_frame.trans first (keepsStreams_frame.freePipeIfUnused pipe)
    unfold Plumbed
    rw [openStreams_clear, clear_pipes, pipes, keeps.used]
    show Plumbing _ (update (dropped.freePipeIfUnused pipe).streams str {}) _
    rw [keeps.streams]
    apply Plumbing.disconnect ok here
    · intro other apart
      rw [update_of_ne apart, ← droppedAt]
      exact update_of_ne apart ..
    · intro reads
      rw [update_self, refs, droppedPipe]
      cases reads <;> rfl
    · rw [Function.update_self]
      exact inUse

namespace Plumbed

section

variable (ok : m.Plumbed)
include ok


theorem retain (ref : Ref) : (m.retain ref).Plumbed := ok.keep (setHeader_keepsStreams rfl) rfl

theorem create_plain (kind : Kind) (k : Nat) : (m.create (.plain kind k)).Plumbed :=
  ok.keep (keepsStreams_frame.create fun _ => nofun) (wipe_pipes _)

theorem clear_plain (kind : Kind) (k : Nat) : (m.clear (.plain kind k)).Plumbed :=
  ok.keep (keepsStreams_frame.clear fun _ => nofun) (clear_pipes _)

theorem releasePlain (kind : Kind) (k : Nat) : (m.releasePlain kind k).Plumbed :=
  ok.keep (keepsStreams_frame.releasePlain kind k) (releasePlain_pipes kind k)

theorem releaseStream (str : StreamId) : (m.releaseStream str).Plumbed := by
  have lowered : (m.decrement (.stream str)).Plumbed := ok.keep (setHeader_keepsStreams rfl) rfl
  unfold Machine.releaseStream lower
  split
  · exact lowered.destroyIoObject str
  · exact lowered

theorem drainPort (port : PortId) (pending : List Connection) :
    (drainPort port pending m).Plumbed := by
  induction pending generalizing m with
  | nil => exact ok
  | cons conn rest ih =>
    have dequeued : (m.setPort port { m.ports port with pending := rest }).Plumbed := ok
    exact ih ((dequeued.releaseStream conn.serverRead).releaseStream conn.serverWrite)

theorem releasePort (port : PortId) : (m.releasePort port).Plumbed := by
  have lowered : (m.decrement (.port port)).Plumbed := ok.keep (setHeader_keepsStreams rfl) rfl
  unfold Machine.releasePort lower
  split
  · exact (lowered.drainPort port _).keep (keepsStreams_frame.clear fun _ => nofun)
      (clear_pipes _)
  · exact lowered

theorem release (ref : Ref) : (m.release ref).Plumbed := by
  cases ref with
  | plain kind k => exact ok.releasePlain kind k
  | stream str => exact ok.releaseStream str
  | port port => exact ok.releasePort port

end

/-! ## Handles and new streams -/

variable {p : Process} {fd : Fd}

section

variable (ok : m.Plumbed)
include ok

theorem closeEntry (p : Process) (fd : Fd) : (m.closeEntry p fd).Plumbed := by
  unfold Machine.closeEntry
  split
  · exact @release (m.setHandle p fd none) ok _
  · exact ok

theorem installHandle (p : Process) (fd : Fd) (obj : Ref)
    (granted : Nat) : (m.installHandle p fd obj granted).Plumbed :=
  (ok.closeEntry p fd).retain obj

theorem allocateFd {obj : Ref} {granted : Nat}
    (found : m.allocateFd p obj granted = some (fd, t)) : t.Plumbed := by
  obtain ⟨_, rfl⟩ := allocateFd_some found
  exact ok.installHandle ..

omit ok in
theorem fold {ι : Type} {act : Machine → ι → Machine}
    (each : ∀ (old : Machine) i, old.Plumbed → (act old i).Plumbed)
    (ok : m.Plumbed) (indices : List ι) : (indices.foldl act m).Plumbed := by
  induction indices generalizing m with
  | nil => exact ok
  | cons i rest ih => exact ih (each m i ok)

theorem releaseAllHandles (p : Process) : (m.releaseAllHandles p).Plumbed :=
  fold (fun _ fd old => old.closeEntry p fd) ok _

/-- A new stream that is on no pipe. -/
theorem newStream {str : StreamId} {made : Machine} (found : m.allocateIoObject = some (str, made))
    (none : r.pipe = none) : (made.setStream str r).Plumbed := by
  obtain ⟨free, rfl⟩ := allocateIoObject_some found
  have awake : true = false → r = {} := nofun
  have replaced := Plumbing.other ok (Plumbing.idle_pipe ok free) none awake
  have streams : ((m.create (.stream str)).setStream str r).streams =
      update m.streams str r := update_idem ..
  unfold Plumbed
  rw [streams]
  show Plumbing (m.create (.stream str)).openStreams _ _
  rw [openStreams_create]
  exact replaced

/-! ## Pipes -/

/-- The pipe and its two ends are set up. -/
theorem linked {reader writer : StreamId}
    {piped readable writable : Machine} (found : m.allocatePipe = some (pipe, piped))
    (first : piped.allocateIoObject = some (reader, readable))
    (second : readable.allocateIoObject = some (writer, writable)) :
    (writable.linkEnds pipe reader writer).Plumbed := by
  have apart := (tables_linked found first second).1
  obtain ⟨freePipe, rfl⟩ := allocatePipe_some found
  obtain ⟨freeReader, rfl⟩ := allocateIoObject_some first
  obtain ⟨freeWriter, rfl⟩ := allocateIoObject_some second
  have readUsed : ((m.setPipe pipe { inUse := true }).create (.stream reader)).openStreams =
      update m.openStreams reader true := openStreams_create _ reader
  have writeUsed := openStreams_create ((m.setPipe pipe { inUse := true }).create
    (.stream reader)) writer
  have reads := @Plumbing.connect _ _ _ reader pipe ok freeReader true
    { inUse := true, readerRefs := 1 } rfl
    (by intro reads; rw [ok.unused freePipe]; cases reads <;> rfl)
  have writes := @Plumbing.connect _ _ _ writer pipe reads
    (by rw [← readUsed]; exact freeWriter) false
    { inUse := true, readerRefs := 1, writerRefs := 1 } rfl
    (by intro reads; rw [update_self]; cases reads <;> rfl)
  rw [update_idem] at writes
  have streams : update (update (update (update m.streams
      reader {}) writer {}) reader (endRecord pipe true)) writer (endRecord pipe false) =
        update (update m.streams reader (endRecord pipe true)) writer
          (endRecord pipe false) := by
    rw [update_comm apart, update_idem, update_comm apart.symm, update_idem]
  have pipes : update (update m.pipes pipe { inUse := true }) pipe
      { inUse := true, readerRefs := 1, writerRefs := 1 } = update m.pipes pipe
        { inUse := true, readerRefs := 1, writerRefs := 1 } := update_idem ..
  rw [← readUsed, ← writeUsed, ← streams, ← pipes] at writes
  exact writes

/-- What was free and is free again is as it was, and the pipe is zeroed. -/
theorem restored (free : (m.pipes pipe).inUse = false)
    (used : t.openStreams = m.openStreams) (streams : t.streams = m.streams)
    (pipes : t.pipes = update m.pipes pipe {}) : t.Plumbed := by
  unfold Plumbed
  rw [used, streams, pipes]
  exact Plumbing.zero ok free

theorem createPipePair : m.createPipePair.2.Plumbed := by
  unfold Machine.createPipePair
  split
  · exact ok
  rename_i pipe piped found
  obtain ⟨freePipe, shape⟩ := allocatePipe_some found
  split
  · rw [shape, setPipe_setPipe]
    exact Plumbing.zero ok freePipe
  rename_i reader readable first
  split
  · subst shape
    obtain ⟨freeReader, rfl⟩ := allocateIoObject_some first
    have unused : m.openStreams reader = false := freeReader
    refine ok.restored freePipe ?_ ?_ (update_idem ..)
    · show (clear _ (.stream reader)).openStreams = _
      rw [openStreams_clear, openStreams_create, update_idem, ← unused]
      exact update_eq_self ..
    · show update (update m.streams reader {}) reader {} = _
      rw [update_idem, ← ok.idle reader unused]
      exact update_eq_self ..
  next writer writable second =>
    exact ((ok.linked found first second).retain _).retain _

theorem installEnds (p : Process) (pipe : PipeId) (reader writer : StreamId) (buf : Buffer)
    (discarded : (((m.discardIoObject reader).discardIoObject writer).setPipe pipe {}).Plumbed)
    (plenty : freeEntries (m.openEntries p) ≠ 1) :
    (m.installEnds p pipe reader writer buf).machine.Plumbed := by
  unfold Machine.installEnds
  cases firstAt : m.allocateEnd p reader true false with
  | none => exact discarded
  | some found =>
    obtain ⟨readFd, first⟩ := found
    have one := ok.allocateFd firstAt
    simp only
    cases secondAt : first.allocateEnd p writer false true with
    | none => exact absurd ((allocateEnd_again firstAt).mp secondAt) plenty
    | some found =>
      obtain ⟨writeFd, second⟩ := found
      have two := one.allocateFd secondAt
      simp only
      split
      · exact two
      · exact (two.closeEntry p readFd).closeEntry p writeFd

/-- Both ends of a new pipe are discarded, and the pipe is zeroed. -/
theorem discards {reader writer : StreamId}
    {piped readable writable : Machine} (found : m.allocatePipe = some (pipe, piped))
    (first : piped.allocateIoObject = some (reader, readable))
    (second : readable.allocateIoObject = some (writer, writable)) (p : Process) :
    ((((writable.linkEnds pipe reader writer).discardIoObject reader).discardIoObject
      writer).setPipe pipe {}).Plumbed := by
  obtain ⟨born, linked⟩ := (Holding.start m p).link nofun found first second
  have used := (discards_unchanged linked).objects
  have apart := (tables_linked found first second).1
  obtain ⟨freePipe, rfl⟩ := allocatePipe_some found
  obtain ⟨freeReader, rfl⟩ := allocateIoObject_some first
  obtain ⟨freeWriter, rfl⟩ := allocateIoObject_some second
  refine ok.restored freePipe (funext fun str => used (.stream str)) ?_ ?_
  · have idleReader : m.streams reader = {} := ok.idle reader freeReader
    have idleWriter : m.streams writer = {} := by
      apply ok.idle
      have outside : (m.setPipe pipe { inUse := true }).openStreams writer = false := by
        have unused : ((m.setPipe pipe { inUse := true }).create
          (.stream reader)).openStreams writer = false := freeWriter
        rw [openStreams_create, update_of_ne apart.symm] at unused
        exact unused
      exact outside
    show update (update (update (update (update
      (update m.streams reader {}) writer {}) reader _) writer _) reader {}) writer {} = _
    funext str
    simp only [update_apply]
    split
    next here =>
      rw [here, idleWriter]
    split
    next here =>
      rw [here, idleReader]
    · rfl
  · show update (update (update m.pipes pipe _) pipe _) pipe {} = _
    rw [update_idem, update_idem]

theorem createPipe {buf : Buffer} (room : m.PipeRoom p buf) :
    (m.createPipe p buf).machine.Plumbed := by
  rcases createPipe_cases room with ⟨errno, refused⟩ |
    ⟨pipe, piped, reader, readable, writer, writable, found, first, second, entries, made⟩
  · rw [refused]
    exact ok
  rw [made]
  apply (ok.linked found first second).installEnds p pipe reader writer buf
  · exact ok.discards found first second p
  · unfold openEntries
    rw [(tables_linked found first second).2.2.2.2.2]
    exact entries

variable (p : Process)

theorem installPair (reader writer : StreamId)
    (buf : Buffer) : (m.installPair p reader writer buf).machine.Plumbed := by
  unfold Machine.installPair
  split
  · exact (ok.releaseStream reader).releaseStream writer
  rename_i readFd first firstAt
  have one := ok.allocateFd firstAt
  split
  · exact ((one.releaseStream reader).releaseStream writer).closeEntry p readFd
  rename_i writeFd second secondAt
  have two := ((one.allocateFd secondAt).releaseStream reader).releaseStream writer
  split
  · exact two
  · exact (two.closeEntry p readFd).closeEntry p writeFd

theorem nativePipeCreate (buf : Buffer) : (m.nativePipeCreate p buf).machine.Plumbed := by
  unfold Machine.nativePipeCreate
  split
  · exact ok
  have made := ok.createPipePair
  split <;> rename_i result <;> rw [result] at made
  · exact made
  · exact installPair made ..

/-! ## Ports -/

theorem nativePortCreate
    (name : Option (List UInt8)) : (m.nativePortCreate p name).machine.Plumbed := by
  unfold Machine.nativePortCreate
  split
  · exact ok
  split
  · exact ok
  split
  · exact ok
  split
  · exact ok
  rename_i port made created
  have named : made.Plumbed := by
    unfold createPort at created
    split at created
    · cases created
    split at created
    · cases created
      have fresh : (m.create (.port port)).Plumbed :=
        ok.keep (keepsStreams_frame.create fun _ => nofun) (wipe_pipes _)
      exact fresh
    · cases created
  split
  · exact (named.retain _).release _
  next fd installed found =>
    exact named.allocateFd found

theorem withdraw (requestReader replyWriter : StreamId) :
    (m.withdraw requestReader replyWriter).Plumbed :=
  (ok.releaseStream requestReader).releaseStream replyWriter

theorem offerConnection (port : PortId) (req reply : StreamId × StreamId) (copied : Bool) :
    (m.offerConnection p port req reply copied).machine.Plumbed := by
  unfold Machine.offerConnection
  split
  · exact ((ok.releaseStream req.2).releaseStream reply.1).withdraw req.1 reply.2
  rename_i writeFd first firstAt
  have one := ok.allocateFd firstAt
  split
  · exact (((one.releaseStream req.2).releaseStream reply.1).closeEntry p
      writeFd).withdraw req.1 reply.2
  rename_i readFd second secondAt
  have owned := ((one.allocateFd secondAt).releaseStream req.2).releaseStream reply.1
  have refused := ((owned.closeEntry p writeFd).closeEntry p readFd).withdraw req.1
    reply.2
  simp only
  split
  · split
    next offered queued =>
      unfold portEnqueue at queued
      split at queued
      · cases queued
      · cases queued
        exact owned
    · exact refused
  · exact refused

theorem nativePortConnect (name : Option (List UInt8)) (buf : Buffer) (creator : Option Buffer) :
    (m.nativePortConnect p name buf creator).machine.Plumbed := by
  unfold Machine.nativePortConnect
  split
  · exact ok
  split
  · exact ok
  split
  · exact ok
  rename_i port _
  split
  · exact ok
  have first := ok.createPipePair
  split <;> rename_i result <;> rw [result] at first
  · exact first
  have second := createPipePair first
  split <;> rename_i result <;> rw [result] at second
  · exact releaseStream (releaseStream second _) _
  · exact offerConnection second ..

theorem takeConnection (conn : Connection)
    (buf : Buffer) : (m.takeConnection p conn buf).machine.Plumbed :=
  ok.installPair p conn.serverRead conn.serverWrite buf

theorem nativePortAccept (handle : Nat)
    (buf : Buffer) : (m.nativePortAccept p handle buf).machine.Plumbed := by
  unfold Machine.nativePortAccept
  split
  · split
    · exact ok
    split
    · exact ok
    rename_i conn t taken
    have dequeued : t.Plumbed := by
      unfold portDequeue at taken
      split at taken
      · cases taken
      · cases taken
        exact ok
    exact dequeued.takeConnection ..
  · exact ok

end

end Plumbed

end Machine

end SavanXP.Objects
