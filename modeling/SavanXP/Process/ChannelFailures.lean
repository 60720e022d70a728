import SavanXP.Process.ChannelPairs

/-!
# A failed channel call leaves nothing behind

For every state of the tables: the native pipe creation and the connection to a
port give back everything they took on each of their exits.  The POSIX pipe call
does so unless it finds a pipe but not two streams, or exactly one free handle
entry; the acceptance of a connection does so unless it takes a connection off
the queue that it cannot hand over.
-/

namespace SavanXP.Objects

open Library Function Machine

variable {ι : Type} {m : Machine} {p : Process}

/-! ## New pairs -/

/-- Nothing is borrowed yet. -/
def Loan.empty : Loan Empty where
  pipe := nofun
  ends := nofun
  birth := nofun

/-- One more pipe, with its reader and its writer. -/
def Loan.add (loan : Loan ι) (pipe : PipeId) (ends : StreamId × StreamId) (born : Bool → Nat) :
    Loan (Option ι) where
  pipe
    | none => pipe
    | some i => loan.pipe i
  ends
    | none => fun side => if side then ends.1 else ends.2
    | some i => loan.ends i
  birth
    | none => born
    | some i => loan.birth i

def Counts.add (counts : Counts ι) (n : Option Nat) : Counts (Option ι)
  | none => fun _ => n
  | some i => counts i

theorem Counts.add_set [DecidableEq ι] (counts : Counts ι) (old n : Option Nat) :
    ((counts.add old).set none true n).set none false n = counts.add n := by
  funext i side
  cases i with
  | none => cases side <;> rfl
  | some i => rfl

theorem Holding.start (m : Machine) (p : Process) : Holding Loan.empty nofun p [] m m :=
  ⟨⟨⟨nofun, nofun⟩, nofun, nofun, fun _ _ => rfl, fun _ _ => rfl, rfl⟩,
    ⟨⟨nofun, nofun⟩, nofun, nofun, fun _ _ => rfl, fun _ _ => rfl, rfl⟩, Handed.nothing rfl⟩

variable {pipe : PipeId} {piped : Machine}


/-- The tables right after a pipe and its ends are set up. -/
theorem Machine.tables_linked {reader writer : StreamId} {readable writable : Machine}
    (found : m.allocatePipe = some (pipe, piped))
    (first : piped.allocateIoObject = some (reader, readable))
    (second : readable.allocateIoObject = some (writer, writable)) :
    reader ≠ writer ∧ m.tables.pipes pipe = none ∧ m.tables.objects (.stream reader) = none ∧
      m.tables.objects (.stream writer) = none ∧
      (writable.linkEnds pipe reader writer).tables = ((m.tables.setObject (.stream reader)
          (some ({ inUse := true, birth := piped.births }, endRecord pipe true))).setObject
            (.stream writer)
            (some ({ inUse := true, birth := readable.births }, endRecord pipe false))).setPipe pipe
              (some (pipeRecord fun _ => true)) ∧
      (writable.linkEnds pipe reader writer).handles = m.handles := by
  obtain ⟨freePipe, rfl⟩ := allocatePipe_some found
  obtain ⟨freeReader, rfl⟩ := allocateIoObject_some first
  obtain ⟨freeWriter, rfl⟩ := allocateIoObject_some second
  have reading := tables_create (m.setPipe pipe { inUse := true }) reader
  rw [tables_setPipe] at reading
  have noReader : m.tables.objects (.stream reader) = none := tables_free freeReader
  have noWriter := tables_free freeWriter
  rw [reading] at noWriter
  have apart : reader ≠ writer := by
    intro eq
    subst eq
    simp [Tables.setObject] at noWriter
  have writing := tables_create ((m.setPipe pipe { inUse := true }).create (.stream reader)) writer
  rw [reading] at writing
  refine ⟨apart, tables_freePipe freePipe, noReader, ?_, ?_, rfl⟩
  · simpa [Tables.setObject, Tables.setPipe, apart.symm] using noWriter
  generalize ((m.setPipe pipe { inUse := true }).create (.stream reader)).create
    (.stream writer) = writable at writing
  have readerThere : writable.tables.objects (.stream reader) =
      some ({ inUse := true, birth := m.births }, {}) := by
    rw [writing]
    simp [Tables.setObject, apart, setPipe]
  have reads := tables_setStream readerThere (endRecord pipe true)
  have writerThere : (writable.setStream reader (endRecord pipe true)).tables.objects
      (.stream writer) = some ({ inUse := true, birth := m.births + 1 }, {}) := by
    rw [reads, writing]
    simp [Tables.setObject, apart.symm, create, setPipe]
  have writes := tables_setStream writerThere (endRecord pipe false)
  show (((writable.setStream reader (endRecord pipe true)).setStream writer
    (endRecord pipe false)).setPipe pipe (pipeRecord fun _ => true)).tables = _
  rw [tables_setPipe, writes, reads, writing]
  have swap : Ref.stream reader ≠ Ref.stream writer := fun eq => apart (Ref.stream.inj eq)
  refine Tables.ext ?_ ?_ rfl rfl
  · simp only [Tables.setObject, Tables.setPipe]
    rw [update_comm swap, update_idem, update_comm swap.symm, update_idem]
    rfl
  · simp only [Tables.setObject, Tables.setPipe, update_idem]
    rfl

/-- Free slots may be counted among what is borrowed. -/
theorem Lent.extend {loan : Loan ι} {counts : Counts ι} {start now : Tables}
    {ends : StreamId × StreamId} {born : Bool → Nat} (lent : Lent loan counts start now)
    (apart : (loan.add pipe ends born).Apart) (freePipe : now.pipes pipe = none)
    (freeReader : now.objects (.stream ends.1) = none)
    (freeWriter : now.objects (.stream ends.2) = none) :
    Lent (loan.add pipe ends born) (counts.add none) start now where
  apart := apart
  ends
    | none, true => freeReader
    | none, false => freeWriter
    | some i, side => lent.ends i side
  pipes
    | none => freePipe
    | some i => lent.pipes i
  objects ref outside := lent.objects ref fun i side => outside (some i) side
  others pipe outside := lent.others pipe fun i => outside (some i)
  ports := lent.ports

variable {start : Machine}

/-- A pair is borrowed while all that was borrowed before is still there. -/
theorem Holding.link [DecidableEq ι] {loan : Loan ι} {counts : Counts ι}
    (holding : Holding loan counts p [] start m)
    (present : ∀ i side, (counts i side).isSome = true) {reader writer : StreamId}
    {readable writable : Machine} (found : m.allocatePipe = some (pipe, piped))
    (first : piped.allocateIoObject = some (reader, readable))
    (second : readable.allocateIoObject = some (writer, writable)) :
    ∃ born, Holding (loan.add pipe (reader, writer) born) (counts.add (some 0)) p [] start
      (writable.linkEnds pipe reader writer) := by
  obtain ⟨apart, freePipe, freeReader, freeWriter, tables, handles⟩ :=
    tables_linked found first second
  obtain ⟨free, lent, handed⟩ := holding
  have newPipe : ∀ i, pipe ≠ loan.pipe i := by
    rintro i rfl
    rw [lent.pipes, Counts.left, pipeLeft, if_pos (by simp [present])] at freePipe
    cases freePipe
  have newEnd : ∀ str, m.tables.objects (.stream str) = none →
      ∀ i side, str ≠ loan.ends i side := by
    rintro str free i side rfl
    rw [lent.ends, Option.map_eq_none_iff] at free
    have there := present i side
    rw [free] at there
    cases there
  have newReader := newEnd reader freeReader
  have newWriter := newEnd writer freeWriter
  refine ⟨fun side => if side then piped.births else readable.births, ?_⟩
  have distinct : (loan.add pipe (reader, writer) fun side =>
      if side then piped.births else readable.births).Apart := by
    constructor
    · rintro (_ | one) (_ | o) eq
      · rfl
      · exact absurd eq (newPipe o)
      · exact absurd eq.symm (newPipe one)
      · exact congrArg some (lent.apart.pipes one o eq)
    · rintro (_ | one) (_ | o) side place eq
      · cases side <;> cases place
        · exact ⟨rfl, rfl⟩
        · exact absurd eq.symm apart
        · exact absurd eq apart
        · exact ⟨rfl, rfl⟩
      · cases side
        · exact absurd eq (newWriter o place)
        · exact absurd eq (newReader o place)
      · cases place
        · exact absurd eq.symm (newWriter one side)
        · exact absurd eq.symm (newReader one side)
      · obtain ⟨rfl, rfl⟩ := lent.apart.ends one o side place eq
        exact ⟨rfl, rfl⟩
  have unborrowed : ∀ str, m.tables.objects (.stream str) = none →
      start.tables.objects (.stream str) = none := fun str free =>
    (lent.objects _ fun i side eq =>
      newEnd str free i side (Ref.stream.inj eq)).symm.trans free
  have blank : Counts.add (fun _ _ => none) none = (fun _ _ => none : Counts (Option ι)) := by
    funext i
    cases i <;> rfl
  refine ⟨?_, ?_, handed.keep handles⟩
  · rw [← blank]
    exact free.extend distinct ((lent.others pipe newPipe).symm.trans freePipe)
      (unborrowed reader freeReader) (unborrowed writer freeWriter)
  · have borrowed := ((lent.extend distinct freePipe freeReader freeWriter).change none true
      (some 0)).change none false (some 0)
    rw [Counts.add_set] at borrowed
    rw [tables]
    exact (Tables.setPipe_setPipe ..).subst borrowed

variable {t : Machine}

/-- Each end of a new pair has the reference the call owns. -/
theorem Holding.pair [DecidableEq ι] {loan : Loan ι} {counts : Counts ι}
    (holding : Holding loan counts p [] start m)
    (present : ∀ i side, (counts i side).isSome = true) {ends : StreamId × StreamId}
    (made : m.createPipePair = (some ends, t)) :
    ∃ pipe born, Holding (loan.add pipe ends born) (counts.add (some 1)) p [] start t := by
  unfold createPipePair at made
  split at made
  · cases made
  rename_i pipe piped found
  split at made
  · cases made
  rename_i reader readable first
  split at made
  · cases made
  rename_i writer writable second
  cases made
  obtain ⟨born, linked⟩ := holding.link present found first second
  have owned := (linked.retain none true rfl (by decide)).retain none false rfl (by decide)
  rw [Counts.add_set] at owned
  exact ⟨pipe, born, owned⟩

theorem Machine.createPipePair_failed (failed : m.createPipePair = (none, t)) :
    t.tables = m.tables := by
  unfold createPipePair at failed
  split at failed
  · cases failed
    rfl
  rename_i pipe piped found
  obtain ⟨freePipe, rfl⟩ := allocatePipe_some found
  have noPipe : m.tables.setPipe pipe none = m.tables := by
    rw [← tables_freePipe freePipe]
    exact Tables.ext rfl (update_eq_self ..) rfl rfl
  split at failed
  · cases failed
    rw [setPipe_setPipe, tables_setPipe]
    exact noPipe
  rename_i reader readable first
  obtain ⟨freeReader, rfl⟩ := allocateIoObject_some first
  split at failed
  · cases failed
    unfold discardIoObject
    rw [tables_setPipe, tables_clear, tables_create, tables_setPipe]
    have noReader : m.tables.objects (.stream reader) = none := tables_free freeReader
    refine Tables.ext ?_ ?_ rfl rfl
    · simp [Tables.setObject, Tables.setPipe, ← noReader]
    · simp [Tables.setObject, Tables.setPipe, ← tables_freePipe freePipe]
  · cases failed

/-! ## Native pipes -/

section Native

variable {start : Machine} {loan : Loan (Option Empty)} {buf : Buffer} {errno : Errno}

theorem installPair_failed (held : Holding loan (Counts.add nofun (some 1)) p [] start m)
    (failed : (m.installPair p (loan.ends none true) (loan.ends none false)
      buf).result = .error errno) :
    Unchanged start (m.installPair p (loan.ends none true) (loan.ends none false) buf).machine := by
  unfold installPair at failed ⊢
  cases firstAt : m.allocateEnd p (loan.ends none true) true false with
  | none => exact ((held.release none true rfl).release none false rfl).unchanged (by decide)
  | some found =>
    obtain ⟨readFd, first⟩ := found
    have installed := held.install none true firstAt rfl (by decide)
    simp only [firstAt] at failed ⊢
    cases secondAt : first.allocateEnd p (loan.ends none false) false true with
    | none =>
      have released := (installed.release none true rfl).release none false rfl
      exact (released.close rfl).unchanged (by decide)
    | some found =>
      have full := installed.install none false secondAt rfl (by decide)
      simp only [secondAt] at failed ⊢
      cases copied : buf.copied with
      | true =>
        rw [copied] at failed
        cases failed
      | false =>
        have released := (full.release none true rfl).release none false rfl
        exact ((released.close rfl).close rfl).unchanged (by decide)

theorem nativePipeCreate_failed (failed : (m.nativePipeCreate p buf).result = .error errno) :
    Unchanged m (m.nativePipeCreate p buf).machine := by
  unfold nativePipeCreate at failed ⊢
  split
  · exact Unchanged.refl m
  rename_i accessible
  rw [if_neg accessible] at failed
  cases made : m.createPipePair with
  | mk ends t =>
    rw [made] at failed
    cases ends with
    | none => exact Unchanged.of_tables (createPipePair_failed made)
    | some ends =>
      obtain ⟨pipe, born, held⟩ := (Holding.start m p).pair nofun made
      exact installPair_failed held failed

end Native

/-! ## Connections -/

section Connect

variable {start : Machine} {loan : Loan (Option (Option Empty))}
  {counts : Counts (Option (Option Empty))}

/-- The server's ends are the last to go. -/
theorem withdraw_unchanged (held : Holding loan counts p [] start m)
    (req : counts (some none) true = some 1) (reply : counts none false = some 1)
    (gone : ∀ i side, (counts.set (some none) true none).set none false none i side = none) :
    Unchanged start (m.withdraw (loan.ends (some none) true) (loan.ends none false)) :=
  ((held.release (some none) true req).release none false reply).unchanged gone

theorem offerConnection_failed {port : PortId} {copied : Bool}
    (held : Holding loan ((Counts.add nofun (some 1)).add (some 1)) p [] start m)
    (failed : (m.offerConnection p port (loan.ends (some none) true, loan.ends (some none) false)
      (loan.ends none true, loan.ends none false) copied).result = .error errno) :
    Unchanged start (m.offerConnection p port
      (loan.ends (some none) true, loan.ends (some none) false)
      (loan.ends none true, loan.ends none false) copied).machine := by
  unfold offerConnection at failed ⊢
  cases firstAt : m.allocateEnd p (loan.ends (some none) false) false true with
  | none =>
    have released := (held.release (some none) false rfl).release none true rfl
    exact withdraw_unchanged released rfl rfl (by decide)
  | some found =>
    obtain ⟨writeFd, first⟩ := found
    have installed := held.install (some none) false firstAt rfl (by decide)
    simp only [firstAt] at failed ⊢
    cases secondAt : first.allocateEnd p (loan.ends none true) true false with
    | none =>
      have owned := (installed.release (some none) false rfl).release none true rfl
      exact withdraw_unchanged (owned.close rfl) rfl rfl (by decide)
    | some found =>
      have full := installed.install none true secondAt rfl (by decide)
      have owned := (full.release (some none) false rfl).release none true rfl
      have refused := withdraw_unchanged ((owned.close rfl).close rfl) rfl rfl (by decide)
      simp only [secondAt] at failed ⊢
      cases copied with
      | false => exact refused
      | true =>
        rw [if_pos rfl] at failed ⊢
        split at failed
        · cases failed
        · exact refused

theorem nativePortConnect_failed {name : Option (List UInt8)} {creator : Option Buffer}
    (failed : (m.nativePortConnect p name buf creator).result = .error errno) :
    Unchanged m (m.nativePortConnect p name buf creator).machine := by
  unfold nativePortConnect at failed ⊢
  cases name with
  | none => exact Unchanged.refl m
  | some name =>
    simp only at failed ⊢
    split
    · exact Unchanged.refl m
    rename_i valid
    rw [if_neg valid] at failed
    cases there : m.findPort name with
    | none => exact Unchanged.refl m
    | some port =>
      simp only [there] at failed ⊢
      split
      · exact Unchanged.refl m
      rename_i room
      rw [if_neg room] at failed
      cases requestAt : m.createPipePair with
      | mk made t =>
        cases made with
        | none => exact Unchanged.of_tables (createPipePair_failed requestAt)
        | some req =>
          obtain ⟨pipe, born, held⟩ := (Holding.start m p).pair nofun requestAt
          simp only [requestAt] at failed ⊢
          cases replyAt : t.createPipePair with
          | mk o last =>
            cases o with
            | none =>
              have same := createPipePair_failed replyAt
              have still : Holding _ _ p [] m last :=
                ⟨held.free, same ▸ held.lent, held.handed.keep (congrArg Tables.handles same)⟩
              exact ((still.release none true rfl).release none false rfl).unchanged
                (by decide)
            | some reply =>
              obtain ⟨channel, t, both⟩ := held.pair (by decide) replyAt
              simp only [replyAt] at failed ⊢
              exact offerConnection_failed both failed

end Connect

/-! ## The POSIX pipe call and the acceptance -/

/-- The entries of a handle table that are open. -/
def Machine.openEntries (m : Machine) (p : Process) (fd : Fd) : Bool :=
  (m.handles p fd).isSome

variable {str : StreamId}

/-- A second stream can be given to the process unless the first took its only free entry. -/
theorem Machine.allocateEnd_again {o : StreamId} {read write reads writes : Bool} {fd : Fd}
    (found : m.allocateEnd p str read write = some (fd, t)) :
    t.allocateEnd p o reads writes = none ↔ freeEntries (m.openEntries p) = 1 := by
  obtain ⟨empty, rfl⟩ := allocateFd_some found
  have free : m.openEntries p fd = false := by
    unfold openEntries
    rw [empty]
    rfl
  rw [← freeEntry_update free]
  have entries : (m.installHandle p fd (.stream str)
      (objectAccessForOpenFlags read write)).openEntries p = update (m.openEntries p) fd true := by
    funext place
    rw [installHandle_empty empty]
    show (update m.handles p _ p place).isSome = _
    rw [update_self]
    by_cases eq : place = fd
    · rw [eq, update_self, update_self]
      rfl
    · rw [update_of_ne eq, update_of_ne eq]
      rfl
  rw [← entries]
  generalize m.installHandle p fd (.stream str) (objectAccessForOpenFlags read write) = t
  change (t.allocateFd p _ _) = none ↔ t.allocateFdSlot p = none
  unfold allocateFd
  cases t.allocateFdSlot p <;> simp

/-- The streams in use. -/
def Machine.openStreams (m : Machine) (str : StreamId) : Bool :=
  m.inUse (.stream str)

theorem Machine.openStreams_update {hdr : Header}
    (headers : t.headers = update m.headers (.stream str) hdr) :
    t.openStreams = update m.openStreams str hdr.inUse := by
  funext o
  by_cases eq : o = str
  · subst eq
    simp [openStreams, inUse, headers]
  · simp [openStreams, inUse, headers, eq]

theorem Machine.openStreams_create (m : Machine) (str : StreamId) :
    (m.create (.stream str)).openStreams = update m.openStreams str true :=
  @Machine.openStreams_update m _ str { inUse := true, birth := m.births } rfl

theorem Machine.openStreams_clear (m : Machine) (str : StreamId) :
    (m.clear (.stream str)).openStreams = update m.openStreams str false :=
  @Machine.openStreams_update m _ str {} rfl

theorem Machine.allocateIoObject_none :
    m.allocateIoObject = none ↔ freeEntries m.openStreams = 0 := by
  rw [freeEntries_zero, ← freeEntry_none]
  change m.allocateIoObject = none ↔ (freeEntry fun place => m.inUse (.stream place)) = none
  unfold allocateIoObject
  cases freeEntry fun place => m.inUse (.stream place) <;> simp

theorem Machine.allocateIoObject_again (found : m.allocateIoObject = some (str, t)) :
    t.allocateIoObject = none ↔ freeEntries m.openStreams = 1 := by
  obtain ⟨free, rfl⟩ := allocateIoObject_some found
  have counted := @freeEntries_update _ m.openStreams str free
  rw [allocateIoObject_none, openStreams_create, counted, Nat.add_eq_right]

theorem Machine.allocateEnd_none {read write : Bool} :
    m.allocateEnd p str read write = none ↔ freeEntries (m.openEntries p) = 0 := by
  rw [freeEntries_zero, ← freeEntry_none]
  change (m.allocateFd p _ _) = none ↔ m.allocateFdSlot p = none
  unfold allocateFd
  cases m.allocateFdSlot p <;> simp

/-- When the POSIX pipe call gets a pipe, it gets both streams, and both handle
entries or none. -/
def Machine.PipeRoom (m : Machine) (p : Process) (buf : Buffer) : Prop :=
  buf.accessible = true → m.allocatePipe.isSome = true →
    2 ≤ freeEntries m.openStreams ∧ freeEntries (m.openEntries p) ≠ 1

/-- When a connection is taken off the queue, it can be handed over. -/
def Machine.AcceptRoom (m : Machine) (p : Process) (handle : Nat) (buf : Buffer) :
    Prop :=
  ∀ port, m.lookupHandle p handle accessQuery = some (.port port) →
    buf.accessible = true → (m.ports port).pending ≠ [] →
      2 ≤ freeEntries (m.openEntries p) ∧ buf.copied = true

/-- The ends nobody has referenced are discarded, and the pipe with them. -/
theorem discards_unchanged {loan : Loan (Option Empty)}
    (held : Holding loan (Counts.add nofun (some 0)) p [] start m) :
    Unchanged start (((m.discardIoObject (loan.ends none true)).discardIoObject
      (loan.ends none false)).setPipe (loan.pipe none) {}) := by
  have gone := (held.lent.change none true none).change none false none
  rw [Counts.add_set] at gone
  have emptied : Lent loan (Counts.add nofun none) start.tables
      (((m.discardIoObject (loan.ends none true)).discardIoObject
        (loan.ends none false)).setPipe (loan.pipe none) {}).tables := by
    unfold discardIoObject
    rw [tables_setPipe, tables_clear, tables_clear]
    exact (Tables.setPipe_setPipe ..).subst gone
  have left : Holding loan (Counts.add nofun none) p [] start _ :=
    ⟨held.free, emptied, held.handed.keep rfl⟩
  exact left.unchanged (by decide)

theorem installEnds_failed {loan : Loan (Option Empty)}
    (held : Holding loan (Counts.add nofun (some 0)) p [] start m)
    (plenty : freeEntries (m.openEntries p) ≠ 1)
    (failed : (m.installEnds p (loan.pipe none) (loan.ends none true)
      (loan.ends none false) buf).result = .error errno) :
    Unchanged start (m.installEnds p (loan.pipe none) (loan.ends none true)
      (loan.ends none false) buf).machine := by
  unfold installEnds at failed ⊢
  cases firstAt : m.allocateEnd p (loan.ends none true) true false with
  | none => exact discards_unchanged held
  | some found =>
    obtain ⟨readFd, first⟩ := found
    have installed := held.install none true firstAt rfl (by decide)
    simp only [firstAt] at failed ⊢
    cases secondAt : first.allocateEnd p (loan.ends none false) false true with
    | none => exact absurd ((allocateEnd_again firstAt).mp secondAt) plenty
    | some found =>
      have full := installed.install none false secondAt rfl (by decide)
      simp only [secondAt] at failed ⊢
      cases copied : buf.copied with
      | true =>
        rw [copied] at failed
        cases failed
      | false => exact ((full.close rfl).close rfl).unchanged (by decide)

/-- With room the POSIX pipe call is refused at once or makes a pipe with both ends. -/
theorem createPipe_cases (room : m.PipeRoom p buf) :
    (∃ errno, m.createPipe p buf = ⟨.error errno, m⟩) ∨
      ∃ pipe piped reader readable writer writable, m.allocatePipe = some (pipe, piped) ∧
        piped.allocateIoObject = some (reader, readable) ∧
        readable.allocateIoObject = some (writer, writable) ∧
        freeEntries (m.openEntries p) ≠ 1 ∧ m.createPipe p buf =
          (writable.linkEnds pipe reader writer).installEnds p pipe reader writer buf := by
  unfold createPipe
  split
  · exact .inl ⟨_, rfl⟩
  rename_i accessible
  cases found : m.allocatePipe with
  | none => exact .inl ⟨_, rfl⟩
  | some taken =>
    obtain ⟨pipe, piped⟩ := taken
    obtain ⟨streams, entries⟩ := room (by simpa using accessible) (by rw [found]; rfl)
    have sameStreams : piped.openStreams = m.openStreams := by
      obtain ⟨_, rfl⟩ := allocatePipe_some found
      rfl
    rw [← sameStreams] at streams
    cases first : piped.allocateIoObject with
    | none =>
      rw [allocateIoObject_none.mp first] at streams
      exact absurd streams (by decide)
    | some taken =>
      obtain ⟨reader, readable⟩ := taken
      cases second : readable.allocateIoObject with
      | none => exact absurd ((allocateIoObject_again first).mp second) (Nat.ne_of_gt streams)
      | some taken =>
        exact .inr ⟨pipe, piped, reader, readable, taken.1, taken.2, rfl, first, second, entries,
          by simp only [first, second]⟩

theorem createPipe_failed (room : m.PipeRoom p buf)
    (failed : (m.createPipe p buf).result = .error errno) :
    Unchanged m (m.createPipe p buf).machine := by
  rcases createPipe_cases room with ⟨errno, refused⟩ |
    ⟨pipe, piped, reader, readable, writer, writable, found, first, second, entries, made⟩
  · rw [refused]
    exact Unchanged.refl m
  obtain ⟨born, linked⟩ := (Holding.start m p).link nofun found first second
  rw [made] at failed ⊢
  apply installEnds_failed linked _ failed
  unfold openEntries
  rw [linked.handed.restored]
  exact entries

/-- With one free entry the writing end of the new pipe is forgotten. -/
theorem installEnds_leaves {loan : Loan (Option Empty)}
    (held : Holding loan (Counts.add nofun (some 0)) p [] start m)
    (single : freeEntries (m.openEntries p) = 1) :
    (∃ errno, (m.installEnds p (loan.pipe none) (loan.ends none true)
        (loan.ends none false) buf).result = .error errno) ∧
      ((m.installEnds p (loan.pipe none) (loan.ends none true)
        (loan.ends none false) buf).machine.pipes (loan.pipe none)).inUse = true := by
  unfold installEnds
  cases firstAt : m.allocateEnd p (loan.ends none true) true false with
  | none =>
    rw [allocateEnd_none.mp firstAt] at single
    cases single
  | some found =>
    obtain ⟨readFd, first⟩ := found
    have closed := (held.install none true firstAt rfl (by decide)).close rfl
    simp only [(allocateEnd_again firstAt).mpr single]
    refine ⟨⟨_, rfl⟩, ?_⟩
    change ((first.closeEntry p readFd).pipes (loan.pipe none)).inUse = true
    rw [← tables_pipe_isSome, closed.lent.pipes]
    rfl

/-- Without room the POSIX pipe call fails and leaves a pipe in use that was free. -/
theorem createPipe_leaves (none : ¬ m.PipeRoom p buf) :
    (∃ errno, (m.createPipe p buf).result = .error errno) ∧
      ¬ Unchanged m (m.createPipe p buf).machine := by
  have leaves {pipe : PipeId} {t : Machine} (free : (m.pipes pipe).inUse = false)
      (used : (t.pipes pipe).inUse = true) : ¬ Unchanged m t := fun unchanged => by
    rw [unchanged.pipesInUse, free] at used
    cases used
  unfold PipeRoom at none
  simp only [Classical.not_imp] at none
  obtain ⟨accessible, some, none⟩ := none
  unfold createPipe
  rw [if_neg (by simp [accessible])]
  cases found : m.allocatePipe with
  | none =>
    rw [found] at some
    cases some
  | some taken =>
    obtain ⟨pipe, piped⟩ := taken
    obtain ⟨free, made⟩ := allocatePipe_some found
    have piped_used : (piped.pipes pipe).inUse = true := by
      rw [made, setPipe_self]
    have sameStreams : piped.openStreams = m.openStreams := by
      rw [made]
      rfl
    dsimp only
    cases first : piped.allocateIoObject with
    | none => exact ⟨⟨_, rfl⟩, leaves free piped_used⟩
    | some taken =>
      obtain ⟨reader, readable⟩ := taken
      obtain ⟨_, rfl⟩ := allocateIoObject_some first
      dsimp only
      cases second : (piped.create (.stream reader)).allocateIoObject with
      | none => exact ⟨⟨_, rfl⟩, leaves free piped_used⟩
      | some taken =>
        have several : 2 ≤ freeEntries m.openStreams := by
          have one : freeEntries m.openStreams ≠ 0 := fun zero => by
            rw [← sameStreams, ← allocateIoObject_none, first] at zero
            cases zero
          have two : freeEntries m.openStreams ≠ 1 := fun single => by
            rw [← sameStreams, ← allocateIoObject_again first, second] at single
            cases single
          omega
        obtain ⟨born, linked⟩ := (Holding.start m p).link nofun found first second
        have single : freeEntries (m.openEntries p) = 1 := by
          by_contra other
          exact none ⟨several, other⟩
        have entries : (taken.2.linkEnds pipe reader taken.1).openEntries p = m.openEntries p := by
          unfold openEntries
          rw [linked.handed.restored]
        obtain ⟨failed, used⟩ := installEnds_leaves linked (entries ▸ single)
        exact ⟨failed, leaves free used⟩

/-- With two free entries and memory that can be written, a connection is handed over. -/
theorem takeConnection_ok {conn : Connection} {buf : Buffer}
    (plenty : 2 ≤ freeEntries (m.openEntries p)) (copied : buf.copied = true) :
    (m.takeConnection p conn buf).result = .ok 0 := by
  unfold takeConnection
  cases firstAt : m.allocateEnd p conn.serverRead true false with
  | none =>
    rw [allocateEnd_none.mp firstAt] at plenty
    exact absurd plenty (by decide)
  | some found =>
    obtain ⟨readFd, first⟩ := found
    simp only
    cases secondAt : first.allocateEnd p conn.serverWrite false true with
    | none => exact absurd ((allocateEnd_again firstAt).mp secondAt) (Nat.ne_of_gt plenty)
    | some found => simp only [copied, if_true]

theorem nativePortAccept_failed {handle : Nat} (room : m.AcceptRoom p handle buf)
    (failed : (m.nativePortAccept p handle buf).result = .error errno) :
    Unchanged m (m.nativePortAccept p handle buf).machine := by
  unfold nativePortAccept at failed ⊢
  split
  next port named =>
    simp only [named] at failed
    split
    · exact Unchanged.refl m
    rename_i accessible
    rw [if_neg accessible] at failed
    cases pending : (m.ports port).pending with
    | nil =>
      unfold portDequeue
      rw [pending]
      exact Unchanged.refl m
    | cons conn rest =>
      obtain ⟨plenty, copied⟩ := room port named (by simpa using accessible)
        (by rw [pending]; exact nofun)
      have taken : m.portDequeue port =
          some (conn, m.setPort port { m.ports port with pending := rest }) := by
        unfold portDequeue
        rw [pending]
      rw [taken] at failed
      have handed := @takeConnection_ok
        (m.setPort port { m.ports port with pending := rest }) p conn buf
        plenty copied
      exact absurd (handed.symm.trans failed) nofun
  · exact Unchanged.refl m

/-- The handle entry, if it is filled, names a stream. -/
def Machine.NamesStream (m : Machine) (p : Process) (fd : Fd) : Prop :=
  ∀ e, m.handles p fd = some e → ∃ str, e.object = .stream str

theorem Machine.allocateEnd_given {fd : Fd} {read write : Bool}
    (found : m.allocateEnd p str read write = some (fd, t)) : t.ports = m.ports ∧
      t.NamesStream p fd ∧ ∀ place, m.NamesStream p place → t.NamesStream p place := by
  obtain ⟨empty, rfl⟩ := allocateFd_some found
  have here : (m.installHandle p fd (.stream str) (objectAccessForOpenFlags read write)).handles p =
      update (m.handles p) fd (some ⟨.stream str, objectAccessForOpenFlags read write⟩) := by
    rw [installHandle_empty empty]
    exact update_self ..
  have own : (m.installHandle p fd (.stream str)
      (objectAccessForOpenFlags read write)).NamesStream p fd := by
    intro e filled
    rw [here, update_self] at filled
    exact ⟨str, by rw [← Option.some.inj filled]⟩
  refine ⟨by rw [installHandle_empty empty]; rfl, own, fun place named => ?_⟩
  by_cases same : place = fd
  · exact same ▸ own
  · intro e filled
    rw [here, update_of_ne same] at filled
    exact named e filled

theorem Machine.withdraw_keeps (m : Machine) (reader writer : StreamId) :
    (m.withdraw reader writer).ports = m.ports ∧ (m.withdraw reader writer).handles = m.handles :=
  ⟨((releaseStream_keepsPorts _).trans (releaseStream_keepsPorts _)).ports,
    ((releaseStream_keeps _).trans (releaseStream_keeps _)).handles⟩

/-- Closing an entry of a stream touches no port. -/
theorem Machine.NamesStream.close {fd : Fd} (named : m.NamesStream p fd) :
    (m.closeEntry p fd).ports = m.ports ∧
      ∀ place, m.NamesStream p place → (m.closeEntry p fd).NamesStream p place := by
  refine ⟨?_, fun place named e filled => named e ?_⟩
  · unfold closeEntry
    split
    · next e filled =>
      obtain ⟨str, stream⟩ := named e filled
      rw [stream]
      exact (releaseStream_keepsPorts str).ports
    · rfl
  · rw [(m.closeEntry_keeps p fd).2, update_self] at filled
    by_cases same : place = fd
    · rw [same, update_self] at filled
      cases filled
    · rwa [update_of_ne same] at filled

/-- A connection that is not handed over is withdrawn, and no port gets it back. -/
theorem takeConnection_loses {conn : Connection}
    (none : ¬ (2 ≤ freeEntries (m.openEntries p) ∧ buf.copied = true)) :
    (∃ errno, (m.takeConnection p conn buf).result = .error errno) ∧
      (m.takeConnection p conn buf).machine.ports = m.ports := by
  unfold takeConnection
  cases firstAt : m.allocateEnd p conn.serverRead true false with
  | none => exact ⟨⟨_, rfl⟩, (m.withdraw_keeps _ _).1⟩
  | some found =>
    obtain ⟨readFd, first⟩ := found
    obtain ⟨ports, reads, _⟩ := allocateEnd_given firstAt
    dsimp only
    cases secondAt : first.allocateEnd p conn.serverWrite false true with
    | none =>
      obtain ⟨kept, handles⟩ := first.withdraw_keeps conn.serverRead conn.serverWrite
      have named : (first.withdraw conn.serverRead conn.serverWrite).NamesStream p readFd := by
        unfold NamesStream
        rwa [handles]
      exact ⟨⟨_, rfl⟩, named.close.1.trans (kept.trans ports)⟩
    | some found =>
      obtain ⟨writeFd, second⟩ := found
      obtain ⟨more, writes, others⟩ := allocateEnd_given secondAt
      have uncopied : buf.copied = false := by
        have one : freeEntries (m.openEntries p) ≠ 0 := fun zero => by
          rw [← allocateEnd_none, firstAt] at zero
          cases zero
        have two : freeEntries (m.openEntries p) ≠ 1 := fun single => by
          rw [← allocateEnd_again firstAt, secondAt] at single
          cases single
        rw [← Bool.not_eq_true]
        exact fun copied => none ⟨by omega, copied⟩
      obtain ⟨kept, handles⟩ := second.withdraw_keeps conn.serverRead conn.serverWrite
      have named {fd : Fd} (named : second.NamesStream p fd) :
          (second.withdraw conn.serverRead conn.serverWrite).NamesStream p fd := by
        unfold NamesStream
        rwa [handles]
      have closed := (named (others readFd reads)).close
      dsimp only
      rw [uncopied, if_neg (by decide)]
      refine ⟨⟨_, rfl⟩, ?_⟩
      exact ((closed.2 writeFd (named writes)).close.1.trans closed.1).trans
        (kept.trans (more.trans ports))

theorem nativePortAccept_loses {handle : Nat} (none : ¬ m.AcceptRoom p handle buf) :
    (∃ errno, (m.nativePortAccept p handle buf).result = .error errno) ∧
      ¬ Unchanged m (m.nativePortAccept p handle buf).machine := by
  unfold AcceptRoom at none
  simp only [not_forall] at none
  obtain ⟨port, named, accessible, queued, none⟩ := none
  obtain ⟨conn, rest, pending⟩ := List.exists_cons_of_ne_nil queued
  have taken : m.portDequeue port =
      some (conn, m.setPort port { m.ports port with pending := rest }) := by
    unfold portDequeue
    rw [pending]
  unfold nativePortAccept
  simp only [named, accessible, taken]
  rw [if_neg (by decide)]
  obtain ⟨failed, ports⟩ := @takeConnection_loses (m.setPort port _) p buf conn none
  refine ⟨failed, fun unchanged => ?_⟩
  have same := congrFun (ports.symm.trans unchanged.ports) port
  have short := congrArg (fun r => r.pending.length) same
  change (update m.ports port _ port).pending.length = _ at short
  rw [update_self, pending] at short
  simp at short

end SavanXP.Objects
