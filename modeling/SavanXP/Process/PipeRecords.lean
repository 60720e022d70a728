import SavanXP.Process.PipeGuarantees

/-!
# Records through a pipe

When every write offers one record of a fixed size without blocking and every
read asks for one, the ring holds whole records whenever somebody looks.  The
logs are then lists of records: `writes` those accepted, each with its call,
and `reads` the calls they were handed to, in the same order.
-/

namespace SavanXP.Pipes

open SavanXP.Library List
open SavanXP.Library.Fallible

variable {m t : Machine} {size call index mapped depth : Nat} {data : List UInt8}
  {writes : List (Nat × List UInt8)} {reads : List Nat}

/-! ## Logs of records -/

/-- The bytes of records, each with the call of its record. -/
def tagged (recs : List (Nat × List UInt8)) : List (Nat × UInt8) :=
  recs.flatMap fun r => r.2.map fun byte => (r.1, byte)

/-- The records that went to readers. -/
def handed (reads : List Nat) (writes : List (Nat × List UInt8)) : List (Nat × List UInt8) :=
  zipWith (fun reader r => (reader, r.2)) reads writes

theorem tagged_append (first rest : List (Nat × List UInt8)) :
    tagged (first ++ rest) = tagged first ++ tagged rest :=
  flatMap_append

theorem tagged_singleton (call : Nat) (r : List UInt8) :
    tagged [(call, r)] = r.map fun byte => (call, byte) :=
  append_nil _

theorem tagged_values (recs : List (Nat × List UInt8)) :
    (tagged recs).map Prod.snd = recs.flatMap Prod.snd := by
  induction recs with
  | nil => rfl
  | cons r rest ih =>
    have one := values_tagged r.2 r.1
    unfold tagged at ih ⊢
    rw [flatMap_cons, map_append, ih, one, flatMap_cons]

theorem handed_values (reads : List Nat) (writes : List (Nat × List UInt8)) :
    (handed reads writes).flatMap Prod.snd = (writes.take reads.length).flatMap Prod.snd := by
  induction reads generalizing writes with
  | nil => rfl
  | cons reader rest ih =>
    cases writes with
    | nil => rfl
    | cons r others =>
      have tail := ih others
      unfold handed at tail ⊢
      rw [zipWith_cons_cons, flatMap_cons, tail, length_cons, take_succ_cons, flatMap_cons]

/-- New records do not change what was handed out. -/
theorem handed_append_writes (fewer : reads.length ≤ writes.length)
    (more : List (Nat × List UInt8)) :
    handed reads (writes ++ more) = handed reads writes := by
  induction reads generalizing writes with
  | nil => rfl
  | cons reader rest ih =>
    cases writes with
    | nil => exact absurd fewer (Nat.not_succ_le_zero _)
    | cons r others =>
      have tail := ih (Nat.le_of_succ_le_succ fewer)
      unfold handed at tail ⊢
      rw [cons_append, zipWith_cons_cons, tail, zipWith_cons_cons]

variable {r : Nat × List UInt8}

/-- The next reader gets the next record. -/
theorem handed_append_read (next : writes[reads.length]? = some r)
    (call : Nat) : handed (reads ++ [call]) writes = handed reads writes ++ [(call, r.2)] := by
  induction reads generalizing writes with
  | nil =>
    cases writes with
    | nil => cases next
    | cons first others =>
      cases next
      rfl
  | cons reader rest ih =>
    cases writes with
    | nil => cases next
    | cons first others =>
      have tail := @ih others next
      unfold handed at tail ⊢
      rw [cons_append, zipWith_cons_cons, tail, zipWith_cons_cons, cons_append]

/-- A call with a record has bytes in the log. -/
theorem tagged_entries {recs : List (Nat × List UInt8)} {r : List UInt8}
    (mem : (call, r) ∈ recs) (pos : 0 < r.length) : entriesOf (tagged recs) call ≠ [] := by
  intro empty
  obtain ⟨byte, inRecord⟩ := exists_mem_of_length_pos pos
  have logged : (call, byte) ∈ tagged recs :=
    mem_flatMap.mpr ⟨(call, r), mem, mem_map.mpr ⟨byte, inRecord, rfl⟩⟩
  have found := mem_entriesOf logged
  rw [empty] at found
  cases found

theorem handed_mem {place : Nat} (reader : reads[place]? = some call)
    (written : writes[place]? = some r) : (call, r.2) ∈ handed reads writes := by
  apply mem_of_getElem? (i := place)
  unfold handed
  rw [getElem?_zipWith, reader, written]

/-! ## The invariant -/

def RecordRequest (size : Nat) : Request → Prop
  | .read capacity _ => capacity = size
  | .write data nonblock => data.length = size ∧ nonblock = true

/-- What a call on records may return: a write its size with the record
accepted, or an error with nothing accepted; a read its size with one record in
its buffer, zero when no writer is left, or an error with nothing consumed. -/
def RecordOutcome (size : Nat) (writes : List (Nat × List UInt8)) (reads : List Nat)
    (m : Machine) (call : Nat) (res : Int) : Prop :=
  match m.requests[call]? with
  | none => False
  | some (.write data _) =>
    (res = size ∧ (call, data) ∈ writes) ∨
      ((res = negativeError tryAgain ∨ res = negativeError brokenPipe ∨
        res = negativeError invalidArgument) ∧ call ∉ writes.map Prod.fst)
  | some (.read _ _) =>
    (res = size ∧ ∃ (place : Nat) (r : Nat × List UInt8), reads[place]? = some call ∧
      writes[place]? = some r ∧ (m.memory call).take size = r.2) ∨
    (res = 0 ∧ m.pipe.writerRefs = 0 ∧ call ∉ reads) ∨
    (res < 0 ∧ call ∉ reads)

structure Records (size : Nat) (writes : List (Nat × List UInt8)) (reads : List Nat)
    (m : Machine) : Prop where
  requests : ∀ req ∈ m.requests, RecordRequest size req
  accepted : m.accepted = tagged writes
  delivered : m.delivered = tagged (handed reads writes)
  sizes : ∀ r ∈ writes, r.2.length = size
  fewer : reads.length ≤ writes.length
  writers : (writes.map Prod.fst).Nodup
  readers : reads.Nodup
  outcomes : ∀ call res, (call, res) ∈ m.returned →
    RecordOutcome size writes reads m call res

section

variable (recs : Records size writes reads m)
include recs

/-- Threads and the ring do not matter to the logs. -/
theorem Records.congr (requests : t.requests = m.requests) (accepted : t.accepted = m.accepted)
    (delivered : t.delivered = m.delivered) (returned : t.returned = m.returned)
    (memory : t.memory = m.memory) (closed : m.pipe.writerRefs = 0 → t.pipe.writerRefs = 0) :
    Records size writes reads t := by
  refine { recs with
    requests := requests ▸ recs.requests, accepted := accepted.trans recs.accepted
    delivered := delivered.trans recs.delivered, outcomes := ?_ }
  intro call res mem
  rw [returned] at mem
  have out := recs.outcomes call res mem
  unfold RecordOutcome at out ⊢
  rw [requests, memory]
  split at out
  · exact out
  · exact out
  exact out.imp_right (·.imp_left fun ⟨zero, gone, unread⟩ => ⟨zero, closed gone, unread⟩)

omit recs in
/-- A call that has returned nothing has no result in the log. -/
theorem unreturned (results : (account m call).results = []) {res : Int} :
    (call, res) ∉ m.returned := by
  intro mem
  have found := mem_entriesOf mem
  rw [show entriesOf m.returned call = [] from results] at found
  cases found

theorem Records.unwritten (pos : 0 < size)
    (empty : (account m call).accepted = []) : call ∉ writes.map Prod.fst := by
  intro mem
  obtain ⟨r, ins, same⟩ := mem_map.mp mem
  have found : (call, r.2) ∈ writes := by
    rw [← same]
    exact ins
  apply tagged_entries found (by rw [recs.sizes r ins]; exact pos)
  rw [← recs.accepted]
  exact empty

theorem Records.unread (pos : 0 < size)
    (empty : (account m call).delivered = []) : call ∉ reads := by
  intro mem
  obtain ⟨place, reader⟩ := getElem?_of_mem mem
  have ins : place < writes.length := by
    obtain ⟨bound, _⟩ := List.getElem?_eq_some_iff.mp reader
    exact bound.trans_le recs.fewer
  have written : writes[place]? = some writes[place] := getElem?_eq_getElem ins
  have sizeOf := recs.sizes writes[place] (getElem_mem ins)
  apply tagged_entries (handed_mem reader written) (by rw [sizeOf]; exact pos)
  rw [← recs.delivered]
  exact empty

/-! ## Moves -/

/-- One more record is accepted. -/
theorem Records.accept (fits : data.length = size) (unused : call ∉ writes.map Prod.fst)
    (results : (account m call).results = [])
    (effect : t = { m with
      pipe := t.pipe, threads := t.threads,
      accepted := m.accepted ++ data.map fun byte => (call, byte) })
    (refs : t.pipe.writerRefs = m.pipe.writerRefs) :
    Records size (writes ++ [(call, data)]) reads t := by
  have requests : t.requests = m.requests := by rw [effect]
  have memory : t.memory = m.memory := by rw [effect]
  refine ⟨?_, ?_, ?_, ?_, ?_, ?_, recs.readers, ?_⟩
  · rw [requests]
    exact recs.requests
  · rw [effect, tagged_append, tagged_singleton, ← recs.accepted]
  · rw [handed_append_writes recs.fewer, ← recs.delivered, effect]
  · exact forall_mem_append.mpr ⟨recs.sizes, forall_mem_singleton.mpr fits⟩
  · rw [length_append]
    exact Nat.le_trans recs.fewer (Nat.le_add_right _ _)
  · rw [map_append, map_singleton, ← concat_eq_append]
    exact recs.writers.concat unused
  · intro o res mem
    rw [effect] at mem
    have ne : o ≠ call := fun same => unreturned results (same ▸ mem)
    have out := recs.outcomes o res mem
    unfold RecordOutcome at out ⊢
    rw [requests, memory, refs]
    split at out
    · exact out
    · rcases out with ⟨whole, written⟩ | ⟨failed, none⟩
      · exact .inl ⟨whole, mem_append_left _ written⟩
      refine .inr ⟨failed, ?_⟩
      rw [map_append, mem_append, not_or]
      refine ⟨none, ?_⟩
      rw [map_singleton, mem_singleton]
      exact ne
    · rcases out with ⟨whole, place, r, reader, written, buf⟩ | rest
      · refine .inl ⟨whole, place, r, reader, ?_, buf⟩
        obtain ⟨bound, _⟩ := List.getElem?_eq_some_iff.mp written
        rw [getElem?_append_left bound]
        exact written
      · exact .inr rest

/-- The buffer of a call that has not returned may change. -/
theorem Records.setBuffer (results : (account m call).results = []) (buf : List UInt8) :
    Records size writes reads (m.setBuffer call buf) := by
  refine { recs with outcomes := ?_ }
  intro o res mem
  have ne : o ≠ call := fun same => unreturned results (same ▸ mem)
  have out := recs.outcomes o res mem
  have memory : (m.setBuffer call buf).memory o = m.memory o := Function.update_of_ne ne _ _
  unfold RecordOutcome at out ⊢
  rw [memory]
  exact out

/-- The next record goes to a reader. -/
theorem Records.consume (next : writes[reads.length]? = some r) (unused : call ∉ reads)
    (held : m.held.take size = r.2) (results : (account m call).results = []) :
    Records size writes (reads ++ [call]) (m.consume call size) := by
  obtain ⟨bound, _⟩ := List.getElem?_eq_some_iff.mp next
  refine { recs with delivered := ?_, fewer := ?_, readers := ?_, outcomes := ?_ }
  · rw [handed_append_read next, tagged_append, tagged_singleton, ← recs.delivered, ← held]
    rfl
  · rw [length_append, length_singleton]
    exact bound
  · rw [← concat_eq_append]
    exact recs.readers.concat unused
  intro o res mem
  have ne : o ≠ call := fun same => unreturned results (same ▸ mem)
  have out := recs.outcomes o res mem
  have fresh : ∀ reader, reader ∉ reads → reader ≠ call → reader ∉ reads ++ [call] := by
    intro reader pre apart
    rw [mem_append, mem_singleton, not_or]
    exact ⟨pre, apart⟩
  unfold RecordOutcome at out ⊢
  change match m.requests[o]? with | none => _ | some (.write _ _) => _ | some (.read _ _) => _
  split at out
  · exact out
  · exact out
  rcases out with ⟨whole, place, found, reader, written, buf⟩ | ⟨zero, gone, unread⟩ |
    ⟨failed, unread⟩
  · refine .inl ⟨whole, place, found, ?_, written, buf⟩
    obtain ⟨ins, _⟩ := List.getElem?_eq_some_iff.mp reader
    rw [getElem?_append_left ins]
    exact reader
  · exact .inr (.inl ⟨zero, gone, fresh o unread ne⟩)
  · exact .inr (.inr ⟨failed, fresh o unread ne⟩)

/-- A call returns. -/
theorem Records.answer {res : Int} (out : RecordOutcome size writes reads m call res) :
    Records size writes reads (m.answer call res) := by
  refine { recs with outcomes := ?_ }
  intro o v mem
  rcases mem_append.mp mem with old | new
  · exact recs.outcomes o v old
  · cases mem_singleton.mp new
    exact out

/-! ## What the ring holds -/

/-- The ring holds the records not handed out yet. -/
theorem Records.held (str : Stream m) (used : m.pipe.inUse = true) :
    m.held = (writes.drop reads.length).flatMap Prod.snd := by
  have whole := str.2 used
  rw [recs.accepted, recs.delivered, tagged_values, tagged_values, handed_values] at whole
  have split : writes.flatMap Prod.snd =
      (writes.take reads.length).flatMap Prod.snd ++
        (writes.drop reads.length).flatMap Prod.snd := by
    rw [← flatMap_append, take_append_drop]
  rw [split] at whole
  exact append_cancel_left whole

/-- A ring with something in it begins with a whole record. -/
theorem Records.next (str : Stream m) (used : m.pipe.inUse = true) (filled : 0 < m.size) :
    ∃ r, writes[reads.length]? = some r ∧ m.held.take size = r.2 ∧ size ≤ m.size := by
  have held := recs.held str used
  cases rest : writes.drop reads.length with
  | nil =>
    rw [rest] at held
    have empty := congrArg length held
    rw [held_length] at empty
    exact absurd empty (Nat.ne_of_gt filled)
  | cons r others =>
    have found : writes[reads.length]? = some r := by
      have first := congrArg (·[0]?) rest
      simp only [getElem?_drop, Nat.add_zero, getElem?_cons_zero] at first
      exact first
    have sizeOf := recs.sizes r (mem_of_getElem? found)
    rw [rest, flatMap_cons] at held
    refine ⟨r, found, ?_, ?_⟩
    · rw [held]
      exact take_left' sizeOf
    · rw [← held_length, held, length_append, sizeOf]
      exact Nat.le_add_right _ _

/-- A read of one record that is not to wait gets one, or nothing. -/
theorem Records.served {out : Outcome}
    (integrity : Integrity m) (used : m.pipe.inUse = true) (pos : 0 < size)
    (req : ∃ nonblock, m.requests[call]? = some (.read size nonblock))
    (results : (account m call).results = []) (empty : (account m call).delivered = [])
    (tried : ReadServed m call mapped size out t) :
    ∃ reads', Records size writes reads' t ∧ t.pipe.writerRefs = m.pipe.writerRefs ∧
      ∀ res, out = .done res → RecordOutcome size writes reads' t call res := by
  obtain ⟨nonblock, requested⟩ := req
  have unread := recs.unread pos empty
  have ended : ∀ {s : Machine} {res : Int}, s.requests = m.requests →
      (res = 0 ∧ s.pipe.writerRefs = 0 ∨ res < 0) →
      RecordOutcome size writes reads s call res := by
    intro s res same sign
    unfold RecordOutcome
    rw [same, requested]
    rcases sign with ⟨zero, gone⟩ | negative
    · exact .inr (.inl ⟨zero, gone, unread⟩)
    · exact .inr (.inr ⟨negative, unread⟩)
  cases tried with
  | ends atOnce =>
    cases atOnce with
    | unused free =>
      rw [used] at free
      cases free
    | nothing none => omega
    | ended _ closed =>
      refine ⟨reads, recs, rfl, ?_⟩
      rintro _ ⟨⟩
      exact ended rfl (.inl ⟨rfl, closed⟩)
    | waits _ _ => exact ⟨reads, recs, rfl, nofun⟩
    | refused buf beyond =>
      refine ⟨reads, recs.setBuffer results buf, rfl, ?_⟩
      rintro _ ⟨⟩
      exact ended rfl (.inr (by decide))
  | served _ filled _ =>
    obtain ⟨r, next, first, enough⟩ := recs.next integrity.stream used filled
    have whole : min size m.size = size := Nat.min_eq_left enough
    rw [whole]
    have buffered := recs.setBuffer results
      (m.held.take size ++ (m.memory call).drop size)
    refine ⟨reads ++ [call], buffered.consume next unread first results, rfl, ?_⟩
    rintro _ ⟨⟩
    change match m.requests[call]? with
      | none => _ | some (.write _ _) => _ | some (.read _ _) => _
    rw [requested]
    refine .inl ⟨rfl, reads.length, r, ?_, next, ?_⟩
    · rw [getElem?_append_right le_rfl, Nat.sub_self]
      rfl
    have memory : (m.deliver call size).memory call =
        m.held.take size ++ (m.memory call).drop size :=
      setBuffer_memory m call _
    have length : (m.held.take size).length = size := by
      rw [length_take, held_length]
      omega
    rw [memory, ← first]
    exact take_left' length

end

/-! ## Calls on records -/

def RecordLog (size : Nat) (m : Machine) : Prop :=
  ∃ writes reads, Records size writes reads m

/-- A new call for one record. -/
theorem Records.enter (recs : Records size writes reads m) {req : Request}
    (uniform : RecordRequest size req) : Records size writes reads (m.enter req) := by
  refine { recs with requests := ?_, outcomes := ?_ }
  · exact forall_mem_append.mpr ⟨recs.requests, forall_mem_singleton.mpr uniform⟩
  · intro call res mem
    have out := recs.outcomes call res mem
    have requests : (m.enter req).requests[call]? = m.requests[call]? := by
      rcases Nat.lt_or_ge call m.requests.length with ins | outside
      · exact getElem?_append_left ins
      · unfold RecordOutcome at out
        rw [getElem?_eq_none outside] at out
        exact absurd out id
    unfold RecordOutcome at out ⊢
    rw [requests]
    exact out

/-- Writes that do not block leave no writer parked. -/
theorem Records.quietWriters (recs : Records size writes reads m)
    (integrity : Integrity m) : Quiet m .blockedWrite := by
  by_contra busy
  obtain ⟨index, _, parked⟩ := not_quiet busy
  have req := (integrity.waitingWriter parked).2.2.1
  have uniform := recs.requests _ (mem_of_getElem? req)
  cases uniform.2

variable (depth : Nat)

/-- A pass over the readers hands out whole records. -/
theorem wake_readers_records (recs : Records size writes reads m)
    (integrity : Integrity m) (used : m.pipe.inUse = true) (pos : 0 < size) :
    wp (wake (depth + 2) .readers) (fun _ t => Integrity t ∧ Frame m t ∧
        ∃ reads', Records size writes reads' t) (fun _ => False) m := by
  refine (@wp_wake_readers m depth (fun t => Integrity t ∧ Frame m t ∧
    ∃ reads', Records size writes reads' t) ?_ ?_ ?_).imp fun _ _ held => held.1
  · rintro s ⟨right, _, _, logged⟩
    exact ⟨right.ok, logged.quietWriters right⟩
  · rintro s index res t _ ⟨right, frame, earlier, logged⟩ parked served
    have usedStill : s.pipe.inUse = true := by
      rw [frame.refs]
      exact used
    obtain ⟨rightLater, step⟩ := right.serveReader usedStill parked served
    obtain ⟨_, results, _, req, empty⟩ := right.waitingReader parked
    have threads := served.shrinks.2.1
    have capacity : (s.threads index).readCapacity = size := logged.requests _ (mem_of_getElem? req)
    rw [capacity] at served req
    obtain ⟨reads', loggedLater, refs, out⟩ :=
      logged.served right usedStill pos ⟨false, req⟩ results empty served
    have answered := loggedLater.answer (out res rfl)
    refine ⟨rightLater, frame.trans step, reads', ?_⟩
    apply answered.congr
    · rfl
    · rfl
    · rfl
    · change t.returned ++ [((t.threads index).call, res)] = _
      rw [threads]
      rfl
    · rfl
    · exact fun closed => closed
  · exact ⟨integrity, Frame.refl m, reads, recs⟩

/-- A read of one record. -/
theorem nativeRead_records {nonblock : Bool} (ok : Sound m)
    (recs : Records size writes reads m) (pos : 0 < size)
    (ready : ¬ Blocked m index) (opened : m.pipe.readerRefs ≠ 0) :
    wp (nativeRead (wake (depth + 2) .writers) index size mapped nonblock)
      (fun _ => RecordLog size) (fun _ => False) m := by
  have used := @Integrity.used _ ok.integrity .readers opened
  obtain ⟨integrity, running, _, empty⟩ := ok.integrity.enter ready (.read size nonblock)
  have entered : Records size writes reads (m.enter (.read size nonblock)) := recs.enter rfl
  unfold nativeRead
  rw [wp_bind, wp_get, wp_bind, wp_update, if_neg (by omega)]
  have usedStart : (m.enter (.read size nonblock)).pipe.inUse = true := used
  generalize m.requests.length = call at *
  generalize m.enter (.read size nonblock) = start at *
  have failed : ∀ {res : Int}, res < 0 → RecordOutcome size writes reads start call res := by
    intro res negative
    unfold RecordOutcome
    rw [show start.requests[call]? = _ from running.request]
    exact .inr (.inr ⟨negative, entered.unread pos empty⟩)
  split
  · exact ⟨writes, reads, entered.answer (failed (by decide))⟩
  rw [wp_bind]
  apply (wp_tryPipeRead_quiet (depth + 1) integrity.ok (entered.quietWriters integrity)).imp
  intro out t tried
  obtain ⟨reads', logged, _, outcomes⟩ :=
    entered.served integrity usedStart pos ⟨nonblock, running.request⟩ running.results empty tried
  cases out with
  | done res => exact ⟨writes, reads', logged.answer (outcomes res rfl)⟩
  | blocked =>
    have same : t = start := by
      cases tried with
      | ends atOnce =>
        cases atOnce with
        | waits _ _ => rfl
    subst same
    cases nonblock with
    | true => exact ⟨writes, reads, entered.answer (failed (by decide))⟩
    | false => exact ⟨writes, reads, entered.congr rfl rfl rfl rfl rfl id⟩

/-- A write of one record went in whole and returned its size, or it returned
an error and the pipe is as before. -/
def WholeOrNothing (size mapped : Nat) (pre after : Machine) : Prop :=
  ∃ res, (pre.requests.length, res) ∈ after.returned ∧
    (res = size ∨ ((res = negativeError tryAgain ∨ res = negativeError brokenPipe ∨
          (mapped < size ∧ res = negativeError invalidArgument)) ∧
        after.pipe = pre.pipe ∧ after.threads = pre.threads ∧
        after.accepted = pre.accepted ∧ after.delivered = pre.delivered))

theorem answered_mem (m : Machine) (call : Nat) (res : Int) :
    (call, res) ∈ (m.answer call res).returned :=
  mem_append_right _ (mem_singleton.mpr rfl)

/-- A write of one record. -/
theorem nativeWrite_records (depth mapped : Nat) (ok : Sound m)
    (recs : Records size writes reads m) (pos : 0 < size)
    (fits : size ≤ pipeCapacity) (ready : ¬ Blocked m index)
    (opened : m.pipe.writerRefs ≠ 0) (whole : data.length = size) :
    wp (nativeWrite (wake (depth + 2) .readers) index data mapped true)
      (fun _ t => RecordLog size t ∧ WholeOrNothing size mapped m t) (fun _ => False) m := by
  have used := @Integrity.used _ ok.integrity .writers opened
  obtain ⟨integrity, running, empty, _⟩ := ok.integrity.enter ready (.write data true)
  have entered : Records size writes reads (m.enter (.write data true)) := recs.enter ⟨whole, rfl⟩
  have usedStart : (m.enter (.write data true)).pipe.inUse = true := used
  have unwritten := entered.unwritten pos empty
  have failed : ∀ {res : Int}, (res = negativeError tryAgain ∨
      res = negativeError brokenPipe ∨ (mapped < size ∧ res = negativeError invalidArgument)) →
      RecordLog size ((m.enter (.write data true)).answer m.requests.length res) ∧
        WholeOrNothing size mapped m
          ((m.enter (.write data true)).answer m.requests.length res) := by
    intro res error
    refine ⟨⟨writes, reads, entered.answer ?_⟩,
      res, answered_mem _ _ _, .inr ⟨error, rfl, rfl, rfl, rfl⟩⟩
    unfold RecordOutcome
    rw [show (m.enter (.write data true)).requests[m.requests.length]? = _ from running.request]
    refine .inr ⟨?_, unwritten⟩
    exact error.imp_right (·.imp_right And.right)
  unfold nativeWrite
  rw [wp_bind, wp_get, wp_bind, wp_update, if_neg (by omega)]
  split
  · next beyond => exact failed (.inr (.inr ⟨whole ▸ beyond, rfl⟩))
  next beyond =>
  cases refusal : refusedWhole m data.length true with
  | true =>
    exact failed (.inl rfl)
  | false =>
    rw [if_neg (by decide), wp_bind]
    apply wp_pipeWriteChunk integrity.ok (Nat.zero_le _)
    · intro out t ends
      cases ends with
      | broken closed => exact failed (.inr (.inl rfl))
      | nothing zero => omega
      | waits reader full => exact failed (.inl rfl)
      | refused taken ring bound takes far =>
        unfold writableBytes at far
        omega
    · intro ring reader room takes
      have roomy : size ≤ pipeCapacity - (m.enter (.write data true)).size := by
        unfold refusedWhole at refusal
        have short : data.length ≤ pipeCapacity := by omega
        have noRefusal : ¬ pipeCapacity - m.size < data.length := by
          simpa [short, show m.pipe.readerRefs ≠ 0 from reader] using refusal
        change size ≤ pipeCapacity - m.size
        omega
      have total : writableBytes (m.enter (.write data true)) data.length 0 = size := by
        unfold writableBytes
        omega
      have bytes : chunk (m.enter (.write data true)) data 0 = data := by
        rw [chunk, total, ← whole, drop_zero, take_length]
      rw [bytes] at takes ⊢
      have accepted : Records size (writes ++ [(m.requests.length, data)]) reads
          ((m.enter (.write data true)).accepting ring m.requests.length data) :=
        entered.accept whole unwritten running.results rfl rfl
      have effect : Effect (m.enter (.write data true)) m.requests.length
          (data.take data.length) [] (m.memory m.requests.length)
          ((m.enter (.write data true)).accepting ring m.requests.length data) := by
        rw [take_length]
        exact Effect.accepting takes ..
      obtain ⟨right, runningLater⟩ := integrity.writeFor usedStart running empty effect
      apply (wake_readers_records depth accepted right usedStart pos).imp
      rintro _ t ⟨rightLater, frame, reads', logged⟩
      have requests := (frame.accounts _ runningLater.alone)
      rw [wp_update, total, settleWrite_done, if_pos (.inr rfl)]
      refine ⟨⟨_, reads', logged.answer ?_⟩, size, answered_mem _ _ _, .inl rfl⟩
      unfold RecordOutcome
      rw [show t.requests[m.requests.length]? = _ from
        (congrArg Account.request requests).trans runningLater.request]
      exact .inl ⟨rfl, mem_append_right _ (mem_singleton.mpr rfl)⟩

/-! ## Runs on records -/

/-- Writes offer one record without blocking and reads ask for one. -/
def Event.Uniform (size : Nat) : Event → Prop
  | .read _ capacity _ _ => capacity = size
  | .write _ data _ nonblock => data.length = size ∧ nonblock = true
  | _ => True

theorem Event.Uniform.tame {event : Event} (uniform : event.Uniform size) (m : Machine) :
    event.Tame m := by
  cases event with
  | write index data mapped nonblock =>
    intro blocking
    rw [uniform.2] at blocking
    cases blocking
  | _ => trivial

section

variable (recs : Records size writes reads m)
include recs

theorem freePipeIfUnused_records : Records size writes reads (freePipeIfUnused m) := by
  unfold freePipeIfUnused
  split
  · exact recs.congr rfl rfl rfl rfl rfl (fun _ => rfl)
  · exact recs

theorem dropReader_records : Records size writes reads (dropReader m) := by
  unfold dropReader
  dsimp only
  split <;> exact recs.congr rfl rfl rfl rfl rfl id

theorem dropWriter_records
    (opened : m.pipe.writerRefs ≠ 0) : Records size writes reads (dropWriter m) := by
  unfold dropWriter
  dsimp only
  split <;> exact recs.congr rfl rfl rfl rfl rfl fun gone => absurd gone opened

end

/-- Every call keeps the logs lists of records. -/
theorem step_records (ok : Sound m) (logged : RecordLog size m)
    (pos : 0 < size) (fits : size ≤ pipeCapacity) (event : Event) (uniform : event.Uniform size) :
    wp (step (depth + 2) event) (fun _ => RecordLog size) (fun _ => False) m := by
  obtain ⟨writes, reads, recs⟩ := logged
  cases event with
  | read index capacity mapped nonblock =>
    cases uniform
    unfold step
    rw [wp_bind, wp_get]
    split
    · next can =>
      obtain ⟨ready, opened⟩ := canCall_spec can
      exact nativeRead_records depth ok recs pos ready opened
    · exact ⟨writes, reads, recs⟩
  | write index data mapped nonblock =>
    obtain ⟨whole, nonblocking⟩ := uniform
    subst nonblocking
    unfold step
    rw [wp_bind, wp_get]
    split
    · next can =>
      obtain ⟨ready, opened⟩ := canCall_spec can
      exact (nativeWrite_records depth mapped ok recs pos fits ready opened whole).imp
        fun _ _ held => held.1
    · exact ⟨writes, reads, recs⟩
  | closeDescriptor | unmap =>
    exact ⟨writes, reads, recs.congr rfl rfl rfl rfl rfl id⟩
  | closeReader =>
    unfold step
    rw [wp_bind, wp_get]
    split
    · exact ⟨writes, reads, recs⟩
    next closed =>
    rw [wp_bind, wp_update, wp_bind]
    have used := @Integrity.used _ ok.integrity .readers closed
    have integrity := (dropReader_dropped m).integrity ok.integrity used
    have dropped := dropReader_records recs
    apply @wp_wake_quiet _ _ _ _ .writers (dropped.quietWriters integrity)
    exact ⟨writes, reads, freePipeIfUnused_records dropped⟩
  | closeWriter =>
    unfold step
    rw [wp_bind, wp_get]
    split
    · exact ⟨writes, reads, recs⟩
    next closed =>
    rw [wp_bind, wp_update, wp_bind]
    have used := @Integrity.used _ ok.integrity .writers closed
    have facts := dropWriter_dropped m
    have integrity := facts.integrity ok.integrity used
    have usedStart := facts.used.trans used
    have dropped := dropWriter_records recs closed
    apply (wake_readers_records depth dropped integrity usedStart pos).imp
    rintro _ t ⟨_, _, reads', recordsLater⟩
    exact ⟨writes, reads', freePipeIfUnused_records recordsLater⟩

theorem run_records (events : List Event) (pos : 0 < size)
    (fits : size ≤ pipeCapacity) (uniform : ∀ event ∈ events, event.Uniform size)
    (ok : Sound m) (logged : RecordLog size m) :
    wp (run (depth + 2) events) (fun _ t => Sound t ∧ RecordLog size t) (fun _ => False) m := by
  induction events generalizing m with
  | nil => exact ⟨ok, logged⟩
  | cons event rest ih =>
    have one := uniform event mem_cons_self
    have stepped := (step_sound depth ok event (one.tame m)).and
      (step_records depth ok logged pos fits event one)
    rw [run, wp_bind]
    exact stepped.imp fun _ _ held => ih (forall_mem_cons.mp uniform).2 held.1 held.2

theorem opened_records (cells : Nat → UInt8) : RecordLog size (opened cells) :=
  ⟨[], [], nofun, rfl, rfl, nofun, le_rfl, nodup_nil, nodup_nil, nofun⟩

/-- Records go through a pipe whole: over every run of record reads and writes
the logs are lists of records, handed out once each in the order they were
accepted, the ring holds the others, and the next write goes in whole or
changes nothing. -/
theorem records_are_atomic (size : Nat) (positive : 0 < size) (fits : size ≤ 8192) (depth : Nat)
    (cells : Nat → UInt8) (events : List Event) (uniform : ∀ event ∈ events, event.Uniform size) :
    ∃ later writes reads, run (depth + 2) events (opened cells) = (some (), later) ∧
      Records size writes reads later ∧
      (later.pipe.inUse = true → later.held = (writes.drop reads.length).flatMap Prod.snd) ∧
      ∀ index data mapped, data.length = size → canCall later index later.pipe.writerRefs = true →
        ∃ after, step (depth + 2) (.write index data mapped true) later = (some (), after) ∧
          RecordLog size after ∧ WholeOrNothing size mapped later after := by
  have room : size ≤ pipeCapacity := by
    unfold pipeCapacity
    exact fits
  obtain ⟨_, later, ran, sound, writes, reads, records⟩ :=
    (run_records depth events positive room uniform (opened_sound cells)
      (opened_records cells)).gives
  refine ⟨later, writes, reads, ran, records, records.held sound.integrity.stream, ?_⟩
  intro index data mapped whole can
  obtain ⟨ready, opened⟩ := canCall_spec can
  obtain ⟨_, after, wrote, held⟩ :=
    (nativeWrite_records depth mapped sound records positive room ready opened whole).gives
  refine ⟨after, ?_, held⟩
  change (if canCall later index later.pipe.writerRefs = true then _ else _ : Call Unit) later = _
  rw [if_pos can]
  exact wrote

/-- A reader waits for a record of two bytes and a writer brings one. -/
theorem records_are_atomic_two_bytes :
    0 < 2 ∧ 2 ≤ 8192 ∧
      (∀ event ∈ [Event.read 0 2 2 false, .write 1 [5, 6] 2 true], event.Uniform 2) ∧
      ∃ later writes reads,
        run 2 [.read 0 2 2 false, .write 1 [5, 6] 2 true] (opened fun _ => 0) = (some (), later) ∧
        Records 2 writes reads later ∧
        (later.pipe.inUse = true → later.held = (writes.drop reads.length).flatMap Prod.snd) ∧
        ∀ index data mapped, data.length = 2 → canCall later index later.pipe.writerRefs = true →
          ∃ after, step 2 (.write index data mapped true) later = (some (), after) ∧
            RecordLog 2 after ∧ WholeOrNothing 2 mapped later after := by
  have uniform : ∀ event ∈ [Event.read 0 2 2 false, .write 1 [5, 6] 2 true], event.Uniform 2 := by
    intro event member
    rcases mem_cons.mp member with first | rest
    · rw [first]
      rfl
    · rw [mem_singleton.mp rest]
      exact ⟨rfl, rfl⟩
  exact ⟨by decide, by decide, uniform,
    records_are_atomic 2 (by decide) (by decide) 0 (fun _ => 0) _ uniform⟩

end SavanXP.Pipes
