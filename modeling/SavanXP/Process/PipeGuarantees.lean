import SavanXP.Process.PipeRuns

/-!
# What readers and writers of a pipe can rely on

Bytes come out in the order they went in, and no thread stays parked on a pipe
that could serve it, over every run in which no blocking write longer than the
ring meets a parked reader.  Such a write parks on the ring its reader has just
emptied; a second reader parks beside it, and from then on the two serve each
other without end inside the next call.
-/

namespace SavanXP.Pipes

open SavanXP.Library List Function Machine
open SavanXP.Library.Fallible

variable {m t : Machine} {depth : Nat}

/-! ## The write that parks on an empty ring -/

/-- Threads other than `i` are not parked. -/
def OthersReady (m : Machine) (i : Nat) : Prop :=
  ∀ o, o ≠ i → (m.threads o).state = .ready

theorem OthersReady.parked {s : State} {i o : Nat} (ready : OthersReady m i)
    (ne : o ≠ i) (blocked : s ≠ .ready) : m.parked s o = false := by
  rw [Machine.parked, ready o ne]
  simp only [decide_eq_false (Ne.symm blocked), Bool.false_and]

/-- A pipe with both ends open. -/
structure Open (m : Machine) : Prop where
  ok : m.Ok
  used : m.pipe.inUse = true
  reader : m.pipe.readerRefs ≠ 0
  writer : m.pipe.writerRefs ≠ 0

theorem Open.deliver {n : Nat} (isOpen : Open m) (call : Nat) (enough : n ≤ m.size) :
    Open (m.deliver call n) :=
  ⟨(deliver_ok isOpen.ok enough).1, isOpen.used, isOpen.reader, isOpen.writer⟩

theorem Open.accepting {bytes : List UInt8} {ring : RingBuffer UInt8}
    (isOpen : Open m) (call : Nat) (takes : Takes m bytes ring) :
    Open (m.accepting ring call bytes) :=
  ⟨takes.ok, isOpen.used, isOpen.reader, isOpen.writer⟩

theorem canCall_ready {i refs : Nat} (ins : i < 256)
    (ready : (m.threads i).state = .ready) (opened : refs ≠ 0) : canCall m i refs = true := by
  unfold canCall maxThreads
  simp only [ins, ready, opened, decide_true, ne_eq, not_false_eq_true, Bool.and_self]

section

variable (depth : Nat)

/-- A read of an empty pipe parks. -/
theorem read_parks {i capacity mapped : Nat} (isOpen : Open m) (empty : m.size = 0) (ins : i < 256)
    (ready : (m.threads i).state = .ready) (asked : 0 < capacity) (reach : capacity ≤ mapped) :
    wp (step depth (.read i capacity mapped false)) (fun _ t => t =
        (m.enter (.read capacity false)).parkRead i m.requests.length capacity mapped)
      (fun _ => False) m := by
  unfold step
  rw [wp_bind, wp_get, if_pos (canCall_ready ins ready isOpen.reader)]
  unfold nativeRead
  rw [wp_bind, wp_get, wp_bind, wp_update, if_neg (by omega), if_neg (by omega), wp_bind]
  have ok : (m.enter (.read capacity false)).Ok := isOpen.ok
  have drained : (m.enter (.read capacity false)).size = 0 := empty
  apply wp_tryPipeRead ok
  · intro out t ends
    cases ends with
    | unused free =>
      rw [show (m.enter (.read capacity false)).pipe.inUse = true from isOpen.used] at free
      cases free
    | nothing | refused => omega
    | ended _ closed => exact absurd closed isOpen.writer
    | waits _ _ => rfl
  · intro _ some
    omega

/-- How many bytes of a call were accepted. -/
def acceptedBytes (m : Machine) (call : Nat) : Nat := (entriesOf m.accepted call).length

theorem acceptedBytes_accepting {bytes : List UInt8} {ring : RingBuffer UInt8} (call : Nat)
    (takes : Takes m bytes ring) :
    acceptedBytes (m.accepting ring call bytes) call = acceptedBytes m call + bytes.length := by
  have own := congrArg Account.accepted (Effect.accepting takes call).own
  have lengths := congrArg length own
  rw [length_append] at lengths
  exact lengths

/-- Thread 0 waits to read `n` bytes. -/
structure ReaderParked (n : Nat) (m : Machine) : Prop where
  isOpen : Open m
  parked : m.parked .blockedRead 0 = true
  capacity : (m.threads 0).readCapacity = n
  mapped : (m.threads 0).mapped = n
  others : OthersReady m 0

/-- A pass with only thread 0 parked, which reads all the ring holds. -/
theorem wake_reader_empties {n : Nat} (wait : ReaderParked n m)
    (full : m.size = n) (pos : 0 < n) : wp (wake (depth + 2) .readers)
      (fun _ t => Open t ∧ t.size = 0 ∧ (∀ i, (t.threads i).state = .ready) ∧
        t.requests = m.requests ∧ t.accepted = m.accepted) (fun _ => False) m := by
  refine (@wp_wake_readers m depth (fun t => (t.requests = m.requests ∧ t.accepted = m.accepted) ∧
      ((ReaderParked n t ∧ t.size = n) ∨ (Open t ∧ t.size = 0 ∧ ∀ i, (t.threads i).state = .ready)))
    ?_ ?_ ?_).imp ?_
  · rintro s ⟨_, ⟨parked, _⟩ | ⟨isOpen, _, ready⟩⟩
    · refine ⟨parked.isOpen.ok, fun i _ => ?_⟩
      by_cases zero : i = 0
      · rw [zero, Machine.parked, (parked_blocked parked.parked (by decide)).1]
        rfl
      · exact parked.others.parked zero (by decide)
    · refine ⟨isOpen.ok, fun i _ => ?_⟩
      rw [parked, ready i]
      rfl
  · rintro s i res t _ ⟨requests, ⟨parked, size⟩ | ⟨_, _, ready⟩⟩ waits served
    · have zero : i = 0 := by
        by_contra ne
        rw [parked.others.parked ne (by decide)] at waits
        cases waits
      subst zero
      rw [parked.capacity, parked.mapped] at served
      have delivered : t = s.deliver (s.threads 0).call n := by
        cases served with
        | ends atOnce =>
          cases atOnce with
          | unused free =>
            rw [parked.isOpen.used] at free
            cases free
          | nothing | ended | refused => omega
        | served _ _ _ => rw [size, Nat.min_self]
      subst delivered
      have isOpen := parked.isOpen.deliver (s.threads 0).call (Nat.le_of_eq size.symm)
      refine ⟨requests, .inr ⟨{ isOpen with }, ?_, fun i => ?_⟩⟩
      · change s.size - n = 0
        omega
      by_cases zero : i = 0
      · rw [zero]
        rfl
      · refine Eq.trans (congrArg Thread.state (update_of_ne zero _ _)) ?_
        exact parked.others i zero
    · rw [parked, ready i] at waits
      cases waits
  · exact ⟨⟨rfl, rfl⟩, .inl ⟨wait, full⟩⟩
  · rintro _ t ⟨⟨requests, ⟨parked, size⟩ | ⟨isOpen, empty, ready⟩⟩, served⟩
    · have ins : 0 < maxThreads := by
        unfold maxThreads
        decide
      have none : t.size = 0 := (served 0 ins parked.parked).1
      omega
    · exact ⟨isOpen, empty, ready, requests⟩

/-- Thread 1 waits to write the end of `data`. -/
structure WriterParked (data : List UInt8) (mapped call progress : Nat) (m : Machine) :
    Prop where
  isOpen : Open m
  parked : m.parked .blockedWrite 1 = true
  call : (m.threads 1).call = call
  mapped : (m.threads 1).mapped = mapped
  buffer : (m.threads 1).writeBuffer = data
  progress : (m.threads 1).writeProgress = progress
  others : OthersReady m 1

/-- A blocking write longer than the ring, before a reader of as much as the
ring holds, parks on an empty ring. -/
theorem long_write_parks {data : List UInt8} {mapped : Nat}
    (wait : ReaderParked pipeCapacity m) (empty : m.size = 0)
    (long : pipeCapacity < data.length) (reach : data.length ≤ mapped) :
    wp (step (depth + 2) (.write 1 data mapped false))
      (fun _ t => WriterParked data mapped m.requests.length pipeCapacity t ∧
        t.size = 0 ∧ t.requests.length = m.requests.length + 1 ∧
        pipeCapacity ≤ acceptedBytes t m.requests.length) (fun _ => False) m := by
  have pos := pipeCapacity_pos
  have isOpen := wait.isOpen
  unfold step
  rw [wp_bind, wp_get, if_pos (canCall_ready (by decide) (wait.others 1 (by decide)) isOpen.writer)]
  unfold nativeWrite
  rw [wp_bind, wp_get, wp_bind, wp_update, if_neg (by omega), if_neg (by omega),
    if_neg (by unfold refusedWhole; simp), wp_bind]
  have ok : (m.enter (.write data false)).Ok := isOpen.ok
  have drained : (m.enter (.write data false)).size = 0 := empty
  have requests : (m.enter (.write data false)).requests.length = m.requests.length + 1 := by
    change (m.requests ++ [_]).length = _
    rw [length_append, length_singleton]
  have waitingStart : ReaderParked pipeCapacity (m.enter (.write data false)) :=
    ⟨{ isOpen with }, wait.parked, wait.capacity, wait.mapped, wait.others⟩
  generalize m.enter (.write data false) = start at *
  have total : writableBytes start data.length 0 = pipeCapacity := by
    unfold writableBytes
    omega
  apply wp_pipeWriteChunk ok (Nat.zero_le _)
  · intro out t ends
    cases ends with
    | broken closed => exact absurd closed waitingStart.isOpen.reader
    | nothing | waits | refused => omega
  · intro ring reader room takes
    have size : (start.accepting ring m.requests.length (chunk start data 0)).size =
        pipeCapacity := by
      change ring.size = _
      rw [takes.size, chunk_length, drained, total, Nat.zero_add]
    have parked : ReaderParked pipeCapacity
        (start.accepting ring m.requests.length (chunk start data 0)) :=
      ⟨waitingStart.isOpen.accepting _ takes, waitingStart.parked, waitingStart.capacity,
        waitingStart.mapped, waitingStart.others⟩
    apply (wake_reader_empties depth parked size pos).imp
    rintro _ t ⟨openLater, emptyLater, ready, same, log⟩
    have unfinished : ¬ (pipeCapacity = data.length ∨ false = true) := by
      rintro (whole | bad)
      · omega
      · cases bad
    have settled : settleWrite 1 m.requests.length data mapped false
        (.done ((writableBytes start data.length 0 : Nat) : Int)) t =
          t.parkWrite 1 m.requests.length data mapped pipeCapacity := by
      rw [settleWrite_done, total, if_neg unfinished]
    rw [wp_update, settled]
    have k := parkWrite_slot t 1 m.requests.length data mapped pipeCapacity
    refine ⟨⟨{ openLater with }, ?_,
      congrArg Thread.call k, congrArg Thread.mapped k, congrArg Thread.writeBuffer k,
      congrArg Thread.writeProgress k, ?_⟩, emptyLater, ?_, ?_⟩
    · rfl
    · intro o ne
      refine Eq.trans (congrArg Thread.state (update_of_ne ne _ _)) ?_
      exact ready o
    · rw [← requests]
      exact congrArg length same
    · have counted := acceptedBytes_accepting m.requests.length takes
      rw [chunk_length, total] at counted
      change pipeCapacity ≤ (entriesOf t.accepted _).length
      rw [log]
      change pipeCapacity ≤ acceptedBytes (start.accepting ring _ _) _
      omega

/-! ## Two threads that serve each other without end -/

/-- A reader on slot 0 and a writer on slot 1, both parked. -/
structure Caught (call : Nat) (m : Machine) : Prop where
  isOpen : Open m
  reader : m.parked .blockedRead 0 = true
  asked : 0 < (m.threads 0).readCapacity
  reached : (m.threads 0).readCapacity ≤ (m.threads 0).mapped
  writer : m.parked .blockedWrite 1 = true
  callIs : (m.threads 1).call = call
  early : (m.threads 1).writeProgress < (m.threads 1).writeBuffer.length
  mapped : (m.threads 1).writeBuffer.length ≤ (m.threads 1).mapped

variable {call : Nat}

theorem Caught.congr (caught : Caught call m) (isOpen : Open t)
    (threads : t.threads = m.threads) : Caught call t := by
  obtain ⟨_, reader, asked, reached, writer, callIs, early, mapped⟩ := caught
  rw [← parked_congr threads] at reader writer
  rw [← threads] at asked reached callIs early mapped
  exact ⟨isOpen, reader, asked, reached, writer, callIs, early, mapped⟩


/-- However deep the nesting may go, the two wakeups go deeper, and each round
accepts the same bytes once more. -/
theorem wake_never_ends : (∀ m, Caught call m → 0 < m.size →
      wp (wake depth .readers) (fun _ _ => False)
        (fun t => acceptedBytes m call + depth / 2 ≤ acceptedBytes t call) m) ∧
    (∀ m, Caught call m → m.size < pipeCapacity → wp (wake depth .writers) (fun _ _ => False)
        (fun t => acceptedBytes m call + (depth + 1) / 2 ≤ acceptedBytes t call) m) := by
  induction depth with
  | zero => exact ⟨fun _ _ _ => le_rfl, fun _ _ _ => le_rfl⟩
  | succ depth ih =>
    obtain ⟨deeperReaders, deeperWriters⟩ := ih
    have slots : 1 < maxThreads := by
      unfold maxThreads
      decide
    constructor
    · intro m caught some
      refine @wp_forSlots_stops Machine _ _ _ maxThreads 0
        (fun o old => absurd old (Nat.not_lt_zero _)) ?_ (Nat.lt_of_succ_lt slots)
      unfold serveReader
      rw [wp_bind, wp_get, caught.reader, if_neg (by decide), wp_bind]
      have asked := caught.asked
      have reached := caught.reached
      apply wp_tryPipeRead caught.isOpen.ok
      · intro out t ends
        cases ends with
        | unused free =>
          rw [caught.isOpen.used] at free
          cases free
        | nothing | ended | waits | refused => omega
      · intro _ _ _
        have fits := caught.isOpen.ok.fits
        change m.size ≤ pipeCapacity at fits
        have isOpen := caught.isOpen.deliver (m.threads 0).call
          (Nat.min_le_right (m.threads 0).readCapacity m.size)
        apply (deeperWriters _ (caught.congr isOpen rfl) ?_).mono (fun _ _ bad => bad)
          (fun _ counted => counted)
        change m.size - min _ m.size < pipeCapacity
        omega
    · intro m caught room
      refine @wp_forSlots_stops Machine _ _ _ maxThreads 1 ?_ ?_ slots
      · intro o old
        have zero : o = 0 := by omega
        subst zero
        change (if m.parked .blockedWrite 0 = false then pure () else _ : Call Unit) m = _
        rw [parked, (parked_blocked caught.reader (by decide)).1]
        rfl
      · unfold serveWriter
        rw [wp_bind, wp_get, caught.writer, if_neg (by decide), wp_bind]
        have early := caught.early
        have mapped := caught.mapped
        apply wp_pipeWriteChunk caught.isOpen.ok (Nat.le_of_lt early)
        · intro out t ends
          cases ends with
          | broken closed => exact absurd closed caught.isOpen.reader
          | nothing | waits => omega
          | refused taken ring bound takes beyond =>
            unfold writableBytes at beyond
            omega
        · intro ring _ _ takes
          have size := takes.size
          have counted := acceptedBytes_accepting (m.threads 1).call takes
          rw [chunk_length] at size counted
          have isOpen := caught.isOpen.accepting (m.threads 1).call takes
          have some : 0 < writableBytes m (m.threads 1).writeBuffer.length
              (m.threads 1).writeProgress := by
            unfold writableBytes
            omega
          have grown : 0 < (m.accepting ring (m.threads 1).call (chunk m (m.threads 1).writeBuffer
                (m.threads 1).writeProgress)).size := by
            change 0 < ring.size
            omega
          apply (deeperReaders _ (caught.congr isOpen rfl) grown).mono
            (fun _ _ bad => bad)
          intro t more
          rw [caught.callIs] at counted more
          omega

/-- A third write, beside the two, does not return. -/
theorem third_write_never_returns (caught : Caught call m)
    (empty : m.size = 0) (ready : (m.threads 2).state = .ready) (older : call ≠ m.requests.length) :
    wp (step depth (.write 2 [0] 1 false)) (fun _ _ => False)
      (fun t => acceptedBytes m call + depth / 2 ≤ acceptedBytes t call) m := by
  have pos := pipeCapacity_pos
  have isOpen : Open (m.enter (.write [0] false)) :=
    { caught.isOpen with }
  have caughtStart : Caught call (m.enter (.write [0] false)) := caught.congr isOpen rfl
  have drained : (m.enter (.write [0] false)).size = 0 := empty
  have counted : acceptedBytes (m.enter (.write [0] false)) call = acceptedBytes m call := rfl
  unfold step
  rw [wp_bind, wp_get, if_pos (canCall_ready (by decide) ready caught.isOpen.writer)]
  unfold nativeWrite
  rw [wp_bind, wp_get, wp_bind, wp_update, if_neg (by decide), if_neg (by decide),
    if_neg (by unfold refusedWhole; simp), wp_bind]
  generalize m.enter (.write [0] false) = start at *
  apply wp_pipeWriteChunk isOpen.ok (Nat.zero_le _)
  · intro out t ends
    cases ends with
    | broken closed => exact absurd closed isOpen.reader
    | nothing zero => cases zero
    | waits _ full => omega
    | refused taken ring bound takes beyond =>
      have one : writableBytes start [(0 : UInt8)].length 0 ≤ 1 := Nat.min_le_right _ _
      omega
  · intro ring _ _ takes
    have effect := Effect.accepting takes m.requests.length
    have openLater := isOpen.accepting m.requests.length takes
    have same := congrArg Account.accepted (effect.others call older)
    have bytes : acceptedBytes (start.accepting ring m.requests.length (chunk start [0] 0)) call =
        acceptedBytes m call := by
      rw [← counted]
      exact congrArg length same
    have some : 0 < (start.accepting ring m.requests.length (chunk start [0] 0)).size := by
      change 0 < ring.size
      have size := takes.size
      rw [chunk_length] at size
      unfold writableBytes at size
      simp only [length_singleton] at size
      omega
    apply ((wake_never_ends depth).1 _ (caughtStart.congr openLater rfl) some).mono
      (fun _ _ bad => bad)
    intro t more
    rw [bytes] at more
    exact more

/-- The calls that lead to the two threads. -/
def stall : List Event :=
  [.read 0 pipeCapacity pipeCapacity false,
    .write 1 (replicate (pipeCapacity + 1) 0) (pipeCapacity + 1) false]

/-- The long write is parked on an empty ring. -/
theorem stall_parks (cells : Nat → UInt8) : wp (run (depth + 2) stall) (fun _ t =>
        WriterParked (replicate (pipeCapacity + 1) 0) (pipeCapacity + 1) 1 pipeCapacity t ∧
          t.size = 0 ∧ t.requests.length = 2 ∧ pipeCapacity ≤ acceptedBytes t 1)
      (fun _ => False) (opened cells) := by
  have pos := pipeCapacity_pos
  have isOpen : Open (opened cells) :=
    ⟨RingBuffer.empty_ok cells pipeCapacity_pos, rfl, Nat.one_ne_zero, Nat.one_ne_zero⟩
  unfold stall run
  rw [wp_bind]
  apply (read_parks (depth + 2) isOpen rfl (by decide) rfl pos le_rfl).imp
  rintro _ t parked
  have k := parkRead_slot ((opened cells).enter (.read pipeCapacity false)) 0
    (opened cells).requests.length pipeCapacity pipeCapacity
  have wait : ReaderParked pipeCapacity t := by
    rw [parked]
    refine ⟨⟨isOpen.ok, rfl, Nat.one_ne_zero, Nat.one_ne_zero⟩, ?_, congrArg Thread.readCapacity k,
      congrArg Thread.mapped k, ?_⟩
    · rfl
    · intro o ne
      rw [parkRead_other _ _ _ _ ne]
      rfl
  have size : (replicate (pipeCapacity + 1) (0 : UInt8)).length = pipeCapacity + 1 :=
    length_replicate
  have empty : t.size = 0 := by rw [parked]; rfl
  have first : t.requests.length = 1 := by rw [parked]; rfl
  unfold run
  rw [wp_bind]
  apply (long_write_parks depth wait empty (by omega) (Nat.le_of_eq size)).imp
  rw [first]
  exact fun _ _ held => held

/-- A reader parks beside the long write. -/
theorem second_read_parks {data : List UInt8} {mapped call progress : Nat}
    (parked : WriterParked data mapped call progress m) (empty : m.size = 0)
    (early : progress < data.length) (reach : data.length ≤ mapped) :
    wp (step depth (.read 0 1 1 false))
      (fun _ t => Caught call t ∧ t.size = 0 ∧ (t.threads 2).state = .ready ∧
        t.requests.length = m.requests.length + 1 ∧
        acceptedBytes t call = acceptedBytes m call) (fun _ => False) m := by
  have ready := parked.others 0 (by decide)
  apply (read_parks depth parked.isOpen empty (by decide) ready Nat.one_pos le_rfl).imp
  rintro _ t same
  subst same
  have k := parkRead_slot (m.enter (.read 1 false)) 0 m.requests.length 1 1
  have isOpen := parked.isOpen
  refine ⟨?_, empty, ?_, ?_, rfl⟩
  · constructor
    · exact { isOpen with }
    · rfl
    · exact Nat.one_pos
    · rw [k]
    · exact parked.parked
    · exact parked.call
    · change (m.threads 1).writeProgress < (m.threads 1).writeBuffer.length
      rw [parked.progress, parked.buffer]
      exact early
    · change (m.threads 1).writeBuffer.length ≤ (m.threads 1).mapped
      rw [parked.buffer, parked.mapped]
      exact reach
  · exact parked.others 2 (by decide)
  · change (m.requests ++ [_]).length = _
    rw [length_append, length_singleton]

theorem wp_run_append {post : Unit → Machine → Prop} {fails : Machine → Prop}
    (first rest : List Event)
    (held : wp (run depth first) (fun _ => wp (run depth rest) post fails) fails m) :
    wp (run depth (first ++ rest)) post fails m := by
  induction first generalizing m with
  | nil => exact held
  | cons event others ih =>
    rw [run, wp_bind] at held
    rw [cons_append, run, wp_bind]
    exact held.imp fun _ _ after => ih after

/-- The four calls accept the last byte of the long write again and again. -/
theorem stall_never_ends (cells : Nat → UInt8) :
    wp (run (depth + 2) (stall ++ [.read 0 1 1 false, .write 2 [0] 1 false])) (fun _ _ => False)
      (fun t => pipeCapacity + 1 + depth / 2 ≤ acceptedBytes t 1) (opened cells) := by
  apply wp_run_append
  apply (stall_parks depth cells).mono _ (fun _ bad => absurd bad id)
  rintro _ stalled ⟨parked, empty, calls, counted⟩
  have size : (replicate (pipeCapacity + 1) (0 : UInt8)).length = pipeCapacity + 1 :=
    length_replicate
  rw [run, wp_bind]
  apply (second_read_parks (depth + 2) parked empty (by omega) (Nat.le_of_eq size)).mono _
    (fun _ bad => absurd bad id)
  rintro _ caught ⟨both, drained, ready, more, bytes⟩
  rw [run, wp_bind]
  apply (third_write_never_returns (depth + 2) both drained ready (by omega)).mono
    (fun _ _ bad => absurd bad id)
  intro t grown
  omega

end

/-! ## The two guarantees -/

/-- The bytes accepted are one sequence in which each write's bytes stand in
order and once; what readers got is a beginning of it and the rest is in the
ring; and each call moved what it returned. -/
structure InOrder (m : Machine) : Prop where
  given : m.delivered.map Prod.snd <+: m.accepted.map Prod.snd
  rest : m.pipe.inUse = true →
    m.delivered.map Prod.snd ++ m.held = m.accepted.map Prod.snd
  writers : ∀ call, entriesOf m.accepted call ≠ [] →
    ∃ data nonblock, m.requests[call]? = some (.write data nonblock)
  taken : ∀ call data nonblock, m.requests[call]? = some (.write data nonblock) →
    entriesOf m.accepted call <+: data
  read : ∀ call capacity nonblock res,
    m.requests[call]? = some (.read capacity nonblock) → (call, res) ∈ m.returned →
    0 ≤ res →
      entriesOf m.delivered call = (m.memory call).take res.toNat ∧
        (entriesOf m.delivered call).length = res.toNat
  wrote : ∀ call data nonblock res,
    m.requests[call]? = some (.write data nonblock) → (call, res) ∈ m.returned →
    0 ≤ res → nonblock = true ∨ data.length < 2 ^ 31 →
      entriesOf m.accepted call = data.take res.toNat ∧
        (entriesOf m.accepted call).length = res.toNat

theorem mem_entriesOf {α : Type} {log : List (Nat × α)} {v : α}
    (mem : (call, v) ∈ log) : v ∈ entriesOf log call :=
  mem_filterMap.mpr ⟨(call, v), mem, if_pos rfl⟩

theorem Integrity.inOrder (integrity : Integrity m) : InOrder m where
  given := integrity.stream.1
  rest := integrity.stream.2
  writers := by
    intro call some
    have right := integrity.calls call
    cases req : (account m call).request with
    | none =>
      rw [Account.Ok, req] at right
      exact absurd right.1 some
    | some asked =>
      cases asked with
      | read capacity nonblock => exact absurd (right.read req) some
      | write data nonblock => exact ⟨data, nonblock, req⟩
  taken := by
    intro call data nonblock req
    have right := integrity.calls call
    rw [Account.Ok, show (account m call).request = _ from req] at right
    exact right.2.1
  read := by
    intro call capacity nonblock res req returned nonnegative
    have right := integrity.calls call
    rw [Account.Ok, show (account m call).request = _ from req] at right
    exact (right.2 res (mem_entriesOf returned)).1 nonnegative
  wrote := by
    intro call data nonblock res req returned nonnegative small
    have right := integrity.calls call
    rw [Account.Ok, show (account m call).request = _ from req] at right
    obtain ⟨whole, bound⟩ := right.2.2 res (mem_entriesOf returned) nonnegative small
    change entriesOf m.accepted call = _ at whole
    refine ⟨whole, ?_⟩
    rw [whole, length_take]
    omega

/-- Every tame run of a pipe ends with its bytes in order. -/
theorem bytes_stay_in_order (depth : Nat) (cells : Nat → UInt8) (events : List Event)
    (tame : TameRun (depth + 2) events (opened cells)) :
    ∃ later, run (depth + 2) events (opened cells) = (some (), later) ∧ InOrder later := by
  obtain ⟨later, ran, sound⟩ := tameRun_ends depth cells events tame
  exact ⟨later, ran, sound.integrity.inOrder⟩

/-- A reader parks, a writer serves it and the pipe ends in order. -/
theorem bytes_stay_in_order_read_then_write :
    TameRun 2 [.read 0 4 4 false, .write 1 [1, 2] 2 false] (opened fun _ => 0) ∧
      ∃ later, run 2 [.read 0 4 4 false, .write 1 [1, 2] 2 false] (opened fun _ => 0) =
        (some (), later) ∧ InOrder later := by
  have tame : TameRun 2 [.read 0 4 4 false, .write 1 [1, 2] 2 false] (opened fun _ => 0) :=
    ⟨trivial, fun _ _ => ⟨fun _ long => absurd long (by unfold pipeCapacity; decide),
      fun _ _ => trivial⟩⟩
  exact ⟨tame, bytes_stay_in_order 0 (fun _ => 0) _ tame⟩

/-- After the long write a second reader parks, and a third write then never
returns: eight levels deep, more bytes of the long write were accepted than it
has. -/
theorem long_write_accepted_again_and_again :
    (∃ later, run 8 (stall ++ [.read 0 1 1 false, .write 2 [0] 1 false]) (opened fun _ => 0) =
          (none, later) ∧
        pipeCapacity + 1 < (entriesOf later.accepted 1).length) ∧
      ∀ depth, ∃ later,
        run (depth + 2) (stall ++ [.read 0 1 1 false, .write 2 [0] 1 false]) (opened fun _ => 0) =
          (none, later) := by
  constructor
  · obtain ⟨later, ran, endless⟩ := (stall_never_ends 6 fun _ => 0).stops
    exact ⟨later, ran, Nat.lt_of_lt_of_le (by omega) endless⟩
  · intro depth
    obtain ⟨later, ran, _⟩ := (stall_never_ends depth fun _ => 0).stops
    exact ⟨later, ran⟩

/-- Nobody is parked, on an open descriptor, on a pipe that could serve them. -/
theorem nobody_sleeps_on_a_ready_pipe (depth : Nat) (cells : Nat → UInt8) (events : List Event)
    (tame : TameRun (depth + 2) events (opened cells)) :
    ∃ later, run (depth + 2) events (opened cells) = (some (), later) ∧
      (∀ index, index < maxThreads → later.parked .blockedWrite index = true →
        later.size = pipeCapacity ∧ later.pipe.readerRefs ≠ 0) ∧
      (∀ index, index < maxThreads → later.parked .blockedRead index = true →
        later.size = 0 ∧ later.pipe.writerRefs ≠ 0) ∧
      ∀ reader writer, reader < maxThreads → writer < maxThreads →
        ¬ (later.parked .blockedRead reader = true ∧ later.parked .blockedWrite writer = true) := by
  obtain ⟨later, ran, sound⟩ := tameRun_ends depth cells events tame
  have stuck := fun side index inside waits => (sound.settled side index inside waits).1
  refine ⟨later, ran, stuck .writers, stuck .readers, ?_⟩
  rintro reader writer readerInside writerInside ⟨reading, writing⟩
  exact limit_other .readers ((stuck .readers reader readerInside reading).1.symm.trans
    (stuck .writers writer writerInside writing).1)

/-- A reader parks and is served, and then a write longer than the ring fills it and parks. -/
def park : List Event :=
  [.read 0 4 4 false, .write 1 [1, 2] 2 false, .write 1 (replicate 8193 0) 8193 false]

/-- In this run a reader parks on the empty ring, and at its end a writer is parked on the
full one. -/
theorem nobody_sleeps_on_a_ready_pipe_parked :
    (run 2 (park.take 1) (opened fun _ => 0)).2.parked .blockedRead 0 = true ∧
      TameRun 2 park (opened fun _ => 0) ∧
      ∃ later, run 2 park (opened fun _ => 0) = (some (), later) ∧
        later.parked .blockedWrite 1 = true ∧
        (∀ index, index < maxThreads → later.parked .blockedWrite index = true →
          later.size = pipeCapacity ∧ later.pipe.readerRefs ≠ 0) ∧
        (∀ index, index < maxThreads → later.parked .blockedRead index = true →
          later.size = 0 ∧ later.pipe.writerRefs ≠ 0) ∧
        ∀ reader writer, reader < maxThreads → writer < maxThreads →
          ¬ (later.parked .blockedRead reader = true ∧
            later.parked .blockedWrite writer = true) := by
  have short : ¬ pipeCapacity < [(1 : UInt8), 2].length := by unfold pipeCapacity; decide
  -- the reader has been served when the long write is made
  have served : Quiet (run 2 (park.take 2) (opened fun _ => 0)).2 .blockedRead := by
    decide +kernel
  have tame : TameRun 2 park (opened fun _ => 0) := by
    refine ⟨trivial, fun t reads => ⟨fun _ long => absurd long short, fun u writes => ⟨?_, ?_⟩⟩⟩
    · have twice : run 2 (park.take 2) (opened fun _ => 0) = (some (), u) :=
        (bind_some reads).trans (bind_some writes)
      rw [twice] at served
      exact fun _ _ => served
    · exact fun _ _ => trivial
  obtain ⟨later, ran, sleeps⟩ := nobody_sleeps_on_a_ready_pipe 0 (fun _ => 0) park tame
  refine ⟨by decide +kernel, tame, later, ran, ?_, sleeps⟩
  have parked : (run 2 park (opened fun _ => 0)).2.parked .blockedWrite 1 = true := by
    decide +kernel
  rwa [ran] at parked

/-- The long write sleeps on an empty pipe with both ends open. -/
theorem long_write_sleeps_on_an_empty_pipe :
    ∃ later, run 2 stall (opened fun _ => 0) = (some (), later) ∧
      later.parked .blockedWrite 1 = true ∧ later.size = 0 ∧ later.pipe.readerRefs ≠ 0 := by
  obtain ⟨_, later, ran, parked, empty, _⟩ := (stall_parks 0 fun _ => 0).gives
  exact ⟨later, ran, parked.parked, empty, parked.isOpen.reader⟩

end SavanXP.Pipes
