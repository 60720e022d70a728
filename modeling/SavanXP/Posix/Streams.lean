import Mathlib

/-!
# Buffered output streams

A stream collects what is written to it and passes it on to its descriptor, which
may take only a part of what it is offered, or nothing.  What the descriptor has
received and what is still buffered make up what the calls have accepted, unless a
flush stops halfway: it keeps the whole buffer, and the next one starts again.
-/

namespace SavanXP.Stdio

open List

/-- `SX_FILE_BUFFER_CAPACITY`. -/
def bufferCapacity : Nat := 4096

/-- The fields of a `FILE` that do not change while it is open. -/
structure Mode where
  inUse : Bool := false
  isStdio : Bool := false
  canWrite : Bool := false

/-- A stream and its descriptor.  `buffered` are the bytes of `write_buffer` in use, and
`hasBuffer` tells whether it has been allocated.  Beside what the descriptor has
received stand the number of writes made to it, the bytes the calls have accepted, and
whether a flush has stopped after delivering a part of the buffer. -/
structure World where
  mode : Mode
  error : Bool := false
  hasBuffer : Bool := false
  buffered : List UInt8 := []
  received : List UInt8 := []
  writes : Nat := 0
  accepted : List UInt8 := []
  halfway : Bool := false

namespace World

variable (answers : Nat → Nat) (w : World)

/-- One write to the descriptor, and how many bytes it takes: at most as many as the
next answer says.  Zero stands for every result that is not positive. -/
def sxWrite (bytes : List UInt8) : Nat × World :=
  let n := min (answers w.writes) bytes.length
  (n, { w with
    received := w.received ++ bytes.take n, writes := w.writes + 1 })

/-- Writes until all is taken or one of them fails, and how many bytes were taken.  Each
write takes a byte or is the last, so as many rounds as there are bytes suffice. -/
def writeLoop : Nat → World → List UInt8 → Nat × World
  | 0, w, _ => (0, w)
  | rounds + 1, w, bytes =>
    if bytes = [] then (0, w)
    else
      match w.sxWrite answers bytes with
      | (0, t) => (0, { t with error := true })
      | (n + 1, t) =>
        let (more, last) := writeLoop rounds t (bytes.drop (n + 1))
        (n + 1 + more, last)

/-- Whether the buffer went out. -/
def flushStream : Bool × World :=
  let bytes := w.buffered
  if bytes = [] then (true, w)
  else
    match w.writeLoop answers bytes.length bytes with
    | (written, t) =>
      if written < bytes.length then
        (false, { t with halfway := t.halfway || written != 0 })
      else (true, { t with buffered := [] })

def directWrite (bytes : List UInt8) : Nat × World :=
  w.writeLoop answers bytes.length bytes

/-- The rounds of `sx_buffered_write`: past the empty buffer, or into it and on to
the descriptor when it is full. -/
def bufferedLoop : Nat → World → List UInt8 → Nat × World
  | 0, w, _ => (0, w)
  | rounds + 1, w, bytes =>
    if bytes = [] then (0, w)
    else if w.buffered = [] ∧ bufferCapacity ≤ bytes.length then
      match w.sxWrite answers bytes with
      | (0, t) => (0, { t with error := true })
      | (n + 1, t) =>
        let (more, last) := bufferedLoop rounds t (bytes.drop (n + 1))
        (n + 1 + more, last)
    else
      let chunk := bytes.take (bufferCapacity - w.buffered.length)
      let filled := { w with buffered := w.buffered ++ chunk }
      match if filled.buffered.length = bufferCapacity then filled.flushStream answers
        else (true, filled) with
      | (false, t) => (chunk.length, t)
      | (true, t) =>
        let (more, last) := bufferedLoop rounds t (bytes.drop chunk.length)
        (chunk.length + more, last)

/-- `heap` tells whether a buffer can be allocated.  Only the first round may take
nothing, so one more than there are bytes suffices. -/
def bufferedWrite (bytes : List UInt8) (heap : Bool) : Nat × World :=
  if w.hasBuffer || heap then
    bufferedLoop answers (bytes.length + 1) { w with hasBuffer := true } bytes
  else w.directWrite answers bytes

/-- The bytes are those of all items, each of the given size. -/
def fwrite (bytes : List UInt8) (size : Nat) (heap : Bool) : Nat × World :=
  if bytes = [] ∨ size = 0 then (0, w)
  else if w.mode.canWrite = false then (0, { w with error := true })
  else
    match if w.mode.isStdio then w.directWrite answers bytes
      else w.bufferedWrite answers bytes heap with
    | (written, t) =>
      (written / size, { t with accepted := t.accepted ++ bytes.take written })

def fputs (text : List UInt8) (heap : Bool) : Bool × World :=
  match w.fwrite answers text 1 heap with
  | (written, t) => (written = text.length, t)

def fputc (byte : UInt8) (heap : Bool) : Bool × World :=
  match w.fwrite answers [byte] 1 heap with
  | (written, t) => (written = 1, t)

def fflush : Bool × World := w.flushStream answers

/-- `closes` tells whether the descriptor closes without an error. -/
def fclose (closes : Bool) : Bool × World :=
  if w.mode.isStdio then (true, w)
  else
    match w.flushStream answers with
    | (flushed, t) => (flushed && closes,
      { t with mode := {}, error := false, hasBuffer := false, buffered := [] })

end World

inductive Call where
  | fwrite (bytes : List UInt8) (size : Nat) (heap : Bool)
  | fputs (text : List UInt8) (heap : Bool)
  | fputc (byte : UInt8) (heap : Bool)
  | fflush
  | fclose (closes : Bool)

section Runs

variable (answers : Nat → Nat)

def Call.perform (w : World) : Call → World
  | .fwrite bytes size heap => (w.fwrite answers bytes size heap).2
  | .fputs text heap => (w.fputs answers text heap).2
  | .fputc byte heap => (w.fputc answers byte heap).2
  | .fflush => (w.fflush answers).2
  | .fclose closes => (w.fclose answers closes).2

def run (w : World) (calls : List Call) : World :=
  calls.foldl (fun w call => call.perform answers w) w

/-- A stream that has just been opened, or one of the standard ones. -/
def opened (isStdio canWrite : Bool) : World := { mode := ⟨true, isStdio, canWrite⟩ }

end Runs

/-! ## What a call carries over -/

namespace World

variable (answers : Nat → Nat) {w middle t : World} {bytes more : List UInt8} {n : Nat}

/-- The descriptor has taken some of the bytes. -/
structure Took (w t : World) (bytes : List UInt8) (n : Nat) : Prop where
  inside : n ≤ bytes.length
  received : t.received = w.received ++ bytes.take n
  buffered : t.buffered = w.buffered
  hasBuffer : t.hasBuffer = w.hasBuffer
  mode : t.mode = w.mode
  accepted : t.accepted = w.accepted
  halfway : t.halfway = w.halfway

theorem Took.trans {rest : Nat} (first : Took w middle bytes n)
    (second : Took middle t (bytes.drop n) rest) : Took w t bytes (n + rest) where
  inside := by
    have inside := second.inside
    rw [length_drop] at inside
    have old := first.inside
    omega
  received := by
    rw [second.received, first.received, append_assoc, ← take_add]
  buffered := second.buffered.trans first.buffered
  hasBuffer := second.hasBuffer.trans first.hasBuffer
  mode := second.mode.trans first.mode
  accepted := second.accepted.trans first.accepted
  halfway := second.halfway.trans first.halfway

theorem Took.nothing (w : World) (bytes : List UInt8) : Took w w bytes 0 :=
  ⟨Nat.zero_le _, by simp, rfl, rfl, rfl, rfl, rfl⟩

theorem sxWrite_took (w : World) (bytes : List UInt8) :
    Took w (w.sxWrite answers bytes).2 bytes (w.sxWrite answers bytes).1 :=
  ⟨Nat.min_le_right .., rfl, rfl, rfl, rfl, rfl, rfl⟩

theorem Took.fail (took : Took w t bytes n) :
    Took w { t with error := true } bytes n :=
  { took with }

theorem writeLoop_took (rounds : Nat) (w : World) (bytes : List UInt8) :
    Took w (writeLoop answers rounds w bytes).2 bytes (writeLoop answers rounds w bytes).1 := by
  induction rounds generalizing w bytes with
  | zero => exact .nothing w bytes
  | succ rounds ih =>
    unfold writeLoop
    split
    · exact .nothing w bytes
    have took := sxWrite_took answers w bytes
    split
    · next t written =>
      rw [written] at took
      exact took.fail
    · next taken t written =>
      rw [written] at took
      exact took.trans (ih t _)

/-- More rounds than bytes change nothing. -/
theorem writeLoop_rounds {rounds : Nat} (enough : bytes.length ≤ rounds) :
    writeLoop answers (rounds + 1) w bytes = writeLoop answers rounds w bytes := by
  induction rounds generalizing w bytes with
  | zero =>
    have none : bytes = [] := length_eq_zero_iff.mp (Nat.le_zero.mp enough)
    simp [writeLoop, none]
  | succ rounds ih =>
    rw [writeLoop, writeLoop.eq_2 answers w bytes rounds]
    split
    · rfl
    split
    · rfl
    · rw [ih]
      rw [length_drop]
      omega

/-- What was received and buffered, and then the bytes, is received and buffered
later, unless a flush stopped halfway. -/
structure Carries (w t : World) (bytes : List UInt8) : Prop where
  whole : t.halfway = false → w.halfway = false ∧
    t.received ++ t.buffered = w.received ++ w.buffered ++ bytes
  hasBuffer : t.hasBuffer = w.hasBuffer
  mode : t.mode = w.mode
  accepted : t.accepted = w.accepted

theorem Carries.trans (first : Carries w middle bytes) (second : Carries middle t more) :
    Carries w t (bytes ++ more) where
  whole unbroken := by
    obtain ⟨old, carried⟩ := second.whole unbroken
    obtain ⟨earlier, started⟩ := first.whole old
    exact ⟨earlier, by rw [carried, started, append_assoc]⟩
  hasBuffer := second.hasBuffer.trans first.hasBuffer
  mode := second.mode.trans first.mode
  accepted := second.accepted.trans first.accepted

theorem Carries.refl (w : World) : Carries w w [] :=
  ⟨fun unbroken => ⟨unbroken, by rw [append_nil]⟩, rfl, rfl, rfl⟩

/-- With nothing in the buffer the descriptor takes what comes next. -/
theorem Took.carries (took : Took w t bytes n) (empty : w.buffered = []) :
    Carries w t (bytes.take n) where
  whole unbroken := by
    refine ⟨took.halfway ▸ unbroken, ?_⟩
    rw [took.buffered, took.received, empty, append_nil, append_nil]
  hasBuffer := took.hasBuffer
  mode := took.mode
  accepted := took.accepted

theorem flushStream_carries (w : World) : Carries w (w.flushStream answers).2 [] ∧
      ((w.flushStream answers).1 = true → (w.flushStream answers).2.buffered = [] ∧
        (w.flushStream answers).2.halfway = w.halfway) := by
  unfold flushStream
  simp only
  have took := writeLoop_took answers w.buffered.length w w.buffered
  generalize w.writeLoop answers w.buffered.length w.buffered = res at took ⊢
  obtain ⟨written, t⟩ := res
  change Took w t w.buffered written at took
  split
  · next empty => exact ⟨.refl w, fun _ => ⟨empty, rfl⟩⟩
  split
  · refine ⟨⟨fun unbroken => ?_, took.hasBuffer, took.mode, took.accepted⟩, nofun⟩
    obtain ⟨old, none⟩ : t.halfway = false ∧ written = 0 := by simpa using unbroken
    exact ⟨took.halfway ▸ old, by simp [took.received, took.buffered, none]⟩
  · next all =>
    refine ⟨⟨fun unbroken => ⟨took.halfway ▸ unbroken, ?_⟩, took.hasBuffer, took.mode,
      took.accepted⟩,
      fun _ => ⟨rfl, took.halfway⟩⟩
    simp [took.received, take_of_length_le (Nat.le_of_not_lt all)]

/-- More rounds than bytes change nothing, with one round to empty a full buffer. -/
theorem bufferedLoop_rounds {rounds : Nat} (fits : w.buffered.length ≤ bufferCapacity)
    (enough : bytes.length + (if w.buffered.length = bufferCapacity then 1 else 0) ≤ rounds) :
    bufferedLoop answers (rounds + 1) w bytes = bufferedLoop answers rounds w bytes := by
  induction rounds generalizing w bytes with
  | zero =>
    have none : bytes = [] := length_eq_zero_iff.mp (by omega)
    simp [bufferedLoop, none]
  | succ rounds ih =>
    -- what is left after a round is less, and the buffer has room for it
    have next {t : World} {taken : Nat} (room : t.buffered.length < bufferCapacity)
        (less : bytes.length - taken ≤ rounds) :
        bufferedLoop answers (rounds + 1) t (bytes.drop taken) =
          bufferedLoop answers rounds t (bytes.drop taken) := by
      refine ih room.le ?_
      rw [if_neg room.ne, length_drop]
      omega
    rw [bufferedLoop, bufferedLoop.eq_2 answers w bytes rounds]
    split
    · rfl
    next some =>
    have some := length_pos_iff.mpr some
    split
    · next direct =>
      have took := (sxWrite_took answers w bytes).buffered
      split
      · rfl
      · next written =>
        rw [written] at took
        rw [next (by rw [took, direct.1]; decide) (by omega)]
    · dsimp only
      split
      · rfl
      · next t flushed =>
        have size := length_take (i := bufferCapacity - w.buffered.length) (l := bytes)
        have less : bytes.length - (bytes.take (bufferCapacity - w.buffered.length)).length ≤
            rounds := by
          split at enough <;> omega
        rw [next ?_ less]
        split at flushed
        · have empty := ((flushStream_carries answers _).2 (congrArg Prod.fst flushed)).1
          rw [flushed] at empty
          rw [empty]
          decide
        · next partly =>
          obtain ⟨_, rfl⟩ := Prod.mk.inj flushed
          rw [length_append] at partly ⊢
          omega

theorem bufferedLoop_carries (rounds : Nat) (w : World) (bytes : List UInt8) :
    Carries w (bufferedLoop answers rounds w bytes).2
      (bytes.take (bufferedLoop answers rounds w bytes).1) := by
  induction rounds generalizing w bytes with
  | zero => simpa [bufferedLoop] using Carries.refl w
  | succ rounds ih =>
    unfold bufferedLoop
    split
    · simpa using Carries.refl w
    split
    · next direct =>
      have took := sxWrite_took answers w bytes
      split
      · next t written =>
        rw [written] at took
        exact took.fail.carries direct.1
      · next taken t written =>
        rw [written] at took
        simpa [take_add] using (took.carries direct.1).trans (ih t _)
    · generalize isChunk : bytes.take (bufferCapacity - w.buffered.length) = chunk
      have inside : bytes.take chunk.length = chunk := by
        rw [← isChunk, length_take, ← take_take, take_length]
      have passed : ∀ res, (if (w.buffered ++ chunk).length = bufferCapacity then
          flushStream answers { w with buffered := w.buffered ++ chunk }
          else (true, { w with buffered := w.buffered ++ chunk })) = res →
            Carries w res.2 chunk := by
        have filled : Carries w { w with buffered := w.buffered ++ chunk } chunk :=
          ⟨fun unbroken => ⟨unbroken, (append_assoc ..).symm⟩, rfl, rfl, rfl⟩
        rintro _ rfl
        split
        · simpa using filled.trans (flushStream_carries answers _).1
        · exact filled
      simp only
      split
      · next t flushed => exact inside.symm ▸ passed _ flushed
      · next t flushed =>
        simpa [take_add, inside] using (passed _ flushed).trans (ih t _)

/-! ## Runs -/

/-- While the stream is in use, what was accepted is received or buffered. -/
structure Steady (w : World) : Prop where
  whole : w.halfway = false → w.mode.inUse = true →
    w.received ++ w.buffered = w.accepted
  inOrder : w.halfway = false → w.received <+: w.accepted
  closed : w.mode.inUse = false → w.mode.canWrite = false ∧ w.buffered = []
  direct : w.mode.isStdio = true ∨ w.hasBuffer = false → w.buffered = []

variable {answers}

namespace Steady

section

variable (steady : w.Steady)
include steady

theorem carry (isOpen : w.mode.inUse = true) (carried : Carries w t bytes)
    (direct : w.mode.isStdio = true ∨ w.hasBuffer = false → t.buffered = []) :
    Steady { t with accepted := t.accepted ++ bytes } := by
  have whole : t.halfway = false → t.received ++ t.buffered = t.accepted ++ bytes := by
    intro unbroken
    obtain ⟨old, now⟩ := carried.whole unbroken
    rw [now, steady.whole old isOpen, carried.accepted]
  refine ⟨fun unbroken _ => whole unbroken, fun unbroken => ⟨_, whole unbroken⟩, fun closed => ?_,
    fun either => direct (carried.mode ▸ carried.hasBuffer ▸ either)⟩
  rw [carried.mode, isOpen] at closed
  cases closed

theorem fwrite (bytes : List UInt8) (size : Nat) (heap : Bool) :
    (w.fwrite answers bytes size heap).2.Steady := by
  unfold World.fwrite
  split
  · exact steady
  split
  · exact { steady with }
  next writes =>
  have isOpen : w.mode.inUse = true := by
    by_contra closed
    exact writes (steady.closed (Bool.not_eq_true _ ▸ closed)).1
  have directly : w.buffered = [] →
      Steady { (w.directWrite answers bytes).2 with
        accepted := (w.directWrite answers bytes).2.accepted ++
          bytes.take (w.directWrite answers bytes).1 } := by
    intro empty
    have took := writeLoop_took answers bytes.length w bytes
    exact steady.carry isOpen (took.carries empty) fun _ => took.buffered.trans empty
  cases mode : w.mode.isStdio with
  | true => exact directly (steady.direct (.inl mode))
  | false =>
    unfold bufferedWrite
    cases buf : w.hasBuffer || heap with
    | true =>
      have alloc : Steady { w with hasBuffer := true } :=
        { steady with
          direct := fun either => either.elim (fun stdio => steady.direct (.inl stdio)) nofun }
      refine alloc.carry isOpen (bufferedLoop_carries answers (bytes.length + 1) _ bytes) ?_
      simp [mode]
    | false => exact directly (steady.direct (.inr (Bool.or_eq_false_iff.mp buf).1))

theorem flushStream : (w.flushStream answers).2.Steady := by
  by_cases empty : w.buffered = []
  · have same : w.flushStream answers = (true, w) := by
      simp [World.flushStream, empty]
    rw [same]
    exact steady
  · have isOpen : w.mode.inUse = true := by
      by_contra closed
      exact empty (steady.closed (Bool.not_eq_true _ ▸ closed)).2
    simpa using steady.carry isOpen (flushStream_carries answers w).1
      fun either => absurd (steady.direct either) empty

theorem perform (call : Call) : (call.perform answers w).Steady := by
  cases call with
  | fwrite bytes size heap => exact steady.fwrite ..
  | fputs text heap => exact steady.fwrite text 1 heap
  | fputc byte heap => exact steady.fwrite [byte] 1 heap
  | fflush => exact steady.flushStream
  | fclose closes =>
    simp only [Call.perform, World.fclose]
    split
    · exact steady
    · have flushed : (w.flushStream answers).2.Steady := steady.flushStream
      exact ⟨nofun, flushed.inOrder, fun _ => ⟨rfl, rfl⟩, fun _ => rfl⟩

theorem run (calls : List Call) : (run answers w calls).Steady := by
  induction calls generalizing w with
  | nil => exact steady
  | cons call rest ih => exact ih (steady.perform call)

/-- A flush that succeeds leaves nothing behind. -/
theorem flushed (isOpen : w.mode.inUse = true)
    (unbroken : w.halfway = false) (success : (w.flushStream answers).1 = true) :
    (w.flushStream answers).2.received = (w.flushStream answers).2.accepted := by
  obtain ⟨carried, leaves⟩ := flushStream_carries answers w
  obtain ⟨empty, halfway⟩ := leaves success
  have whole := steady.flushStream.whole (halfway.trans unbroken) (carried.mode ▸ isOpen)
  rwa [empty, append_nil] at whole

end

end Steady

end World

/-- In every run in which no flush stops halfway, what the descriptor has received is the
beginning of what the calls have accepted, and all of it after a flush or a close that
succeeds. -/
theorem streams_neither_lose_nor_repeat (answers : Nat → Nat) (isStdio canWrite : Bool)
    (calls : List Call) (unbroken : (run answers (opened isStdio canWrite) calls).halfway = false) :
    let world := run answers (opened isStdio canWrite) calls
    world.received <+: world.accepted ∧
      (world.mode.inUse = true → ((world.fflush answers).1 = true →
          (world.fflush answers).2.received = (world.fflush answers).2.accepted) ∧
        ∀ closes, (world.fclose answers closes).1 = true →
          (world.fclose answers closes).2.received = (world.fclose answers closes).2.accepted) := by
  intro world
  have start : (opened isStdio canWrite).Steady :=
    ⟨fun _ _ => rfl, fun _ => prefix_refl _, nofun, fun _ => rfl⟩
  have steady : world.Steady := start.run calls
  refine ⟨steady.inOrder unbroken, fun isOpen => ⟨steady.flushed isOpen unbroken, ?_⟩⟩
  intro closes success
  unfold World.fclose at success ⊢
  split_ifs at success ⊢ with stdio
  · have whole := steady.whole unbroken isOpen
    rwa [steady.direct (.inl stdio), append_nil] at whole
  · rw [Bool.and_eq_true] at success
    exact steady.flushed isOpen unbroken success.1

/-- Two bytes, a flush that fails, two more bytes, and a flush in short writes. -/
def retried : List Call := [.fputs [97, 98] true, .fflush, .fwrite [99, 100] 2 true, .fflush]

theorem streams_neither_lose_nor_repeat_retried :
    (run id (opened false true) retried).halfway = false ∧
      (run id (opened false true) retried).received <+:
        (run id (opened false true) retried).accepted :=
  have unbroken : (run id (opened false true) retried).halfway = false := by
    decide +kernel
  ⟨unbroken, (streams_neither_lose_nor_repeat id false true retried unbroken).1⟩

/-- A flush that stops after one of three bytes is followed by one that sends all three. -/
theorem flushed_bytes_sent_again :
    let world := run (fun turn => [1, 0, 3].getD turn 0) (opened false true)
      [.fputs [97, 98, 99] true, .fflush, .fflush]
    world.received = [97, 97, 98, 99] ∧ world.accepted = [97, 98, 99] := by
  decide +kernel

end SavanXP.Stdio
