import SavanXP.Process.Pipe

/-!
# What a try at the pipe does

The two copies in terms of what the ring holds, and one rule for each try at
the pipe: how it ends at once, or the machine its wakeup starts from.  A wakeup
that finds nobody parked leaves the machine alone, so a pass over the parked
readers with no writer parked is a sequence of tries without nesting, and the
same with the sides exchanged.
-/

namespace SavanXP.Pipes

open SavanXP.Library List Function Machine
open SavanXP.Library.Fallible

variable {m t : Machine} {call mapped n progress position rem depth : Nat}
  {data bytes : List UInt8}

def Machine.Ok (m : Machine) : Prop := m.pipe.ring.Ok pipeCapacity

section

variable (m : Machine)

theorem held_length : m.held.length = m.size := RingBuffer.contents_length m.pipe.ring

theorem pipeCapacity_pos : 0 < pipeCapacity := by
  unfold pipeCapacity
  decide

/-! ## Copying out -/

/-- `n` bytes leave the ring for the start of the buffer of `call`. -/
def Machine.deliver (m : Machine) (call n : Nat) : Machine :=
  (m.setBuffer call (m.held.take n ++ (m.memory call).drop n)).consume call n

@[simp]
theorem setBuffer_setBuffer (call : Nat) (first second : List UInt8) :
    (m.setBuffer call first).setBuffer call second = m.setBuffer call second := by
  unfold setBuffer
  rw [update_idem]

@[simp]
theorem setBuffer_memory (call : Nat) (buf : List UInt8) :
    (m.setBuffer call buf).memory call = buf := update_self ..

@[simp]
theorem setBuffer_self (call : Nat) : m.setBuffer call (m.memory call) = m := by
  unfold setBuffer
  rw [update_eq_self]

end

theorem deliver_ok (ok : m.Ok) (enough : n ≤ m.size) :
    (m.deliver call n).Ok ∧ (m.deliver call n).held = m.held.drop n :=
  RingBuffer.Ok.advance ok enough

theorem firstPiece_length (ring : RingBuffer UInt8) (n : Nat) :
    (ring.firstPiece pipeCapacity n).length = ring.firstLength pipeCapacity n := by
  rw [RingBuffer.firstPiece, length_map, length_range]

theorem secondPiece_length (ring : RingBuffer UInt8) (n : Nat) :
    (ring.secondPiece pipeCapacity n).length = n - ring.firstLength pipeCapacity n := by
  rw [RingBuffer.secondPiece, length_map, length_range]

/-- A stretch written at the start and one written after it are one stretch. -/
theorem overwrite_twice (buf first second : List UInt8) :
    ([] ++ first ++ buf.drop (0 + first.length)).take first.length ++ second ++
        ([] ++ first ++ buf.drop (0 + first.length)).drop (first.length + second.length) =
      first ++ second ++ buf.drop (first ++ second).length := by
  rw [nil_append, Nat.zero_add, take_left, drop_append, drop_drop,
    drop_eq_nil_of_le (Nat.le_add_right _ _), nil_append, length_append,
    Nat.add_sub_cancel_left]

theorem firstLength_le (n : Nat) : m.pipe.ring.firstLength pipeCapacity n ≤ n := by
  unfold RingBuffer.firstLength
  split <;> omega

/-- Bytes are copied out whole, or the buffer is not accessible and none is. -/
theorem pipeCopyOut_cases (call mapped : Nat) (ok : m.Ok) (asked : 0 < n) (some : 0 < m.size) :
    (min n m.size ≤ mapped ∧ pipeCopyOut m call mapped n =
          (min n m.size, m.deliver call (min n m.size))) ∨ (mapped < min n m.size ∧
        ∃ buf, pipeCopyOut m call mapped n = (0, m.setBuffer call buf)) := by
  have pos : min n m.size ≠ 0 := by omega
  have enough : min n m.size ≤ m.pipe.ring.size := Nat.min_le_right _ _
  have whole : _ = m.held.take _ := RingBuffer.pieces_eq ok enough
  have short := @firstLength_le m (min n m.size)
  unfold pipeCopyOut writeUserMemory
  simp only [show min n m.pipe.ring.size = min n m.size from rfl, if_neg pos,
    firstPiece_length, secondPiece_length]
  generalize sizes : m.pipe.ring.firstLength pipeCapacity (min n m.size) = first at *
  by_cases reach : 0 + first ≤ mapped
  · rw [if_pos reach]
    by_cases more : first < min n m.size
    · simp only [if_pos more]
      by_cases far : first + (min n m.size - first) ≤ mapped
      · left
        refine ⟨by omega, ?_⟩
        have joined := overwrite_twice (m.memory call)
          (m.pipe.ring.firstPiece pipeCapacity (min n m.size))
          (m.pipe.ring.secondPiece pipeCapacity (min n m.size))
        rw [whole] at joined
        simp only [firstPiece_length, secondPiece_length, sizes, length_take, held_length,
          Nat.min_assoc, Nat.min_self] at joined
        rw [if_pos far]
        simp only [setBuffer_memory, setBuffer_setBuffer, take_zero, joined]
        rfl
      · right
        refine ⟨by omega, ?_⟩
        rw [if_neg far]
        exact ⟨_, rfl⟩
    · have exact : first = min n m.size := by omega
      left
      refine ⟨by omega, ?_⟩
      have none : m.pipe.ring.secondPiece pipeCapacity (min n m.size) = [] := by
        apply eq_nil_of_length_eq_zero
        rw [secondPiece_length]
        omega
      rw [none, append_nil] at whole
      simp only [if_neg more]
      simp only [take_zero, nil_append, whole, Nat.zero_add, exact]
      rfl
  · right
    refine ⟨by omega, m.memory call, ?_⟩
    rw [if_neg reach, setBuffer_self]

/-! ## Copying in -/

/-- A ring that holds `bytes` more. -/
structure Takes (m : Machine) (bytes : List UInt8) (ring : RingBuffer UInt8) : Prop where
  ok : ring.Ok pipeCapacity
  contents : ring.contents pipeCapacity = m.held ++ bytes

/-- The bytes of `call` stand in `ring` now. -/
def Machine.accepting (m : Machine) (ring : RingBuffer UInt8) (call : Nat)
    (bytes : List UInt8) : Machine :=
  { m with
    pipe := { m.pipe with ring := ring }
    accepted := m.accepted ++ bytes.map fun byte => (call, byte) }

theorem accepting_twice (first second : RingBuffer UInt8) (call : Nat) (bytes rest : List UInt8) :
    (m.accepting first call bytes).accepting second call rest =
      m.accepting second call (bytes ++ rest) := by
  unfold accepting
  simp only [map_append, append_assoc]

theorem Takes.nil (ok : m.Ok) : Takes m [] m.pipe.ring := ⟨ok, (append_nil _).symm⟩

theorem accepting_nil (m : Machine) (call : Nat) : m.accepting m.pipe.ring call [] = m := by
  unfold accepting
  rw [map_nil, append_nil]

theorem Takes.put (ok : m.Ok) (room : m.size + bytes.length ≤ pipeCapacity) :
    Takes m bytes (m.pipe.ring.put pipeCapacity bytes) :=
  ⟨(RingBuffer.Ok.put ok room).1, (RingBuffer.Ok.put ok room).2⟩

theorem Takes.append {first second : RingBuffer UInt8} {rest : List UInt8} (call : Nat)
    (one : Takes m bytes first) (two : Takes (m.accepting first call bytes) rest second) :
    Takes m (bytes ++ rest) second := by
  refine ⟨two.ok, ?_⟩
  have held : (m.accepting first call bytes).held = m.held ++ bytes := one.contents
  rw [two.contents, held, append_assoc]

theorem Takes.size {ring : RingBuffer UInt8} (takes : Takes m bytes ring) :
    ring.size = m.size + bytes.length := by
  have lengths := congrArg List.length takes.contents
  rw [RingBuffer.contents_length, length_append, held_length] at lengths
  exact lengths

/-- The loop takes in a beginning of what is asked for, all of it when the
buffer is accessible. -/
theorem copyIn_spec (call : Nat) (data : List UInt8) (mapped position rem : Nat)
    (m : Machine) (ok : m.Ok) (room : m.size + rem ≤ pipeCapacity)
    (ins : position + rem ≤ data.length) :
    ∃ taken ring, taken ≤ rem ∧ Takes m ((data.drop position).take taken) ring ∧
      (copyIn call data mapped position rem m).2 =
        m.accepting ring call ((data.drop position).take taken) ∧
      ((copyIn call data mapped position rem m).1 = true → taken = rem) ∧
      ((copyIn call data mapped position rem m).1 = false → mapped < position + rem) := by
  induction position, rem, m using copyIn.induct call data mapped with
  | case1 position m =>
    refine ⟨0, m.pipe.ring, le_rfl, Takes.nil ok, ?_, fun _ => rfl, ?_⟩
    · rw [copyIn, if_pos rfl]
      exact (accepting_nil m call).symm
    · rw [copyIn, if_pos rfl]
      exact nofun
  | case2 position rem m more step beyond =>
    have stops : copyIn call data mapped position rem m = (false, m) := by
      rw [copyIn, if_neg more]
      exact if_pos beyond
    rw [stops]
    refine ⟨0, m.pipe.ring, Nat.zero_le _, Takes.nil ok, ?_, ?_, fun _ => by omega⟩
    · exact (accepting_nil m call).symm
    · exact nofun
  | case3 position rem m more step reached ih =>
    have goes : copyIn call data mapped position rem m =
        copyIn call data mapped (position + step) (rem - step)
          (m.accept call ((data.drop position).take step)) := by
      rw [copyIn, if_neg more]
      exact if_neg reached
    have size : ((data.drop position).take step).length = step := by
      rw [length_take, length_drop]
      omega
    have one : Takes m ((data.drop position).take step)
        (m.pipe.ring.put pipeCapacity ((data.drop position).take step)) :=
      Takes.put ok (by rw [size]; omega)
    have grown : (m.accept call ((data.drop position).take step)).size = m.size + step := by
      have sum := one.size
      rw [size] at sum
      exact sum
    obtain ⟨taken, ring, bound, two, res, whole, short⟩ :=
      ih one.ok (by rw [grown]; omega) (by omega)
    have joined : (data.drop position).take step ++ (data.drop (position + step)).take taken =
        (data.drop position).take (step + taken) := by
      rw [take_add, drop_drop]
    rw [goes]
    refine ⟨step + taken, ring, by omega, joined ▸ one.append call two, ?_, ?_, ?_⟩
    · rw [res, ← joined]
      exact accepting_twice ..
    · intro done
      have rest := whole done
      omega
    · intro failed
      have far := short failed
      omega

/-! ## Rules for the two tries -/

/-- How a try to read ends without waking anybody. -/
inductive ReadEnds (m : Machine) (call mapped n : Nat) : Outcome → Machine → Prop where
  | unused (free : m.pipe.inUse = false) :
      ReadEnds m call mapped n (.done (negativeError badDescriptor)) m
  | nothing (none : n = 0) : ReadEnds m call mapped n (.done 0) m
  | ended (empty : m.size = 0) (closed : m.pipe.writerRefs = 0) :
      ReadEnds m call mapped n (.done 0) m
  | waits (empty : m.size = 0) (opened : m.pipe.writerRefs ≠ 0) :
      ReadEnds m call mapped n .blocked m
  | refused (buf : List UInt8) (beyond : mapped < min n m.size) :
      ReadEnds m call mapped n (.done (negativeError invalidArgument))
        (m.setBuffer call buf)

variable {fails : Machine → Prop}

theorem wp_tryPipeRead {wakeBlockedWriters : Call Unit} {post : Outcome → Machine → Prop}
    (ok : m.Ok) (ends : ∀ out t, ReadEnds m call mapped n out t → post out t)
    (served : 0 < n → 0 < m.size → min n m.size ≤ mapped →
      wp wakeBlockedWriters (fun _ => post (.done ((min n m.size : Nat) : Int))) fails
        (m.deliver call (min n m.size))) :
    wp (tryPipeRead wakeBlockedWriters call mapped n) post fails m := by
  unfold tryPipeRead
  rw [wp_bind, wp_get]
  split
  · next free => exact ends _ _ (.unused free)
  split
  · next none => exact ends _ _ (.nothing none)
  next none =>
  split
  · next empty =>
    split
    · next closed => exact ends _ _ (.ended empty closed)
    · next opened => exact ends _ _ (.waits empty opened)
  next empty =>
  rw [wp_bind, wp_update]
  have asked : 0 < n := Nat.pos_of_ne_zero none
  have some : 0 < m.size := Nat.pos_of_ne_zero empty
  rcases pipeCopyOut_cases call mapped ok asked some with
    ⟨reach, copied⟩ | ⟨beyond, buf, copied⟩
  · rw [copied]
    rw [if_neg (by omega), wp_bind]
    exact served asked some reach
  · rw [copied]
    exact ends _ _ (.refused buf beyond)

/-- How a try to write ends without waking anybody. -/
inductive WriteEnds (m : Machine) (call : Nat) (data : List UInt8) (mapped progress : Nat) :
    Outcome → Machine → Prop where
  | broken (closed : m.pipe.readerRefs = 0) :
      WriteEnds m call data mapped progress (.done (negativeError brokenPipe)) m
  | nothing (none : data.length = 0) :
      WriteEnds m call data mapped progress (.done 0) m
  | waits (opened : m.pipe.readerRefs ≠ 0) (full : m.size = pipeCapacity) :
      WriteEnds m call data mapped progress .blocked m
  | refused (taken : Nat) (ring : RingBuffer UInt8)
      (bound : taken ≤ writableBytes m data.length progress)
      (takes : Takes m ((data.drop progress).take taken) ring)
      (beyond : mapped < progress + writableBytes m data.length progress) :
      WriteEnds m call data mapped progress (.done (negativeError invalidArgument))
        (m.accepting ring call ((data.drop progress).take taken))

/-- What a try to write takes in. -/
def chunk (m : Machine) (data : List UInt8) (progress : Nat) : List UInt8 :=
  (data.drop progress).take (writableBytes m data.length progress)

theorem chunk_length (m : Machine) (data : List UInt8) (progress : Nat) :
    (chunk m data progress).length = writableBytes m data.length progress := by
  have bound : writableBytes m data.length progress ≤ data.length - progress := Nat.min_le_right _ _
  rw [chunk, length_take, length_drop]
  omega

theorem wp_pipeWriteChunk {wakeBlockedReaders : Call Unit} {post : Outcome → Machine → Prop}
    (ok : m.Ok) (early : progress ≤ data.length)
    (ends : ∀ out t, WriteEnds m call data mapped progress out t →
      post out t) (served : ∀ ring, m.pipe.readerRefs ≠ 0 → m.size < pipeCapacity →
      Takes m (chunk m data progress) ring → wp wakeBlockedReaders
        (fun _ => post (.done ((writableBytes m data.length progress : Nat) : Int))) fails
        (m.accepting ring call (chunk m data progress))) :
    wp (pipeWriteChunk wakeBlockedReaders call data mapped progress) post fails m := by
  unfold pipeWriteChunk
  rw [wp_bind, wp_get]
  split
  · next closed => exact ends _ _ (.broken closed)
  next closed =>
  split
  · next none => exact ends _ _ (.nothing none)
  split
  · next full => exact ends _ _ (.waits closed full)
  next full =>
  rw [wp_bind, wp_update]
  have fits : m.size ≤ pipeCapacity := ok.fits
  have bound : writableBytes m data.length progress ≤ pipeCapacity - m.size := Nat.min_le_left _ _
  have rest : writableBytes m data.length progress ≤ data.length - progress := Nat.min_le_right _ _
  obtain ⟨taken, ring, within, takes, res, whole, short⟩ :=
    copyIn_spec call data mapped progress (writableBytes m data.length progress) m ok
      (by omega) (by omega)
  rw [res]
  cases copied : (copyIn call data mapped progress (writableBytes m data.length progress) m).1 with
  | false =>
    exact ends _ _ (.refused taken ring within takes (short copied))
  | true =>
    rw [if_neg (by decide), wp_bind]
    have all := whole copied
    rw [all] at takes ⊢
    exact served ring closed (by omega) takes

/-! ## Passes without nesting -/

/-- Nobody is parked in `s` on a descriptor of the pipe. -/
def Quiet (m : Machine) (s : State) : Prop :=
  ∀ i, i < maxThreads → m.parked s i = false

instance (m : Machine) (s : State) : Decidable (Quiet m s) :=
  inferInstanceAs (Decidable (∀ i, i < maxThreads → _))

theorem Quiet.congr {s : State} (quiet : Quiet m s) (same : t.threads = m.threads) : Quiet t s := by
  intro i ins
  rw [parked, same]
  exact quiet i ins

/-- Where the threads of a side are parked. -/
def Side.state : Side → State
  | .readers => .blockedRead
  | .writers => .blockedWrite

def Side.other : Side → Side
  | .readers => .writers
  | .writers => .readers

theorem Side.other_other (side : Side) : side.other.other = side := by
  cases side <;> rfl

theorem Side.eq_other {side o : Side} (ne : o ≠ side) : o = side.other := by
  cases side <;> cases o <;> first | rfl | exact absurd rfl ne

/-- How many bytes the ring holds when a side has to wait. -/
def Side.limit : Side → Nat
  | .readers => 0
  | .writers => pipeCapacity

def Machine.refs (m : Machine) : Side → Nat
  | .readers => m.pipe.readerRefs
  | .writers => m.pipe.writerRefs

variable (depth : Nat)

theorem wake_quiet {side : Side} (quiet : Quiet m side.state) :
    wake (depth + 1) side m = (some (), m) := by
  cases side
  all_goals
    apply forSlots_idle
    intro i ins
    exact congrFun (if_pos (quiet i ins)) m

theorem wp_wake_quiet {post : Unit → Machine → Prop}
    {side : Side} (quiet : Quiet m side.state) (held : post () m) :
    wp (wake (depth + 1) side) post fails m := by
  rw [wp, wake_quiet depth quiet]
  exact held

/-- How a try to read ends when no writer is parked. -/
inductive ReadServed (m : Machine) (call mapped n : Nat) : Outcome → Machine → Prop where
  | ends {out : Outcome} {t : Machine}
      (atOnce : ReadEnds m call mapped n out t) :
      ReadServed m call mapped n out t
  | served (asked : 0 < n) (some : 0 < m.size)
      (reach : min n m.size ≤ mapped) :
      ReadServed m call mapped n (.done ((min n m.size : Nat) : Int))
        (m.deliver call (min n m.size))

theorem wp_tryPipeRead_quiet (ok : m.Ok) (quiet : Quiet m .blockedWrite) :
    wp (tryPipeRead (wake (depth + 1) .writers) call mapped n)
      (ReadServed m call mapped n) (fun _ => False) m := by
  apply wp_tryPipeRead ok
  · intro out t atOnce
    exact .ends atOnce
  intro asked some reach
  have still : Quiet (m.deliver call (min n m.size)) .blockedWrite := quiet.congr rfl
  exact @wp_wake_quiet _ _ depth _ .writers still (.served asked some reach)

/-- How a try to write ends when no reader is parked. -/
inductive WriteServed (m : Machine) (call : Nat) (data : List UInt8) (mapped progress : Nat) :
    Outcome → Machine → Prop where
  | ends {out : Outcome} {t : Machine}
      (atOnce : WriteEnds m call data mapped progress out t) :
      WriteServed m call data mapped progress out t
  | served (ring : RingBuffer UInt8) (opened : m.pipe.readerRefs ≠ 0)
      (room : m.size < pipeCapacity) (takes : Takes m (chunk m data progress) ring) :
      WriteServed m call data mapped progress
        (.done ((writableBytes m data.length progress : Nat) : Int))
        (m.accepting ring call (chunk m data progress))

/-- What a served writer leaves is the machine with some bytes more. -/
theorem WriteServed.takes {out : Outcome} (ok : m.Ok)
    (served : WriteServed m call data mapped progress out t) :
    ∃ ring bytes, Takes m bytes ring ∧ t = m.accepting ring call bytes := by
  cases served with
  | ends atOnce =>
    cases atOnce with
    | refused taken ring bound takes beyond => exact ⟨ring, _, takes, rfl⟩
    | _ => exact ⟨_, [], .nil ok, (accepting_nil m call).symm⟩
  | served ring opened room takes => exact ⟨ring, _, takes, rfl⟩

theorem wp_pipeWriteChunk_quiet (ok : m.Ok) (early : progress ≤ data.length)
    (quiet : Quiet m .blockedRead) :
    wp (pipeWriteChunk (wake (depth + 1) .readers) call data mapped progress)
      (WriteServed m call data mapped progress) (fun _ => False) m := by
  apply wp_pipeWriteChunk ok early
  · intro out t atOnce
    exact .ends atOnce
  intro ring opened room takes
  have still : Quiet (m.accepting ring call (chunk m data progress)) .blockedRead := quiet.congr rfl
  exact @wp_wake_quiet _ _ depth _ .readers still (.served ring opened room takes)

/-- A served reader leaves the ring with fewer bytes and the ends as they were. -/
theorem ReadServed.shrinks {out : Outcome} (served : ReadServed m call mapped n out t) :
    t.size ≤ m.size ∧ t.threads = m.threads ∧ t.pipe.writerRefs = m.pipe.writerRefs := by
  cases served with
  | ends atOnce => cases atOnce <;> exact ⟨le_rfl, rfl, rfl⟩
  | served => exact ⟨Nat.sub_le _ _, rfl, rfl⟩

/-- A served writer leaves the ring with more bytes and the ends as they were. -/
theorem WriteServed.grows {out : Outcome} (ok : m.Ok)
    (served : WriteServed m call data mapped progress out t) : m.size ≤ t.size ∧
      t.size ≤ pipeCapacity ∧ t.threads = m.threads ∧ t.pipe.readerRefs = m.pipe.readerRefs := by
  obtain ⟨ring, bytes, takes, rfl⟩ := served.takes ok
  refine ⟨?_, takes.ok.fits, rfl, rfl⟩
  change m.size ≤ ring.size
  rw [takes.size]
  exact Nat.le_add_right _ _

/-- A parked call is over: its thread is ready, whatever else its record says. -/
def Machine.complete (m : Machine) (i : Nat) (th : Thread) (res : Int) : Machine :=
  (m.setThread i { th with state := .ready, named := false }).answer
    (m.threads i).call res

theorem complete_parked {s : State} {i o : Nat} {th : Thread} {res : Int}
    (parked : (m.complete i th res).parked s o = true) : o ≠ i ∧ m.parked s o = true := by
  by_cases same : o = i
  · subst same
    simp only [Machine.parked, Machine.complete, Machine.answer, Machine.setThread,
      Function.update_self, Bool.and_false, Bool.false_eq_true] at parked
  · refine ⟨same, ?_⟩
    simp only [Machine.parked, Machine.complete, Machine.answer, Machine.setThread,
      Function.update_of_ne same] at parked ⊢
    exact parked

theorem completeBlockedRead_eq (m : Machine) (i : Nat) (res : Int) :
    m.completeBlockedRead i res = m.complete i { m.threads i with readCapacity := 0 } res := rfl

theorem completeBlockedWrite_eq (m : Machine) (i : Nat) (res : Int) :
    m.completeBlockedWrite i res =
      m.complete i { m.threads i with writeBuffer := [], writeProgress := 0 }
        res := rfl

theorem parked_congr {s : State} {i : Nat} (same : t.threads = m.threads) :
    t.parked s i = m.parked s i := by
  rw [parked, parked, same]

/-- What is left of a writer's call after some of its bytes went in. -/
theorem noteProgress_eq (i step : Nat) (m : Machine) :
    noteProgress i step m = if (m.threads i).writeBuffer.length ≤
          (m.threads i).writeProgress + step then
        m.completeBlockedWrite i
          (toInt32 (m.threads i).writeBuffer.length)
      else
        m.setThread i
          { m.threads i with
            writeProgress := (m.threads i).writeProgress + step } := by
  unfold noteProgress
  simp only [Int.toNat_natCast]
  split
  · unfold completeBlockedWrite setThread
    simp only [update_self, update_idem]
  · rfl

/-- What a round does with a served writer. -/
def settleParkedWrite (i : Nat) (step : Int) (m : Machine) : Machine :=
  if step < 0 then m.completeBlockedWrite i step else noteProgress i step m

/-- Why a thread of a side has to wait: no byte is left for it, or no room. -/
def Stuck (m : Machine) (side : Side) : Prop :=
  m.size = side.limit ∧ m.refs side.other ≠ 0

def Served (m : Machine) (side : Side) (limit : Nat) : Prop :=
  ∀ i, i < limit → m.parked side.state i = true → Stuck m side

variable {holds : Machine → Prop}

/-- A pass over a side: what each round keeps holds at the end, and a thread
still parked has to wait when each round leaves it so. -/
theorem wp_pass {side : Side} {round : Nat → Call Unit} (serve : ∀ s i, i < maxThreads → holds s →
      wp (round i) (fun _ t => holds t ∧ ∀ o, t.parked side.state o = true → Stuck t side ∨
          o ≠ i ∧ s.parked side.state o = true ∧
            (Stuck s side → Stuck t side)) (fun _ => False) s) (start : holds m) :
    wp (forSlots maxThreads round) (fun _ t => holds t ∧ Served t side maxThreads)
      (fun _ => False) m := by
  have begun : holds m ∧ Served m side 0 := ⟨start, fun i ins => absurd ins (Nat.not_lt_zero i)⟩
  refine @wp_forSlots Machine _ _ (fun k s => holds s ∧ Served s side k)
    maxThreads ?_ m begun
  rintro i ins s ⟨held, served⟩
  apply (serve s i ins held).imp
  rintro _ t ⟨kept, still⟩
  refine ⟨kept, fun o bound waits => ?_⟩
  rcases still o waits with stuck | ⟨apart, waited, carried⟩
  · exact stuck
  · exact carried (served o (by omega) waited)

/-- A pass over the parked readers with no writer parked. -/
theorem wp_wake_readers (calm : ∀ m, holds m → m.Ok ∧ Quiet m .blockedWrite)
    (serve : ∀ m i res t, i < maxThreads → holds m → m.parked .blockedRead i = true →
      ReadServed m (m.threads i).call (m.threads i).mapped
        (m.threads i).readCapacity (.done res) t →
      holds (t.completeBlockedRead i res)) (start : holds m) :
    wp (wake (depth + 2) .readers) (fun _ t => holds t ∧ Served t .readers maxThreads)
      (fun _ => False) m := by
  refine wp_pass (fun s i ins held => ?_) start
  obtain ⟨ok, quiet⟩ := calm s held
  unfold serveReader
  rw [wp_bind, wp_get]
  cases parked : s.parked .blockedRead i with
  | false =>
    refine ⟨held, fun o waits => .inr ⟨fun same => ?_, waits, id⟩⟩
    rw [same, Side.state, parked] at waits
    cases waits
  | true =>
    rw [if_neg (by decide), wp_bind]
    apply (wp_tryPipeRead_quiet depth ok quiet).imp
    intro out t tried
    obtain ⟨shrinks, threads, refs⟩ := tried.shrinks
    cases out with
    | blocked =>
      cases tried with
      | ends atOnce =>
        cases atOnce with
        | waits empty opened => exact ⟨held, fun _ _ => .inl ⟨empty, opened⟩⟩
    | done res =>
      refine ⟨serve s i res t ins held parked tried, fun o waits => ?_⟩
      dsimp only at waits
      rw [completeBlockedRead_eq] at waits
      obtain ⟨ne, waited⟩ := complete_parked waits
      rw [parked_congr threads] at waited
      refine .inr ⟨ne, waited, fun ⟨empty, opened⟩ => ?_⟩
      have none : s.size = 0 := empty
      have drained : t.size = 0 := by omega
      have still : t.pipe.writerRefs ≠ 0 := by rw [refs]; exact opened
      exact ⟨drained, still⟩

/-- A served writer that is still parked filled the ring, and the others are
parked as before. -/
theorem settleParkedWrite_parked {i o : Nat} {step : Int} (ok : m.Ok)
    (tried : WriteServed m (m.threads i).call (m.threads i).writeBuffer
      (m.threads i).mapped (m.threads i).writeProgress (.done step) t)
    (early : (m.threads i).writeProgress < (m.threads i).writeBuffer.length)
    (parked : (settleParkedWrite i step t).parked .blockedWrite o = true) :
    (o ≠ i ∧ m.parked .blockedWrite o = true) ∨
      (t.size = pipeCapacity ∧ t.pipe.readerRefs ≠ 0) := by
  obtain ⟨_, _, threads, _⟩ := tried.grows ok
  unfold settleParkedWrite at parked
  split at parked
  · left
    rw [completeBlockedWrite_eq] at parked
    obtain ⟨ne, waited⟩ := complete_parked parked
    exact ⟨ne, (parked_congr threads) ▸ waited⟩
  · next nonnegative =>
    cases tried with
    | ends atOnce =>
      cases atOnce with
      | broken | refused => exact absurd (by decide) nonnegative
      | nothing none => omega
    | served ring opened room takes =>
      rw [noteProgress_eq] at parked
      split at parked
      · left
        rw [completeBlockedWrite_eq] at parked
        obtain ⟨ne, waited⟩ := complete_parked parked
        exact ⟨ne, (parked_congr threads) ▸ waited⟩
      · next unfinished =>
        right
        refine ⟨?_, opened⟩
        change ring.size = pipeCapacity
        rw [takes.size, chunk_length]
        change ¬ (m.threads i).writeBuffer.length ≤ (m.threads i).writeProgress + _ at unfinished
        unfold writableBytes at unfinished ⊢
        omega

theorem settleParkedWrite_pipe (i : Nat) (step : Int) (m : Machine) :
    (settleParkedWrite i step m).pipe = m.pipe := by
  unfold settleParkedWrite noteProgress
  dsimp only
  split
  · rfl
  · split <;> rfl

theorem wp_settleParkedWrite {post : Unit → Machine → Prop} {i : Nat}
    {step : Int} (held : post () (settleParkedWrite i step m)) :
    wp (if step < 0 then Fallible.update fun m => m.completeBlockedWrite i step
      else Fallible.update (noteProgress i step)) post fails m := by
  unfold settleParkedWrite at held
  by_cases negative : step < 0
  · rw [if_pos negative] at held ⊢
    exact held
  · rw [if_neg negative] at held ⊢
    exact held

/-- A pass over the parked writers with no reader parked. -/
theorem wp_wake_writers (calm : ∀ m, holds m → m.Ok ∧ Quiet m .blockedRead)
    (early : ∀ m i, holds m → m.parked .blockedWrite i = true →
      (m.threads i).writeProgress < (m.threads i).writeBuffer.length)
    (serve : ∀ m i step t, i < maxThreads → holds m → m.parked .blockedWrite i = true →
      WriteServed m (m.threads i).call (m.threads i).writeBuffer
        (m.threads i).mapped (m.threads i).writeProgress (.done step) t →
      holds (settleParkedWrite i step t)) (start : holds m) :
    wp (wake (depth + 2) .writers) (fun _ t => holds t ∧ Served t .writers maxThreads)
      (fun _ => False) m := by
  refine wp_pass (fun s i ins held => ?_) start
  obtain ⟨ok, quiet⟩ := calm s held
  unfold serveWriter
  rw [wp_bind, wp_get]
  cases parked : s.parked .blockedWrite i with
  | false =>
    refine ⟨held, fun o waits => .inr ⟨fun same => ?_, waits, id⟩⟩
    rw [same, Side.state, parked] at waits
    cases waits
  | true =>
    have begunEarly := early s i held parked
    rw [if_neg (by decide), wp_bind]
    apply (wp_pipeWriteChunk_quiet depth ok (Nat.le_of_lt begunEarly) quiet).imp
    intro out t tried
    obtain ⟨grows, most, threads, refs⟩ := tried.grows ok
    cases out with
    | blocked =>
      cases tried with
      | ends atOnce =>
        cases atOnce with
        | waits opened full => exact ⟨held, fun _ _ => .inl ⟨full, opened⟩⟩
    | done step =>
      apply wp_settleParkedWrite
      refine ⟨serve s i step t ins held parked tried, fun o waits => ?_⟩
      have pipe := settleParkedWrite_pipe i step t
      unfold Stuck Machine.size Machine.refs
      rw [pipe]
      rcases settleParkedWrite_parked ok tried begunEarly waits with ⟨ne, waited⟩ | filled
      · refine .inr ⟨ne, waited, fun ⟨full, opened⟩ => ?_⟩
        change t.size = pipeCapacity ∧ _
        have filled : s.size = pipeCapacity := full
        exact ⟨Nat.le_antisymm most (filled ▸ grows), refs ▸ opened⟩
      · exact .inl filled

end SavanXP.Pipes
