import SavanXP.Process.PipeIntegrity

/-!
# Runs of a pipe

Between calls a parked reader finds the ring empty and a parked writer finds it
full, so one side at most is parked and a wakeup never nests.  A blocking write
longer than the ring breaks this when a reader is parked: the reader takes
bytes out before the writer parks.  Every other call keeps it, and with it the
bytes keep their order.
-/

namespace SavanXP.Pipes

open SavanXP.Library List Function Machine
open SavanXP.Library.Fallible

variable {m t : Machine} {call i mapped capacity progress depth : Nat}
  {data got buffer : List UInt8} {request : Request} {nonblock : Bool}

/-- Between calls nobody is parked on a pipe that could serve them, or on an
end that is closed. -/
def Settled (m : Machine) : Prop :=
  ∀ side i, i < maxThreads → m.parked side.state i = true →
    Stuck m side ∧ m.refs side ≠ 0

structure Sound (m : Machine) : Prop where
  integrity : Integrity m
  settled : Settled m

theorem Settled.fewer (settled : Settled m) (pipe : t.pipe = m.pipe)
    (parked : ∀ s i, t.parked s i = true → m.parked s i = true) : Settled t := by
  intro side i ins waits
  have old := settled side i ins (parked _ i waits)
  unfold Stuck size refs at old ⊢
  rw [pipe]
  exact old

theorem Settled.congr (settled : Settled m) (threads : t.threads = m.threads)
    (pipe : t.pipe = m.pipe) : Settled t :=
  settled.fewer pipe fun _ _ waits => parked_congr threads ▸ waits

theorem not_quiet {s : State} (busy : ¬ Quiet m s) : ∃ i, i < maxThreads ∧ m.parked s i = true := by
  by_contra none
  apply busy
  intro i ins
  cases parked : m.parked s i with
  | false => rfl
  | true => exact absurd ⟨i, ins, parked⟩ none

/-- A side that could go on is not parked. -/
theorem Settled.quiet (settled : Settled m) {side : Side} (goes : m.size ≠ side.limit) :
    Quiet m side.state := by
  by_contra busy
  obtain ⟨i, ins, parked⟩ := not_quiet busy
  exact goes (settled side i ins parked).1.1

theorem Quiet.absurd {s : State} (quiet : Quiet m s) (ins : i < maxThreads)
    (parked : m.parked s i = true) : False := by
  rw [quiet i ins] at parked
  cases parked

/-- Nobody parked is settled. -/
theorem Settled.ofQuiet (quiet : ∀ side : Side, Quiet m side.state) : Settled m :=
  fun side _ ins waits => ((quiet side).absurd ins waits).elim

theorem limit_other (side : Side) : side.limit ≠ side.other.limit := by
  have pos := pipeCapacity_pos
  cases side
  · exact Nat.ne_of_lt pos
  · exact Nat.ne_of_gt pos

/-- A side may wait when the other side is not parked. -/
theorem Settled.ofSide {side : Side} (served : Served m side maxThreads)
    (opened : ∀ i < maxThreads, m.parked side.state i = true → m.refs side ≠ 0)
    (quiet : Quiet m side.other.state) : Settled m := by
  intro o i ins waits
  by_cases same : o = side
  · subst same
    exact ⟨served i ins waits, opened i ins waits⟩
  · rw [Side.eq_other same] at waits
    exact (quiet.absurd ins waits).elim

/-! ## The two passes -/

theorem Frame.refs_side (frame : Frame m t) (side : Side) : t.refs side = m.refs side := by
  unfold Machine.refs
  rw [frame.refs]

variable (depth : Nat)

/-- A pass over one side, with nobody parked on the other. -/
theorem wake_sound {side : Side} (integrity : Integrity m)
    (used : m.pipe.inUse = true) (quiet : Quiet m side.other.state)
    (opened : ∀ i < maxThreads, m.parked side.state i = true → m.refs side ≠ 0) :
    wp (wake (depth + 2) side)
      (fun _ t => Integrity t ∧ Frame m t ∧ Settled t) (fun _ => False) m := by
  have start : Integrity m ∧ Frame m m := ⟨integrity, Frame.refl m⟩
  have usedStill : ∀ {s}, Frame m s → s.pipe.inUse = true := by
    intro s frame
    rw [frame.refs]
    exact used
  have passed : wp (wake (depth + 2) side) (fun _ t =>
      (Integrity t ∧ Frame m t) ∧ Served t side maxThreads) (fun _ => False)
      m := by
    cases side with
    | readers =>
      refine wp_wake_readers depth ?_ ?_ start
      · rintro s ⟨right, frame⟩
        exact ⟨right.ok, frame.quiet quiet⟩
      · rintro s i res t _ ⟨right, frame⟩ parked served
        obtain ⟨rightLater, step⟩ := right.serveReader (usedStill frame) parked served
        exact ⟨rightLater, frame.trans step⟩
    | writers =>
      refine wp_wake_writers depth ?_ ?_ ?_ start
      · rintro s ⟨right, frame⟩
        exact ⟨right.ok, frame.quiet quiet⟩
      · rintro s i ⟨right, _⟩ parked
        exact (right.waitingWriter parked).2.2.2.2
      · rintro s i step t _ ⟨right, frame⟩ parked served
        obtain ⟨rightLater, stepFrame⟩ := right.serveWriter (usedStill frame) parked served
        exact ⟨rightLater, frame.trans stepFrame⟩
  refine passed.imp ?_
  rintro _ t ⟨⟨right, frame⟩, served⟩
  refine ⟨right, frame, Settled.ofSide served (fun i ins waits => ?_) (frame.quiet quiet)⟩
  rw [frame.refs_side]
  exact opened i ins (frame.parked _ i waits)

/-! ## A call in progress -/

/-- A call that has not returned, by a thread that is not parked. -/
structure Running (m : Machine) (call i : Nat) (request : Request) : Prop where
  alone : ∀ o, Blocked m o → (m.threads o).call ≠ call
  ready : ¬ Blocked m i
  request : (account m call).request = some request
  results : (account m call).results = []

theorem Running.later (running : Running m call i request)
    (blocked : ∀ o, Blocked t o → Blocked m o ∧ (t.threads o).call = (m.threads o).call)
    (requests : (account t call).request = (account m call).request)
    (results : (account t call).results = (account m call).results) : Running t call i request where
  alone o later := by
    obtain ⟨old, same⟩ := blocked o later
    rw [same]
    exact running.alone o old
  ready later := running.ready (blocked i later).1
  request := requests.trans running.request
  results := results.trans running.results

theorem Running.frame (running : Running m call i request) (frame : Frame m t) :
    Running t call i request := by
  have same := frame.accounts call running.alone
  exact running.later frame.blocked (congrArg Account.request same) (congrArg Account.results same)

section

variable (integrity : Integrity m)
include integrity

/-- A new call. -/
theorem Integrity.enter (ready : ¬ Blocked m i) (request : Request) : Integrity (m.enter request) ∧
      Running (m.enter request) m.requests.length i request ∧
      (account (m.enter request) m.requests.length).accepted = [] ∧
      (account (m.enter request) m.requests.length).delivered = [] := by
  have old := integrity.calls m.requests.length
  have missing : m.requests[m.requests.length]? = none := getElem?_eq_none le_rfl
  simp only [account, missing] at old
  have requested : (account (m.enter request) m.requests.length).request = some request := by
    change (m.requests ++ [request])[m.requests.length]? = some request
    rw [getElem?_append_right le_rfl, Nat.sub_self]
    rfl
  have others : ∀ o ≠ m.requests.length, account (m.enter request) o = account m o := by
    intro o ne
    unfold account
    congr 1
    change (m.requests ++ [request])[o]? = m.requests[o]?
    rcases Nat.lt_or_ge o m.requests.length with ins | outside
    · exact getElem?_append_left ins
    rw [getElem?_append_right outside, getElem?_eq_none outside]
    apply getElem?_eq_none
    rw [length_singleton]
    omega
  have alone : ∀ o, Blocked m o →
      (m.threads o).call ≠ m.requests.length :=
    fun o blocked => integrity.unused blocked le_rfl
  refine ⟨?_, ⟨alone, ready, requested, old.2.2⟩, old.1, old.2.1⟩
  apply integrity.change m.requests.length i
  · exact integrity.ok
  · exact integrity.live
  · exact integrity.stream
  · exact others
  · exact fun _ _ => rfl
  · exact fun o _ blocked => alone o blocked
  · unfold Account.Ok
    rw [requested, show (account (m.enter request) m.requests.length).results = [] from old.2.2,
      show (account (m.enter request) m.requests.length).accepted = [] from old.1]
    cases request with
    | read capacity nonblock => exact ⟨rfl, nofun⟩
    | write data nonblock => exact ⟨old.2.1, nil_prefix, nofun⟩
  · exact fun bad => absurd bad ready

/-- A call returns. -/
theorem Integrity.answer {res : Int} (running : Running m call i request)
    (right : Account.Ok { account m call with
      results := (account m call).results ++ [res] }) :
    Integrity (m.answer call res) := by
  apply integrity.change call i
  · exact integrity.ok
  · exact integrity.live
  · exact integrity.stream
  · exact fun o ne => account_answer_other ne res
  · exact fun _ _ => rfl
  · exact fun o _ blocked => running.alone o blocked
  · rw [account_answer_own]
    exact right
  · exact fun bad => absurd bad running.ready

/-- Bytes move for a call in progress. -/
theorem Integrity.effectFor {took gave : List UInt8}
    (used : m.pipe.inUse = true) (running : Running m call i request)
    (effect : Effect m call took gave buffer t)
    (right : Running t call i request → (account t call).Ok) :
    Integrity t ∧ Running t call i request := by
  have runningLater : Running t call i request := by
    apply running.later
    · intro o blocked
      rw [Blocked, effect.threads] at blocked
      exact ⟨blocked, by rw [effect.threads]⟩
    all_goals rw [effect.own]
  refine ⟨?_, runningLater⟩
  apply integrity.change call i
  · exact effect.ok
  · exact effect.live used
  · exact effect.stream used integrity.stream
  · exact effect.others
  · intro o _
    rw [effect.threads]
  · exact fun o _ blocked => running.alone o blocked
  · exact right runningLater
  · exact fun bad => absurd bad runningLater.ready

theorem Integrity.readFor (used : m.pipe.inUse = true)
    (running : Running m call i (.read capacity nonblock))
    (effect : Effect m call [] got buffer t) :
    Integrity t ∧ Running t call i (.read capacity nonblock) := by
  refine integrity.effectFor used running effect fun runningLater => ?_
  unfold Account.Ok
  rw [runningLater.request, runningLater.results, effect.own, append_nil]
  exact ⟨(integrity.calls call).read running.request, nofun⟩

theorem Integrity.writeFor {taken : Nat} (used : m.pipe.inUse = true)
    (running : Running m call i (.write data nonblock)) (empty : (account m call).accepted = [])
    (effect : Effect m call (data.take taken) [] buffer t) :
    Integrity t ∧ Running t call i (.write data nonblock) := by
  refine integrity.effectFor used running effect fun runningLater => ?_
  unfold Account.Ok
  rw [runningLater.request, runningLater.results, effect.own, empty, nil_append, append_nil]
  exact ⟨(integrity.calls call).write running.request, take_prefix _ _, nofun⟩

end

theorem parkRead_slot (m : Machine) (i call capacity mapped : Nat) :
    (m.parkRead i call capacity mapped).threads i =
      { m.threads i with
        state := .blockedRead, named := true, call := call, mapped := mapped,
        readCapacity := capacity } := update_self ..

theorem parkRead_other (m : Machine) {i o : Nat} (call capacity mapped : Nat)
    (ne : o ≠ i) : (m.parkRead i call capacity mapped).threads o = m.threads o :=
  update_of_ne ne _ _

theorem parkWrite_slot (m : Machine) (i call : Nat) (data : List UInt8) (mapped progress : Nat) :
    (m.parkWrite i call data mapped progress).threads i =
      { m.threads i with
        state := .blockedWrite, named := true, call := call, mapped := mapped,
        writeBuffer := data, writeProgress := progress } := update_self ..

/-- A call that cannot go on parks. -/
theorem Integrity.park {th : Thread} (integrity : Integrity m)
    (running : Running m call i request) (own : th.call = call)
    (wait : th.Waiting (account m call)) : Integrity (m.setThread i th) := by
  have k : (m.setThread i th).threads i = th := update_self ..
  apply integrity.change call i
  · exact integrity.ok
  · exact integrity.live
  · exact integrity.stream
  · exact fun _ _ => rfl
  · exact fun o ne => update_of_ne ne _ _
  · exact fun o _ blocked => running.alone o blocked
  · exact integrity.calls call
  intro _
  unfold Waiting
  rw [k, own]
  exact ⟨rfl, wait⟩

/-! ## Calls -/

theorem canCall_spec {refs : Nat} (can : canCall m i refs = true) :
    ¬ Blocked m i ∧ refs ≠ 0 := by
  unfold canCall at can
  simp only [Bool.and_eq_true, decide_eq_true_eq] at can
  exact ⟨fun blocked => blocked can.1.2, can.2⟩

theorem Integrity.used (integrity : Integrity m) {side : Side}
    (opened : m.refs side ≠ 0) : m.pipe.inUse = true := by
  cases used : m.pipe.inUse with
  | true => rfl
  | false =>
    obtain ⟨noReader, noWriter⟩ := integrity.live used
    cases side with
    | readers => exact absurd noReader opened
    | writers => exact absurd noWriter opened

/-- A read that returns what it got. -/
theorem Sound.answerRead {res : Int} (integrity : Integrity m) (settled : Settled m)
    (running : Running m call i (.read capacity nonblock)) (nonnegative : 0 ≤ res →
      (account m call).delivered = (account m call).buffer.take res.toNat ∧
        (account m call).delivered.length = res.toNat)
    (negative : res < 0 → (account m call).delivered = []) : Sound (m.answer call res) := by
  refine ⟨integrity.answer running ?_, settled.congr rfl rfl⟩
  exact read_account_ok running.request ((integrity.calls call).read running.request)
    running.results nonnegative negative

/-- A write that returns how much was taken. -/
theorem Sound.answerWrite {res : Int} (integrity : Integrity m) (settled : Settled m)
    (running : Running m call i (.write data nonblock))
    (taken : (account m call).accepted = data.take progress) (bound : progress ≤ data.length)
    (nonnegative : 0 ≤ res → res = (progress : Int)) : Sound (m.answer call res) := by
  refine ⟨integrity.answer running ?_, settled.congr rfl rfl⟩
  exact write_account_ok running.request ((integrity.calls call).write running.request) taken
    running.results bound fun sign _ => nonnegative sign

/-- A thread may park on a pipe that cannot serve it. -/
theorem Settled.park {side : Side} {th : Thread} (settled : Settled m)
    (s : th.state = side.state) (stuck : Stuck m side) (opened : m.refs side ≠ 0) :
    Settled (m.setThread i th) := by
  intro o place ins parked
  by_cases same : o = side
  · rw [same]
    exact ⟨stuck, opened⟩
  apply settled o place ins
  by_cases here : place = i
  · rw [Side.eq_other same, here] at parked
    simp only [Machine.parked, Machine.setThread, Function.update_self, s] at parked
    cases side <;> cases parked
  · simp only [Machine.parked, Machine.setThread, Function.update_of_ne here] at parked ⊢
    exact parked

/-- A read keeps a pipe sound. -/
theorem nativeRead_sound (ok : Sound m) (ready : ¬ Blocked m i) (opened : m.pipe.readerRefs ≠ 0) :
    wp (nativeRead (wake (depth + 2) .writers) i capacity mapped nonblock)
      (fun _ => Sound) (fun _ => False) m := by
  have used := @Integrity.used _ ok.integrity .readers opened
  obtain ⟨integrity, running, _, empty⟩ := ok.integrity.enter ready (.read capacity nonblock)
  have settled : Settled (m.enter (.read capacity nonblock)) := ok.settled.congr rfl rfl
  unfold nativeRead
  rw [wp_bind, wp_get, wp_bind, wp_update]
  generalize m.requests.length = call at *
  generalize entered : m.enter (.read capacity nonblock) = start at *
  have refs : start.pipe = m.pipe := by rw [← entered]; rfl
  have nothing : ∀ res : Int, res ≤ 0 → Sound (start.answer call res) := by
    intro res small
    apply Sound.answerRead integrity settled running
    · intro sign
      have zero : res = 0 := by omega
      rw [zero, empty]
      exact ⟨rfl, rfl⟩
    · exact fun _ => empty
  split
  · exact nothing 0 (by decide)
  next none =>
  split
  · exact nothing _ (by decide)
  next beyond =>
  rw [wp_bind]
  apply wp_tryPipeRead integrity.ok
  · intro out t ends
    cases ends with
    | unused free =>
      rw [refs, used] at free
      cases free
    | nothing zero => exact absurd zero none
    | ended _ _ => exact nothing 0 (by decide)
    | waits drained writer =>
      cases nonblock with
      | true => exact nothing _ (by decide)
      | false =>
        have reader : start.pipe.readerRefs ≠ 0 := by rw [refs]; exact opened
        exact ⟨integrity.park running rfl
          ⟨running.results, Nat.pos_of_ne_zero none, running.request, empty⟩,
          @Settled.park _ _ .readers _ settled rfl ⟨drained, writer⟩ reader⟩
    | refused buffer far => omega
  · intro asked some reach
    have effect := Effect.deliver integrity.ok call (Nat.min_le_right capacity start.size)
    have usedStart : start.pipe.inUse = true := by rw [refs]; exact used
    obtain ⟨delivered, runningLater⟩ := integrity.readFor usedStart running effect
    have quiet : Quiet (start.deliver call (min capacity start.size)) .blockedRead :=
      (@Settled.quiet _ settled .readers (Nat.ne_of_gt some)).congr rfl
    apply (@wake_sound _ depth .writers delivered usedStart quiet fun place ins waits =>
      (settled .writers place ins waits).2).imp
    rintro _ final ⟨right, frame, settledLater⟩
    have same := frame.accounts call runningLater.alone
    have size : (start.held.take (min capacity start.size)).length = min capacity start.size := by
      rw [length_take, held_length]
      omega
    have own : account final call =
        { account start call with
          delivered := start.held.take (min capacity start.size),
          buffer := start.held.take (min capacity start.size) ++
            (start.memory call).drop (min capacity start.size) } := by
      rw [same, effect.own, empty, nil_append, append_nil]
    apply Sound.answerRead right settledLater (runningLater.frame frame)
    · intro _
      rw [own, Int.toNat_natCast]
      exact ⟨(take_left' size).symm, size⟩
    · intro negative
      omega

theorem settleWrite_done (i call : Nat) (data : List UInt8) (mapped : Nat) (nonblock : Bool)
    (taken : Nat) (m : Machine) : settleWrite i call data mapped nonblock (.done (taken : Int)) m =
      if taken = data.length ∨ nonblock = true then m.answer call taken
      else m.parkWrite i call data mapped taken := by
  simp only [settleWrite]
  rw [if_neg (by omega), Int.toNat_natCast]

/-- A write that parks was not cut short by a reader. -/
def WriteTame (m : Machine) (length : Nat) (nonblock : Bool) : Prop :=
  nonblock = false → pipeCapacity < length → Quiet m .blockedRead

/-- A write that has put some bytes into the ring answers, or parks on a full ring. -/
theorem settleWrite_sound (integrity : Integrity m) (settled : Settled m)
    (running : Running m call i (.write data nonblock))
    (own : (account m call).accepted = data.take progress) (bound : progress ≤ data.length)
    (full : nonblock = false → progress < data.length → Stuck m .writers ∧ m.refs .writers ≠ 0) :
    Sound (settleWrite i call data mapped nonblock (.done (progress : Int)) m) := by
  rw [settleWrite_done]
  split
  · exact Sound.answerWrite integrity settled running own bound (fun _ => rfl)
  · next unfinished =>
    rw [not_or, Bool.not_eq_true] at unfinished
    obtain ⟨short, rfl⟩ := unfinished
    have early : progress < data.length := by omega
    obtain ⟨stuck, opened⟩ := full rfl early
    exact ⟨integrity.park running rfl ⟨running.results, running.request, own, early⟩,
      @Settled.park _ _ .writers _ settled rfl stuck opened⟩

/-- The readers are woken after some bytes went in. -/
theorem wakeReaders_sound {ring : RingBuffer UInt8} (integrity : Integrity m) (settled : Settled m)
    (running : Running m call i (.write data nonblock)) (empty : (account m call).accepted = [])
    (used : m.pipe.inUse = true) (opened : m.pipe.writerRefs ≠ 0)
    (tame : WriteTame m data.length nonblock) (reader : m.pipe.readerRefs ≠ 0)
    (room : m.size < pipeCapacity) (takes : Takes m (chunk m data 0) ring) :
    wp (wake (depth + 2) .readers)
      (fun _ t => Sound
        (settleWrite i call data mapped nonblock (.done (writableBytes m data.length 0 : Nat)) t))
      (fun _ => False) (m.accepting ring call (chunk m data 0)) := by
  have effect : Effect m call (data.take (writableBytes m data.length 0)) [] (m.memory call)
      (m.accepting ring call (chunk m data 0)) := Effect.accepting takes call
  obtain ⟨accepted, runningLater⟩ := integrity.writeFor used running empty effect
  have bound : writableBytes m data.length 0 ≤ data.length := Nat.min_le_right _ _
  have quietWriters : Quiet (m.accepting ring call (chunk m data 0)) .blockedWrite :=
    (@Settled.quiet _ settled .writers (Nat.ne_of_lt room)).congr rfl
  have own : (account (m.accepting ring call (chunk m data 0)) call).accepted =
      data.take (writableBytes m data.length 0) := by
    rw [effect.own, empty, nil_append]
  by_cases quiet : Quiet m .blockedRead
  · have quietReaders : Quiet (m.accepting ring call (chunk m data 0)) .blockedRead :=
      quiet.congr rfl
    apply @wp_wake_quiet _ _ _ _ .readers quietReaders
    refine settleWrite_sound accepted (.ofQuiet fun side => ?_) runningLater own bound ?_
    · cases side
      · exact quietReaders
      · exact quietWriters
    · intro _ short
      refine ⟨⟨?_, reader⟩, opened⟩
      change ring.size = pipeCapacity
      rw [takes.size, chunk_length]
      unfold writableBytes at short ⊢
      omega
  · obtain ⟨waiter, inside, parked⟩ := not_quiet quiet
    have drained : m.size = 0 := (settled .readers waiter inside parked).1.1
    apply (@wake_sound _ depth .readers accepted used quietWriters
      fun place inside waits => (settled .readers place inside waits).2).imp
    rintro _ final ⟨right, frame, settledLater⟩
    refine settleWrite_sound right settledLater (runningLater.frame frame) ?_ bound ?_
    · rw [frame.accounts call runningLater.alone]
      exact own
    · -- the ring was empty, so that only a write longer than the ring is cut short
      intro blocking short
      have fits : ¬ pipeCapacity < data.length := fun long => quiet (tame blocking long)
      unfold writableBytes at short
      omega

/-- A write keeps a pipe sound, unless it is to block, is longer than the ring
and finds a reader parked. -/
theorem nativeWrite_sound (ok : Sound m) (ready : ¬ Blocked m i)
    (opened : m.pipe.writerRefs ≠ 0) (tame : WriteTame m data.length nonblock) :
    wp (nativeWrite (wake (depth + 2) .readers) i data mapped nonblock)
      (fun _ => Sound) (fun _ => False) m := by
  have used := @Integrity.used _ ok.integrity .writers opened
  obtain ⟨integrity, running, empty, _⟩ := ok.integrity.enter ready (.write data nonblock)
  have settled : Settled (m.enter (.write data nonblock)) := ok.settled.congr rfl rfl
  have tameStart : WriteTame (m.enter (.write data nonblock)) data.length nonblock := tame
  unfold nativeWrite
  rw [wp_bind, wp_get, wp_bind, wp_update]
  generalize refusal : refusedWhole m data.length nonblock = refused
  generalize m.requests.length = call at *
  generalize entered : m.enter (.write data nonblock) = start at *
  have refs : start.pipe = m.pipe := by rw [← entered]; rfl
  have nothing : ∀ res : Int, res ≤ 0 → Sound (start.answer call res) := by
    intro res small
    exact @Sound.answerWrite start call i 0 data nonblock res integrity settled running empty
      (Nat.zero_le _) (fun _ => by omega)
  split
  · exact nothing 0 (by decide)
  next none =>
  split
  · exact nothing _ (by decide)
  next beyond =>
  cases refused with
  | true =>
    exact nothing _ (by decide)
  | false =>
    rw [if_neg (by decide), wp_bind]
    apply wp_pipeWriteChunk integrity.ok (Nat.zero_le _)
    · intro out t ends
      cases ends with
      | broken closed => exact nothing _ (by decide)
      | nothing zero => exact absurd zero none
      | waits reader full =>
        cases nonblock with
        | true => exact nothing _ (by decide)
        | false =>
          have writer : start.pipe.writerRefs ≠ 0 := by rw [refs]; exact opened
          exact ⟨integrity.park running rfl
            ⟨running.results, running.request, empty, Nat.pos_of_ne_zero none⟩,
            @Settled.park _ _ .writers _ settled rfl ⟨full, reader⟩ writer⟩
      | refused taken ring bound takes far =>
        unfold writableBytes at far
        omega
    · intro ring reader room takes
      exact wakeReaders_sound depth integrity settled running empty (by rw [refs]; exact used)
        (by rw [refs]; exact opened) tameStart reader room takes

/-! ## Closing an end -/

/-- A change of the reference counts and of what the descriptors name. -/
theorem Integrity.renamed (integrity : Integrity m)
    (ring : t.pipe.ring = m.pipe.ring) (used : t.pipe.inUse = m.pipe.inUse)
    (live : t.pipe.inUse = false → t.pipe.readerRefs = 0 ∧ t.pipe.writerRefs = 0)
    (accounts : ∀ call, account t call = account m call)
    (logs : t.accepted = m.accepted ∧ t.delivered = m.delivered)
    (threads : ∀ i, t.threads i = { m.threads i with
        named := (t.threads i).named, mapped := (t.threads i).mapped }) :
    Integrity t := by
  have states : ∀ i, (t.threads i).state = (m.threads i).state ∧
      (t.threads i).call = (m.threads i).call := by
    intro i
    rw [threads i]
    exact ⟨rfl, rfl⟩
  have blockedBefore : ∀ i, Blocked t i → Blocked m i := by
    intro i blocked
    rw [Blocked, (states i).1] at blocked
    exact blocked
  refine ⟨?_, live, ?_, ?_, ?_, ?_⟩
  · rw [Ok, ring]
    exact integrity.ok
  · unfold Stream held
    rw [ring, used, logs.1, logs.2]
    exact integrity.stream
  · intro call
    rw [accounts call]
    exact integrity.calls call
  · intro i blocked
    have waited := integrity.waiting i (blockedBefore i blocked)
    unfold Waiting at waited ⊢
    rw [accounts, (states i).2, threads i]
    exact waited
  · intro first second firstBlocked secondBlocked same
    rw [(states first).2, (states second).2] at same
    exact integrity.apart first second (blockedBefore first firstBlocked)
      (blockedBefore second secondBlocked) same

theorem forget_parked {s o : State} (parked : (forget s m).parked o i = true) :
    o ≠ s ∧ m.parked o i = true := by
  unfold Machine.parked forget at parked
  unfold Machine.parked
  dsimp only at parked
  split at parked
  · simp only [Bool.and_false, Bool.false_eq_true] at parked
  · next ne =>
    simp only [Bool.and_eq_true, decide_eq_true_eq] at parked ⊢
    exact ⟨fun same => ne (parked.1.trans same), parked⟩

theorem freePipeIfUnused_sound (integrity : Integrity m) (settled : Settled m) :
    Sound (freePipeIfUnused m) := by
  unfold freePipeIfUnused
  split
  · next unused =>
    simp only [Bool.and_eq_true, decide_eq_true_eq] at unused
    obtain ⟨⟨used, noReader⟩, noWriter⟩ := unused
    refine ⟨⟨?_, fun _ => ⟨rfl, rfl⟩, ?_, integrity.calls, integrity.waiting, integrity.apart⟩, ?_⟩
    · exact RingBuffer.empty_ok _ pipeCapacity_pos
    · exact ⟨integrity.stream.1, nofun⟩
    intro side i ins waits
    have opened := (settled side i ins waits).2
    cases side with
    | readers => exact absurd noReader opened
    | writers => exact absurd noWriter opened
  · exact ⟨integrity, settled⟩

/-- What closing an end does before anybody is woken: the count of that end
changes, and when it reaches zero the descriptors of that end are gone. -/
structure Dropped (side : Side) (m t : Machine) : Prop where
  ring : t.pipe.ring = m.pipe.ring
  used : t.pipe.inUse = m.pipe.inUse
  refs : t.refs side.other = m.refs side.other
  accounts : ∀ call, account t call = account m call
  logs : t.accepted = m.accepted ∧ t.delivered = m.delivered
  threads : ∀ i, t.threads i =
    { m.threads i with
      named := (t.threads i).named, mapped := (t.threads i).mapped }
  parked : ∀ o i, t.parked o i = true → m.parked o i = true
  last : t.refs side = 0 → Quiet t side.state

theorem Dropped.intro {side : Side} {pipe : Pipe} (ring : pipe.ring = m.pipe.ring)
    (used : pipe.inUse = m.pipe.inUse)
    (refs : ({ m with pipe := pipe } : Machine).refs side.other = m.refs side.other) :
    Dropped side m (if ({ m with pipe := pipe } : Machine).refs side = 0
      then forget side.state { m with pipe := pipe } else { m with pipe := pipe }) := by
  split
  · next gone =>
    refine ⟨ring, used, refs, fun _ => rfl, ⟨rfl, rfl⟩, ?_, ?_, ?_⟩
    · intro i
      unfold forget
      dsimp only
      split <;> rfl
    · intro o i parked
      exact (forget_parked parked).2
    · intro _ i ins
      cases parked : (forget side.state { m with pipe := pipe }).parked side.state i with
      | false => rfl
      | true => exact absurd rfl (forget_parked parked).1
  · next more =>
    exact ⟨ring, used, refs, fun _ => rfl, ⟨rfl, rfl⟩, fun _ => rfl, fun _ _ parked => parked,
      fun gone => absurd gone more⟩

theorem dropReader_dropped (m : Machine) : Dropped .readers m (dropReader m) :=
  @Dropped.intro m .readers
    { m.pipe with readerRefs := m.pipe.readerRefs - 1 } rfl rfl rfl

theorem dropWriter_dropped (m : Machine) : Dropped .writers m (dropWriter m) :=
  @Dropped.intro m .writers
    { m.pipe with writerRefs := m.pipe.writerRefs - 1 } rfl rfl rfl

theorem Dropped.integrity {side : Side} (dropped : Dropped side m t)
    (integrity : Integrity m) (used : m.pipe.inUse = true) : Integrity t := by
  apply integrity.renamed dropped.ring dropped.used
  · intro free
    rw [dropped.used, used] at free
    cases free
  · exact dropped.accounts
  · exact dropped.logs
  · exact dropped.threads

/-- Closing an end keeps a pipe sound: the other side is woken, unless threads
still wait on this one. -/
theorem close_sound {side : Side} {drop : Machine → Machine} (ok : Sound m)
    (dropped : Dropped side m (drop m)) :
    wp (do
      let m ← Fallible.get
      if m.refs side = 0 then pure ()
      else do
        Fallible.update drop
        wake (depth + 2) side.other
        Fallible.update freePipeIfUnused : Call Unit) (fun _ => Sound) (fun _ => False) m := by
  rw [wp_bind, wp_get]
  split
  · exact ok
  next closed =>
  rw [wp_bind, wp_update, wp_bind]
  have used := ok.integrity.used closed
  generalize drop m = start at *
  have integrity := dropped.integrity ok.integrity used
  have usedStart := dropped.used.trans used
  have opened : ∀ i < maxThreads, start.parked side.other.state i = true →
      start.refs side.other ≠ 0 := by
    intro i ins parked
    rw [dropped.refs]
    exact (ok.settled side.other i ins (dropped.parked _ i parked)).2
  by_cases quiet : Quiet start side.state
  · rw [← side.other_other] at quiet
    apply (wake_sound depth integrity usedStart quiet opened).imp
    rintro _ t ⟨right, frame, settled⟩
    exact freePipeIfUnused_sound right settled
  · have more : start.refs side ≠ 0 := fun last => quiet (dropped.last last)
    have size : start.size = m.size := congrArg RingBuffer.size dropped.ring
    have served : Served start side maxThreads := by
      intro i ins waits
      have stuck := (ok.settled side i ins (dropped.parked _ i waits)).1
      exact ⟨size.trans stuck.1, dropped.refs ▸ stuck.2⟩
    have quietOther : Quiet start side.other.state := by
      obtain ⟨waiter, ins, waits⟩ := not_quiet quiet
      by_contra busy
      obtain ⟨i, place, parked⟩ := not_quiet busy
      have stuck := (ok.settled side.other i place (dropped.parked _ i parked)).1
      exact limit_other side ((served waiter ins waits).1.symm.trans (size.trans stuck.1))
    apply wp_wake_quiet _ quietOther
    exact freePipeIfUnused_sound integrity
      (Settled.ofSide served (fun _ _ _ => more) quietOther)

/-! ## Runs -/

/-- A call that is no blocking write longer than the ring before a parked
reader. -/
def Event.Tame (m : Machine) : Event → Prop
  | .write _ data _ nonblock => WriteTame m data.length nonblock
  | _ => True

/-- Closing a descriptor or unmapping a buffer wakes nobody. -/
theorem Sound.renameThread (ok : Sound m) (i : Nat) (named : Bool) (mapped : Nat)
    (fewer : named = true → (m.threads i).named = true) :
    Sound (m.setThread i { m.threads i with named := named, mapped := mapped }) := by
  have parked : ∀ s place,
      (m.setThread i { m.threads i with named := named, mapped := mapped }).parked s place = true →
        m.parked s place = true := by
    intro s place
    unfold parked setThread
    simp only [Bool.and_eq_true, decide_eq_true_eq]
    by_cases same : place = i
    · rw [same, update_self]
      exact fun both => ⟨both.1, fewer both.2⟩
    · rw [update_of_ne same]
      exact fun both => both
  constructor
  · apply ok.integrity.renamed
    · rfl
    · rfl
    · exact ok.integrity.live
    · exact fun _ => rfl
    · exact ⟨rfl, rfl⟩
    intro place
    unfold setThread
    dsimp only
    by_cases same : place = i
    · rw [same, update_self]
    · rw [update_of_ne same]
  · exact ok.settled.fewer rfl parked

/-- Every tame call returns and keeps the pipe sound. -/
theorem step_sound (ok : Sound m) (event : Event) (tame : event.Tame m) :
    wp (step (depth + 2) event) (fun _ => Sound) (fun _ => False) m := by
  cases event with
  | read i capacity mapped nonblock =>
    unfold step
    rw [wp_bind, wp_get]
    split
    · next can =>
      obtain ⟨ready, opened⟩ := canCall_spec can
      exact nativeRead_sound depth ok ready opened
    · exact ok
  | write i data mapped nonblock =>
    unfold step
    rw [wp_bind, wp_get]
    split
    · next can =>
      obtain ⟨ready, opened⟩ := canCall_spec can
      exact nativeWrite_sound depth ok ready opened tame
    · exact ok
  | closeDescriptor i =>
    exact ok.renameThread i false _ nofun
  | closeReader => exact close_sound depth ok (dropReader_dropped m)
  | closeWriter => exact close_sound depth ok (dropWriter_dropped m)
  | unmap i mapped => exact ok.renameThread i _ _ id

/-- A run whose calls are all tame. -/
def TameRun (depth : Nat) : List Event → Machine → Prop
  | [], _ => True
  | event :: rest, m =>
    event.Tame m ∧
      ∀ t, step depth event m = (some (), t) → TameRun depth rest t

theorem run_sound (events : List Event) (tame : TameRun (depth + 2) events m) (ok : Sound m) :
    wp (run (depth + 2) events) (fun _ => Sound) (fun _ => False) m := by
  induction events generalizing m with
  | nil => exact ok
  | cons event rest ih =>
    obtain ⟨_, middle, ran, stepped⟩ := (step_sound depth ok event tame.1).gives
    rw [run, wp_bind]
    exact wp_of_some ran (ih (tame.2 middle ran) stepped)

theorem opened_sound (cells : Nat → UInt8) : Sound (opened cells) := by
  have ready : ∀ i, ¬ Blocked (opened cells) i := fun _ blocked => blocked rfl
  refine ⟨⟨RingBuffer.empty_ok cells pipeCapacity_pos, nofun, ?_, ?_, ?_, ?_⟩,
    ?_⟩
  · exact ⟨prefix_rfl, fun _ => rfl⟩
  · exact fun _ => ⟨rfl, rfl, rfl⟩
  · exact fun i blocked => absurd blocked (ready i)
  · exact fun first _ blocked => absurd blocked (ready first)
  · apply Settled.ofQuiet
    intro side i ins
    cases side <;> rfl

/-- A tame run of a new pipe ends, in a sound machine. -/
theorem tameRun_ends (cells : Nat → UInt8) (events : List Event)
    (tame : TameRun (depth + 2) events (opened cells)) :
    ∃ t, run (depth + 2) events (opened cells) = (some (), t) ∧ Sound t := by
  obtain ⟨_, t, ran, ok⟩ := (run_sound depth events tame (opened_sound cells)).gives
  exact ⟨t, ran, ok⟩

end SavanXP.Pipes
