import SavanXP.Process.PipeSpec

/-!
# Bytes keep their order

The logs of a machine read call by call, and the invariant that ties them to
the ring, to the buffers and to the records of the parked threads.  A change
that touches one call and one thread keeps it when that call's account and that
thread's record stay right.
-/

namespace SavanXP.Pipes

open SavanXP.Library List Function Machine
open SavanXP.Library.Fallible

variable {m t : Machine} {call mapped n progress i : Nat}
  {data got buffer : List UInt8}

/-! ## Logs call by call -/

/-- The entries a log has for one call. -/
def entriesOf {α : Type} (log : List (Nat × α)) (call : Nat) : List α :=
  log.filterMap fun e => if e.1 = call then some e.2 else none

section Logs

variable {α : Type} (log : List (Nat × α)) {o : Nat}

theorem entriesOf_append (rest : List (Nat × α)) (call : Nat) :
    entriesOf (log ++ rest) call = entriesOf log call ++ entriesOf rest call :=
  filterMap_append

theorem entriesOf_own (items : List α) (call : Nat) :
    entriesOf (items.map fun item => (call, item)) call = items := by
  induction items with
  | nil => rfl
  | cons item rest ih =>
    rw [map_cons, entriesOf, filterMap_cons, if_pos rfl]
    exact congrArg (item :: ·) ih

theorem entriesOf_other (items : List α) (ne : o ≠ call) :
    entriesOf (items.map fun item => (call, item)) o = [] := by
  induction items with
  | nil => rfl
  | cons item rest ih =>
    rw [map_cons, entriesOf, filterMap_cons, if_neg (Ne.symm ne)]
    exact ih

theorem values_tagged (items : List α) (call : Nat) :
    (items.map fun item => (call, item)).map Prod.snd = items := by
  rw [map_map]
  exact map_id items

end Logs

/-- What is known of one call. -/
structure Account where
  request : Option Request
  accepted : List UInt8
  delivered : List UInt8
  results : List Int
  buffer : List UInt8

def account (m : Machine) (call : Nat) : Account where
  request := m.requests[call]?
  accepted := entriesOf m.accepted call
  delivered := entriesOf m.delivered call
  results := entriesOf m.returned call
  buffer := m.memory call

variable {nonblock : Bool} {known : Account}

/-- The account of a call that did what it returned. -/
def Account.Ok (account : Account) : Prop :=
  match account.request with
  | none => account.accepted = [] ∧ account.delivered = [] ∧ account.results = []
  | some (.write data nonblock) =>
    account.delivered = [] ∧ account.accepted <+: data ∧
      ∀ res ∈ account.results, 0 ≤ res → nonblock = true ∨ data.length < 2 ^ 31 →
        account.accepted = data.take res.toNat ∧ res.toNat ≤ data.length
  | some (.read _ _) =>
    account.accepted = [] ∧
      ∀ res ∈ account.results,
        (0 ≤ res → account.delivered = account.buffer.take res.toNat ∧
          account.delivered.length = res.toNat) ∧
        (res < 0 → account.delivered = [])

theorem Account.Ok.read {capacity : Nat} (right : known.Ok)
    (request : known.request = some (.read capacity nonblock)) : known.accepted = [] := by
  unfold Account.Ok at right
  rw [request] at right
  exact right.1

theorem Account.Ok.write (right : known.Ok)
    (request : known.request = some (.write data nonblock)) : known.delivered = [] := by
  unfold Account.Ok at right
  rw [request] at right
  exact right.1

def Blocked (m : Machine) (i : Nat) : Prop := (m.threads i).state ≠ .ready

/-- The record of a parked thread agrees with the account of its call. -/
def Thread.Waiting (th : Thread) (known : Account) : Prop :=
  known.results = [] ∧
    match th.state with
    | .ready => True
    | .blockedRead =>
      0 < th.readCapacity ∧ known.request = some (.read th.readCapacity false) ∧
        known.delivered = []
    | .blockedWrite =>
      known.request = some (.write th.writeBuffer false) ∧
        known.accepted = th.writeBuffer.take th.writeProgress ∧
        th.writeProgress < th.writeBuffer.length

def Waiting (m : Machine) (i : Nat) : Prop :=
  (m.threads i).Waiting (account m (m.threads i).call)

/-- What was given to readers, and what the ring holds, is what was accepted. -/
def Stream (m : Machine) : Prop :=
  m.delivered.map Prod.snd <+: m.accepted.map Prod.snd ∧
    (m.pipe.inUse = true → m.delivered.map Prod.snd ++ m.held = m.accepted.map Prod.snd)

structure Integrity (m : Machine) : Prop where
  ok : m.Ok
  live : m.pipe.inUse = false → m.pipe.readerRefs = 0 ∧ m.pipe.writerRefs = 0
  stream : Stream m
  calls : ∀ call, (account m call).Ok
  waiting : ∀ i, Blocked m i → Waiting m i
  apart : ∀ first second, Blocked m first → Blocked m second →
    (m.threads first).call = (m.threads second).call → first = second

/-- A change that touches one call and one thread. -/
theorem Integrity.change (integrity : Integrity m) (call i : Nat) (ok : t.Ok)
    (live : t.pipe.inUse = false → t.pipe.readerRefs = 0 ∧ t.pipe.writerRefs = 0)
    (stream : Stream t) (others : ∀ o ≠ call, account t o = account m o)
    (threads : ∀ o ≠ i, t.threads o = m.threads o)
    (alone : ∀ o ≠ i, Blocked m o → (m.threads o).call ≠ call)
    (own : (account t call).Ok) (k : Blocked t i → (t.threads i).call = call ∧ Waiting t i) :
    Integrity t := by
  have old : ∀ o ≠ i, Blocked t o → Blocked m o := by
    intro o ne blocked
    rw [Blocked, threads o ne] at blocked
    exact blocked
  refine ⟨ok, live, stream, ?_, ?_, ?_⟩
  · intro o
    by_cases same : o = call
    · rw [same]
      exact own
    · rw [others o same]
      exact integrity.calls o
  · intro o blocked
    by_cases same : o = i
    · subst same
      exact (k blocked).2
    have blockedBefore := old o same blocked
    have waited := integrity.waiting o blockedBefore
    unfold Waiting at waited ⊢
    rw [threads o same, others _ (alone o same blockedBefore)]
    exact waited
  · intro first second firstBlocked secondBlocked calls
    by_cases one : first = i
    · by_cases two : second = i
      · rw [one, two]
      · rw [one] at firstBlocked calls
        rw [(k firstBlocked).1, threads second two] at calls
        exact absurd calls.symm (alone second two (old second two secondBlocked))
    · by_cases two : second = i
      · rw [two] at secondBlocked calls
        rw [(k secondBlocked).1, threads first one] at calls
        exact absurd calls (alone first one (old first one firstBlocked))
      · rw [threads first one, threads second two] at calls
        exact integrity.apart first second (old first one firstBlocked)
          (old second two secondBlocked) calls

/-- A call with a number not given out yet is nobody's. -/
theorem Integrity.unused (integrity : Integrity m) (blocked : Blocked m i)
    (fresh : m.requests.length ≤ call) : (m.threads i).call ≠ call := by
  intro same
  have waited := integrity.waiting i blocked
  have missing : (account m (m.threads i).call).request = none := by
    rw [same]
    exact List.getElem?_eq_none fresh
  unfold Waiting Thread.Waiting at waited
  rw [missing] at waited
  cases state : (m.threads i).state with
  | ready => exact blocked state
  | blockedRead =>
    rw [state] at waited
    exact nomatch waited.2.2.1
  | blockedWrite =>
    rw [state] at waited
    exact nomatch waited.2.1

/-! ## What a try does to the accounts -/

/-- Bytes went into the ring for one call, or out of it. -/
structure Effect (m : Machine) (call : Nat) (took gave buffer : List UInt8)
    (t : Machine) : Prop where
  own : account t call =
    { account m call with
      accepted := (account m call).accepted ++ took
      delivered := (account m call).delivered ++ gave
      buffer := buffer }
  others : ∀ o, o ≠ call → account t o = account m o
  held : m.held ++ took = gave ++ t.held
  accepted : t.accepted.map Prod.snd = m.accepted.map Prod.snd ++ took
  delivered : t.delivered.map Prod.snd = m.delivered.map Prod.snd ++ gave
  ok : t.Ok
  threads : t.threads = m.threads
  refs : t.pipe = { m.pipe with ring := t.pipe.ring }

theorem Effect.none (ok : m.Ok) (call : Nat) (buffer : List UInt8) :
    Effect m call [] [] buffer (m.setBuffer call buffer) where
  own := by
    unfold account
    rw [setBuffer_memory, append_nil, append_nil]
    rfl
  others := by
    intro o ne
    unfold account
    congr 1
    exact update_of_ne ne _ _
  held := append_nil _
  accepted := (append_nil _).symm
  delivered := (append_nil _).symm
  ok := ok
  threads := rfl
  refs := rfl

theorem Effect.idle (ok : m.Ok) (call : Nat) : Effect m call [] [] (m.memory call) m := by
  have effect := Effect.none ok call (m.memory call)
  rwa [setBuffer_self] at effect

section

variable {α : Type} (log : List (Nat × α)) (items : List α)

theorem entriesOf_tagged (call : Nat) :
    entriesOf (log ++ items.map fun item => (call, item)) call = entriesOf log call ++ items := by
  rw [entriesOf_append, entriesOf_own]

theorem entriesOf_untagged {o : Nat} (ne : o ≠ call) :
    entriesOf (log ++ items.map fun item => (call, item)) o = entriesOf log o := by
  rw [entriesOf_append, entriesOf_other _ ne, append_nil]

theorem values_append (call : Nat) :
    (log ++ items.map fun item => (call, item)).map Prod.snd = log.map Prod.snd ++ items := by
  rw [map_append, values_tagged]

end

theorem Effect.deliver (ok : m.Ok) (call : Nat) (enough : n ≤ m.size) :
    Effect m call [] (m.held.take n)
      (m.held.take n ++ (m.memory call).drop n) (m.deliver call n) where
  own := by
    have log := entriesOf_tagged m.delivered (m.held.take n) call
    unfold account
    rw [append_nil]
    congr 1
    exact setBuffer_memory _ _ _
  others := by
    intro o ne
    have log := entriesOf_untagged m.delivered (m.held.take n) ne
    unfold account
    congr 1
    exact update_of_ne ne _ _
  held := by
    rw [(deliver_ok ok enough).2, append_nil, take_append_drop]
  accepted := (append_nil _).symm
  delivered := values_append m.delivered (m.held.take n) call
  ok := (deliver_ok ok enough).1
  threads := rfl
  refs := rfl

theorem Effect.accepting {ring : RingBuffer UInt8} (takes : Takes m got ring) (call : Nat) :
    Effect m call got [] (m.memory call) (m.accepting ring call got) where
  own := by
    have log := entriesOf_tagged m.accepted got call
    unfold account
    rw [append_nil]
    congr 1
  others := by
    intro o ne
    have log := entriesOf_untagged m.accepted got ne
    unfold account
    congr 1
  held := takes.contents.symm
  accepted := values_append m.accepted got call
  delivered := (append_nil _).symm
  ok := takes.ok
  threads := rfl
  refs := rfl

variable {res : Int}

/-- A try to read gives some bytes to its call and returns their number. -/
theorem ReadServed.effect (ok : m.Ok) (served : ReadServed m call mapped n (.done res) t) :
    ∃ got buffer, Effect m call [] got buffer t ∧
      (0 ≤ res → res = (got.length : Int) ∧ buffer.take got.length = got) ∧
      (res < 0 → got = []) := by
  cases served with
  | ends atOnce =>
    cases atOnce with
    | unused free =>
      exact ⟨[], _, Effect.idle ok call, fun sign => absurd sign (by decide), fun _ => rfl⟩
    | nothing | ended => exact ⟨[], _, Effect.idle ok call, fun _ => ⟨rfl, rfl⟩, fun _ => rfl⟩
    | refused buffer beyond =>
      exact ⟨[], buffer, Effect.none ok call buffer,
        fun sign => absurd sign (by decide), fun _ => rfl⟩
  | served asked some reach =>
    have size : (m.held.take (min n m.size)).length = min n m.size := by
      rw [length_take, held_length]
      omega
    refine ⟨_, _, Effect.deliver ok call (Nat.min_le_right _ _), ?_, fun negative => by omega⟩
    rw [size]
    exact fun _ => ⟨rfl, take_left' size⟩

/-- A try to write takes the next bytes of its call and returns their number. -/
theorem WriteServed.effect (ok : m.Ok)
    (served : WriteServed m call data mapped progress (.done res) t) :
    ∃ taken buffer, Effect m call ((data.drop progress).take taken) [] buffer t ∧
      taken ≤ data.length - progress ∧ (0 ≤ res → res = (taken : Int)) := by
  have idle : Effect m call ((data.drop progress).take 0) [] (m.memory call) m :=
    Effect.idle ok call
  cases served with
  | ends atOnce =>
    cases atOnce with
    | broken closed => exact ⟨0, _, idle, Nat.zero_le _, fun sign => absurd sign (by decide)⟩
    | nothing none => exact ⟨0, _, idle, Nat.zero_le _, fun _ => rfl⟩
    | refused taken ring bound takes beyond =>
      exact ⟨taken, _, Effect.accepting takes call, bound.trans (Nat.min_le_right _ _),
        fun sign => absurd sign (by decide)⟩
  | served ring opened room takes =>
    exact ⟨_, _, Effect.accepting takes call, Nat.min_le_right _ _, fun _ => rfl⟩

section Effects

variable {took gave : List UInt8}

theorem Effect.stream (effect : Effect m call took gave buffer t)
    (used : m.pipe.inUse = true) (stream : Stream m) : Stream t := by
  have whole : t.delivered.map Prod.snd ++ t.held = t.accepted.map Prod.snd := by
    rw [effect.delivered, effect.accepted, append_assoc, ← effect.held, ← append_assoc,
      stream.2 used]
  exact ⟨⟨t.held, whole⟩, fun _ => whole⟩

theorem Effect.live (effect : Effect m call took gave buffer t) (used : m.pipe.inUse = true) :
    t.pipe.inUse = false → t.pipe.readerRefs = 0 ∧ t.pipe.writerRefs = 0 := by
  intro free
  rw [effect.refs, used] at free
  cases free

end Effects

theorem account_answer_own (m : Machine) (call : Nat) (res : Int) :
    account (m.answer call res) call =
      { account m call with results := (account m call).results ++ [res] } := by
  have log := entriesOf_tagged m.returned [res] call
  unfold account
  congr 1

theorem account_answer_other {o : Nat} (ne : o ≠ call) (res : Int) :
    account (m.answer call res) o = account m o := by
  have log := entriesOf_untagged m.returned [res] ne
  unfold account
  congr 1

/-! ## Serving a parked thread -/

/-- What a wakeup leaves of the machine it started from. -/
structure Frame (m t : Machine) : Prop where
  parked : ∀ s i, t.parked s i = true → m.parked s i = true
  blocked : ∀ i, Blocked t i →
    Blocked m i ∧ (t.threads i).call = (m.threads i).call
  accounts : ∀ call, (∀ i, Blocked m i → (m.threads i).call ≠ call) →
    account t call = account m call
  refs : t.pipe = { m.pipe with ring := t.pipe.ring }

theorem Frame.refl (m : Machine) : Frame m m :=
  ⟨fun _ _ parked => parked, fun _ blocked => ⟨blocked, rfl⟩, fun _ _ => rfl, rfl⟩

theorem Frame.trans {middle : Machine} (first : Frame m middle) (second : Frame middle t) :
    Frame m t where
  parked := fun s i parked => first.parked s i (second.parked s i parked)
  blocked := by
    intro i blocked
    obtain ⟨middleBlocked, middleCall⟩ := second.blocked i blocked
    obtain ⟨firstBlocked, firstCall⟩ := first.blocked i middleBlocked
    exact ⟨firstBlocked, middleCall.trans firstCall⟩
  accounts := by
    intro call alone
    have aloneLater : ∀ i, Blocked middle i → (middle.threads i).call ≠ call := by
      intro i blocked
      obtain ⟨blockedBefore, same⟩ := first.blocked i blocked
      rw [same]
      exact alone i blockedBefore
    rw [second.accounts call aloneLater, first.accounts call alone]
  refs := by
    rw [second.refs, first.refs]

theorem Frame.quiet {s : State} (frame : Frame m t) (quiet : Quiet m s) : Quiet t s := by
  intro i ins
  cases parked : t.parked s i with
  | false => rfl
  | true =>
    have waited := frame.parked s i parked
    rw [quiet i ins] at waited
    cases waited

/-- A change that touches one parked thread and its call. -/
theorem Frame.change (i : Nat) (blocked : Blocked m i)
    (others : ∀ o ≠ (m.threads i).call, account t o = account m o)
    (threads : ∀ o ≠ i, t.threads o = m.threads o)
    (parked : ∀ s, t.parked s i = true → m.parked s i = true)
    (call : Blocked t i → (t.threads i).call = (m.threads i).call)
    (refs : t.pipe = { m.pipe with ring := t.pipe.ring }) : Frame m t where
  parked := by
    intro s o still
    by_cases same : o = i
    · rw [same] at still ⊢
      exact parked s still
    · unfold Machine.parked at still ⊢
      rw [threads o same] at still
      exact still
  blocked := by
    intro o still
    by_cases same : o = i
    · rw [same] at still ⊢
      exact ⟨blocked, call still⟩
    · unfold Blocked at still ⊢
      rw [threads o same] at still ⊢
      exact ⟨still, rfl⟩
  accounts := fun o unclaimed => others o fun same => unclaimed i blocked same.symm
  refs := refs

theorem parked_blocked {s : State} (parked : m.parked s i = true) (busy : s ≠ .ready) :
    (m.threads i).state = s ∧ Blocked m i := by
  unfold Machine.parked at parked
  simp only [Bool.and_eq_true, decide_eq_true_eq] at parked
  rw [Blocked, parked.1]
  exact ⟨rfl, busy⟩

/-- A parked reader's account and record. -/
theorem Integrity.waitingReader (integrity : Integrity m)
    (parked : m.parked .blockedRead i = true) :
    Blocked m i ∧ (account m (m.threads i).call).results = [] ∧ 0 < (m.threads i).readCapacity ∧
      (account m (m.threads i).call).request = some (.read (m.threads i).readCapacity false) ∧
      (account m (m.threads i).call).delivered = [] := by
  obtain ⟨state, blocked⟩ := parked_blocked parked nofun
  have waited := integrity.waiting i blocked
  unfold Waiting Thread.Waiting at waited
  rw [state] at waited
  exact ⟨blocked, waited⟩

/-- A parked writer's account and record. -/
theorem Integrity.waitingWriter (integrity : Integrity m)
    (parked : m.parked .blockedWrite i = true) :
    Blocked m i ∧ (account m (m.threads i).call).results = [] ∧
      (account m (m.threads i).call).request = some (.write (m.threads i).writeBuffer false) ∧
      (account m (m.threads i).call).accepted =
        (m.threads i).writeBuffer.take (m.threads i).writeProgress ∧
      (m.threads i).writeProgress < (m.threads i).writeBuffer.length := by
  obtain ⟨state, blocked⟩ := parked_blocked parked nofun
  have waited := integrity.waiting i blocked
  unfold Waiting Thread.Waiting at waited
  rw [state] at waited
  exact ⟨blocked, waited⟩

theorem Integrity.alone (integrity : Integrity m) (blocked : Blocked m i) :
    ∀ o ≠ i, Blocked m o → (m.threads o).call ≠ (m.threads i).call :=
  fun o ne otherBlocked same =>
    ne (integrity.apart o i otherBlocked blocked same)

/-- A read returns what it got. -/
theorem read_account_ok {capacity : Nat}
    (request : known.request = some (.read capacity nonblock)) (right : known.accepted = [])
    (first : known.results = [])
    (nonnegative : 0 ≤ res → known.delivered = known.buffer.take res.toNat ∧
      known.delivered.length = res.toNat)
    (negative : res < 0 → known.delivered = []) :
    Account.Ok { known with results := known.results ++ [res] } := by
  simp only [Account.Ok, request]
  refine ⟨right, fun o mem => ?_⟩
  rw [first, nil_append, mem_singleton] at mem
  rw [mem]
  exact ⟨nonnegative, negative⟩

variable {taken : Nat}

/-- A write returns how many bytes were taken. -/
theorem write_account_ok
    (request : known.request = some (.write data nonblock)) (right : known.delivered = [])
    (took : known.accepted = data.take taken) (first : known.results = [])
    (bound : taken ≤ data.length)
    (nonnegative : 0 ≤ res → nonblock = true ∨ data.length < 2 ^ 31 → res = (taken : Int)) :
    Account.Ok { known with results := known.results ++ [res] } := by
  simp only [Account.Ok, request, took]
  refine ⟨right, take_prefix _ _, fun o mem sign small => ?_⟩
  rw [first, nil_append, mem_singleton] at mem
  rw [mem] at sign ⊢
  rw [nonnegative sign small, Int.toNat_natCast]
  exact ⟨rfl, bound⟩

section

variable (integrity : Integrity m) (used : m.pipe.inUse = true)
include integrity used

/-- A parked call returns. -/
theorem Integrity.complete {took gave : List UInt8} {th : Thread} (blocked : Blocked m i)
    (effect : Effect m (m.threads i).call took gave buffer t)
    (right : (account (t.answer (m.threads i).call res) (m.threads i).call).Ok) :
    Integrity (t.complete i th res) ∧ Frame m (t.complete i th res) := by
  have threadLater : t.threads i = m.threads i := by rw [effect.threads]
  have accounts : ∀ o, account (t.complete i th res) o =
      account (t.answer (m.threads i).call res) o := by
    intro o
    rw [← threadLater]
    rfl
  have others : ∀ o ≠ (m.threads i).call, account (t.complete i th res) o = account m o := by
    intro o ne
    rw [accounts, account_answer_other ne]
    exact effect.others o ne
  have threads : ∀ o ≠ i, (t.complete i th res).threads o = m.threads o := by
    intro o ne
    rw [← effect.threads]
    exact Function.update_of_ne ne _ _
  have ready : ¬ Blocked (t.complete i th res) i := by
    simp [Blocked, Machine.complete, Machine.answer, Machine.setThread]
  constructor
  · apply integrity.change (m.threads i).call i
    · exact effect.ok
    · exact effect.live used
    · exact effect.stream used integrity.stream
    · exact others
    · exact threads
    · exact integrity.alone blocked
    · rw [accounts]
      exact right
    · exact fun bad => absurd bad ready
  · apply Frame.change i blocked others threads
    · exact fun s still => absurd rfl (complete_parked still).1
    · exact fun bad => absurd bad ready
    · exact effect.refs

/-- Serving a parked reader. -/
theorem Integrity.serveReader (parked : m.parked .blockedRead i = true)
    (served : ReadServed m (m.threads i).call (m.threads i).mapped
      (m.threads i).readCapacity (.done res) t) : Integrity (t.completeBlockedRead i res) ∧
      Frame m (t.completeBlockedRead i res) := by
  obtain ⟨blocked, results, _, request, delivered⟩ := integrity.waitingReader parked
  obtain ⟨got, buffer, effect, nonnegative, negative⟩ := served.effect integrity.ok
  rw [completeBlockedRead_eq]
  apply integrity.complete used blocked effect
  rw [account_answer_own, effect.own, append_nil, delivered, nil_append]
  refine read_account_ok request ((integrity.calls _).read request) results
    (fun sign => ?_) negative
  obtain ⟨n, start⟩ := nonnegative sign
  rw [n, Int.toNat_natCast]
  exact ⟨start.symm, rfl⟩

omit integrity used in
theorem toInt32_small {length : Nat} (small : length < 2 ^ 31) : toInt32 length = length := by
  unfold toInt32
  rw [Int.bmod_eq_of_le_mul_two] <;> omega

section

variable (parked : m.parked .blockedWrite i = true)
include parked

/-- A parked writer whose call ends. -/
theorem Integrity.completeWriter (effect : Effect m (m.threads i).call
      (((m.threads i).writeBuffer.drop (m.threads i).writeProgress).take taken)
      [] buffer t) (bound : taken ≤ (m.threads i).writeBuffer.length - (m.threads i).writeProgress)
    (right : 0 ≤ res → (m.threads i).writeBuffer.length < 2 ^ 31 →
      res = (((m.threads i).writeProgress + taken : Nat) : Int)) :
    Integrity (t.completeBlockedWrite i res) ∧ Frame m (t.completeBlockedWrite i res) := by
  obtain ⟨blocked, results, request, accepted, early⟩ := integrity.waitingWriter parked
  rw [completeBlockedWrite_eq]
  apply integrity.complete used blocked effect
  rw [account_answer_own, effect.own, append_nil, accepted, ← take_add]
  exact write_account_ok request ((integrity.calls _).write request) rfl results (by omega)
    fun sign small => right sign (small.resolve_left nofun)

/-- A parked writer that stays parked, further on. -/
theorem Integrity.advanceWriter (effect : Effect m (m.threads i).call
      (((m.threads i).writeBuffer.drop (m.threads i).writeProgress).take taken)
      [] buffer t) (unfinished : (m.threads i).writeProgress + taken <
      (m.threads i).writeBuffer.length) :
    let advanced := t.setThread i
      { m.threads i with writeProgress := (m.threads i).writeProgress + taken }
    Integrity advanced ∧ Frame m advanced := by
  intro advanced
  obtain ⟨blocked, results, request, accepted, early⟩ := integrity.waitingWriter parked
  have state := (parked_blocked parked nofun).1
  have k : advanced.threads i =
      { m.threads i with writeProgress := (m.threads i).writeProgress + taken } :=
    Function.update_self ..
  have threads : ∀ o ≠ i, advanced.threads o = m.threads o := by
    intro o ne
    rw [← effect.threads]
    exact Function.update_of_ne ne _ _
  have own : account advanced (m.threads i).call =
      { account m (m.threads i).call with
        accepted := (m.threads i).writeBuffer.take
          ((m.threads i).writeProgress + taken)
        buffer := buffer } := by
    change account t _ = _
    rw [effect.own, accepted, List.take_add, List.append_nil]
  constructor
  · apply integrity.change (m.threads i).call i
    · exact effect.ok
    · exact effect.live used
    · exact effect.stream used integrity.stream
    · exact effect.others
    · exact threads
    · exact integrity.alone blocked
    · rw [own]
      simp only [Account.Ok, request, results]
      exact ⟨(integrity.calls _).write request, List.take_prefix _ _, nofun⟩
    · intro _
      unfold Waiting
      rw [k, own]
      unfold Thread.Waiting
      simp only [state]
      exact ⟨trivial, results, request, trivial, unfinished⟩
  · apply Frame.change i blocked
    · exact effect.others
    · exact threads
    · intro o still
      unfold Machine.parked at still ⊢
      rw [k] at still
      exact still
    · intro _
      rw [k]
    · exact effect.refs

/-- Serving a parked writer. -/
theorem Integrity.serveWriter {step : Int}
    (served : WriteServed m (m.threads i).call (m.threads i).writeBuffer
      (m.threads i).mapped (m.threads i).writeProgress (.done step) t) :
    Integrity (settleParkedWrite i step t) ∧ Frame m (settleParkedWrite i step t) := by
  obtain ⟨_, _, _, _, early⟩ := integrity.waitingWriter parked
  obtain ⟨taken, _, effect, bound, counted⟩ := served.effect integrity.ok
  have threadLater : t.threads i = m.threads i := by rw [effect.threads]
  unfold settleParkedWrite
  split
  · next negative =>
    exact integrity.completeWriter used parked effect bound
      (fun nonnegative => absurd negative (by omega))
  · next nonnegative =>
    rw [counted (by omega), noteProgress_eq, threadLater]
    split
    · next finished =>
      apply integrity.completeWriter used parked effect bound
      intro _ small
      rw [toInt32_small small]
      congr 1
      omega
    · next unfinished =>
      exact integrity.advanceWriter used parked effect (by omega)

end

end

end SavanXP.Pipes
