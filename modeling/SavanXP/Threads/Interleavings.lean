import Mathlib

/-!
# Threads that share words in memory

`pthread.c` changes a word by one atomic instruction and enters the kernel only to sleep on
the word or to wake a sleeper.  The threads run in any order, one access to the word at a
time: a schedule names the thread whose access is next.
-/

namespace SavanXP.Threads

open Function List

/-- Where a thread is in `sx_word_lock` and `sx_word_unlock`. -/
inductive Place
  | out
  | exchanging
  | waiting
  | asleep
  | holding
  | waking
  deriving DecidableEq

/-- The word, with 0 for free, 1 for taken and 2 for taken while somebody may sleep on it,
and the threads that are parked on it, the oldest first. -/
structure WordLock (ι : Type) where
  word : Nat := 0
  place : ι → Place := fun _ => .out
  parked : List ι := []

namespace WordLock

variable {ι : Type} [DecidableEq ι] (s : WordLock ι) (i : ι)

def move (p : Place) : WordLock ι := { s with place := update s.place i p }

/-- `wait_on_address` with the value 2. -/
def waitOnAddress : WordLock ι :=
  if s.word = 2 then { s.move i .asleep with parked := s.parked ++ [i] }
  else s.move i .exchanging

/-- `wake_address` for one thread. -/
def wakeAddress : WordLock ι :=
  match s.parked with
  | [] => s
  | oldest :: rest => { s.move oldest .exchanging with parked := rest }

/-- The next access of a thread.  One that is outside calls `sx_word_lock`, or
`sx_word_trylock`; one that holds the lock calls `sx_word_unlock`. -/
def step (trylock : Bool) : WordLock ι :=
  match s.place i with
  | .out =>
    if s.word = 0 then { s.move i .holding with word := 1 }
    else if trylock then s
    else s.move i (if s.word = 2 then .waiting else .exchanging)
  | .exchanging => { s.move i (if s.word = 0 then .holding else .waiting) with word := 2 }
  | .waiting => s.waitOnAddress i
  | .asleep => s
  | .holding => { s.move i (if s.word = 2 then .waking else .out) with word := 0 }
  | .waking => (s.move i .out).wakeAddress

def run (schedule : List (ι × Bool)) : WordLock ι :=
  schedule.foldl (fun s turn => s.step turn.1 turn.2) {}

/-- At most one thread holds the lock, and the word tells whether one does.  While threads
sleep, the word says so, or a thread is awake that will say so or wake one. -/
structure Sound : Prop where
  one : ∀ i o, s.place i = .holding → s.place o = .holding → i = o
  free : s.word = 0 ↔ ∀ i, s.place i ≠ .holding
  asleep : ∀ i, s.place i = .asleep ↔ i ∈ s.parked
  distinct : s.parked.Nodup
  noticed : s.parked ≠ [] → s.word = 2 ∨ ∃ i, s.place i = .exchanging ∨ s.place i = .waking

variable {s i}


@[simp]
theorem move_self (p : Place) : (s.move i p).place i = p := update_self ..

theorem move_other {o : ι} (other : o ≠ i) (p : Place) : (s.move i p).place o = s.place o :=
  update_of_ne other ..

/-- A thread that will find out whether others sleep, or wake one. -/
def Busy (s : WordLock ι) (o : ι) : Prop := s.place o = .exchanging ∨ s.place o = .waking

namespace Sound

variable {p : Place} {w : Nat} (sound : s.Sound)

include sound

omit [DecidableEq ι] in
/-- When `i` is not the one who will notice the sleepers, somebody else is. -/
theorem others (idle : ¬ s.Busy i) (parked : s.parked ≠ []) :
    s.word = 2 ∨ ∃ o, o ≠ i ∧ s.Busy o := by
  rcases sound.noticed parked with word | ⟨o, busy⟩
  · exact .inl word
  · exact .inr ⟨o, fun same => idle (same ▸ busy), busy⟩

theorem asleep_move (awake : s.place i ≠ .asleep) (stays : p ≠ .asleep) (o : ι) :
    (s.move i p).place o = .asleep ↔ o ∈ s.parked := by
  by_cases same : o = i
  · subst same
    rw [move_self]
    exact iff_of_false stays (mt (sound.asleep o).mpr awake)
  · rw [move_other same]
    exact sound.asleep o

omit sound in
theorem noticed_move (busy : w = 2 ∨ (p = .exchanging ∨ p = .waking) ∨ ∃ o, o ≠ i ∧ s.Busy o) :
    w = 2 ∨ ∃ o, (s.move i p).Busy o := by
  rcases busy with word | self | ⟨o, other, busy⟩
  · exact .inl word
  · refine .inr ⟨i, ?_⟩
    rwa [Busy, move_self]
  · refine .inr ⟨o, ?_⟩
    rwa [Busy, move_other other]

/-- A thread takes the free lock. -/
theorem takes (free : s.word = 0) (awake : s.place i ≠ .asleep) (taken : w ≠ 0)
    (noticed : s.parked ≠ [] → w = 2 ∨ ∃ o, o ≠ i ∧ s.Busy o) :
    Sound { s.move i .holding with word := w } := by
  have only (o : ι) (holds : (s.move i .holding).place o = .holding) : o = i := by
    by_contra other
    rw [move_other other] at holds
    exact sound.free.mp free o holds
  refine ⟨fun first second one two => ?_, ?_, sound.asleep_move awake (by decide), sound.distinct,
    fun parked => noticed_move ((noticed parked).imp_right .inr)⟩
  · rw [only first one, only second two]
  · exact iff_of_false taken fun none => none i (move_self _)

/-- A thread without the lock goes on without it. -/
theorem goes (out : s.place i ≠ .holding) (awake : s.place i ≠ .asleep)
    (stays : p ≠ .holding ∧ p ≠ .asleep) (same : w = 0 ↔ s.word = 0)
    (noticed : s.parked ≠ [] → w = 2 ∨ (p = .exchanging ∨ p = .waking) ∨ ∃ o, o ≠ i ∧ s.Busy o) :
    Sound { s.move i p with word := w } := by
  have holds (o : ι) : (s.move i p).place o = .holding ↔ s.place o = .holding := by
    by_cases here : o = i
    · subst here
      rw [move_self]
      exact iff_of_false stays.1 out
    · rw [move_other here]
  refine ⟨fun first second one two => ?_, ?_, sound.asleep_move awake stays.2, sound.distinct,
    fun parked => noticed_move (noticed parked)⟩
  · exact sound.one first second ((holds first).mp one) ((holds second).mp two)
  · exact same.trans (sound.free.trans (forall_congr' fun o => not_congr (holds o).symm))

/-- The thread that holds the lock frees it. -/
theorem releases (here : s.place i = .holding) (stays : p ≠ .holding ∧ p ≠ .asleep)
    (noticed : s.parked ≠ [] → p = .waking ∨ ∃ o, o ≠ i ∧ s.Busy o) :
    Sound { s.move i p with word := 0 } := by
  have nobody (o : ι) : (s.move i p).place o ≠ .holding := by
    intro holds
    by_cases same : o = i
    · subst same
      rw [move_self] at holds
      exact stays.1 holds
    · rw [move_other same] at holds
      exact same (sound.one o i holds here)
  refine ⟨fun first _ one _ => absurd one (nobody first), iff_of_true rfl nobody,
    sound.asleep_move (by simp [here]) stays.2, sound.distinct, fun parked => noticed_move ?_⟩
  exact .inr ((noticed parked).imp_left .inr)

/-- A thread that finds the word at 2 parks. -/
theorem sleeps (here : s.place i = .waiting) (word : s.word = 2) :
    Sound { s.move i .asleep with parked := s.parked ++ [i] } := by
  have absent : i ∉ s.parked := fun listed => by
    have asleep := (sound.asleep i).mpr listed
    rw [here] at asleep
    cases asleep
  have holds (o : ι) : (s.move i .asleep).place o = .holding ↔ s.place o = .holding := by
    by_cases same : o = i
    · subst same
      rw [move_self, here]
      decide
    · rw [move_other same]
  refine ⟨fun first second one two => ?_, ?_, fun o => ?_, ?_, fun _ => .inl word⟩
  · exact sound.one first second ((holds first).mp one) ((holds second).mp two)
  · exact sound.free.trans (forall_congr' fun o => not_congr (holds o).symm)
  · rw [mem_append, mem_singleton]
    by_cases same : o = i
    · subst same
      exact iff_of_true (move_self _) (.inr rfl)
    · rw [show ({ s.move i .asleep with parked := s.parked ++ [i] } : WordLock ι).place o =
        s.place o
        from move_other same _, or_iff_left same]
      exact sound.asleep o
  · exact sound.distinct.append (nodup_singleton i) fun o listed single =>
      absent (mem_singleton.mp single ▸ listed)

/-- The oldest sleeper is woken: it will find out whether others sleep. -/
theorem wakes : s.wakeAddress.Sound := by
  unfold wakeAddress
  split
  · exact sound
  · next oldest rest queue =>
    have unique := queue ▸ sound.distinct
    have slept : s.place oldest = .asleep := (sound.asleep oldest).mpr (queue ▸ mem_cons_self)
    have holds (o : ι) : (s.move oldest .exchanging).place o = .holding ↔ s.place o = .holding := by
      by_cases same : o = oldest
      · subst same
        rw [move_self, slept]
        decide
      · rw [move_other same]
    refine ⟨fun first second one two => ?_, ?_, fun o => ?_, unique.of_cons, fun _ => ?_⟩
    · exact sound.one first second ((holds first).mp one) ((holds second).mp two)
    · exact sound.free.trans (forall_congr' fun o => not_congr (holds o).symm)
    · by_cases same : o = oldest
      · subst same
        exact iff_of_false (by simp) unique.notMem
      · have listed := sound.asleep o
        rw [queue, mem_cons, or_iff_right same] at listed
        rw [← listed, show (
          { s.move oldest .exchanging with parked := rest } : WordLock ι).place o =
          s.place o from move_other same _]
    · exact .inr ⟨oldest, .inl (move_self _)⟩

theorem wakeAddress_move (awake : s.place i ≠ .asleep) :
    (s.move i p).wakeAddress = s.wakeAddress.move i p := by
  unfold wakeAddress
  cases queue : s.parked with
  | nil => simp [move, queue]
  | cons oldest rest =>
    have slept : s.place oldest = .asleep := (sound.asleep oldest).mpr (queue ▸ mem_cons_self)
    have other : i ≠ oldest := fun same => awake (same ▸ slept)
    simp [move, queue, update_comm other]

theorem wakeAddress_place (awake : s.place i ≠ .asleep) : s.wakeAddress.place i = s.place i := by
  unfold wakeAddress
  split
  · rfl
  · next oldest rest queue =>
    have slept : s.place oldest = .asleep := (sound.asleep oldest).mpr (queue ▸ mem_cons_self)
    have other : i ≠ oldest := fun same => awake (same ▸ slept)
    exact move_other other _

theorem wakeAddress_busy (parked : s.wakeAddress.parked ≠ []) :
    ∃ o, s.place o = .asleep ∧ s.wakeAddress.Busy o := by
  unfold wakeAddress at parked ⊢
  split at parked
  · next queue => exact absurd queue parked
  · next oldest rest queue =>
    have slept : s.place oldest = .asleep := (sound.asleep oldest).mpr (queue ▸ mem_cons_self)
    exact ⟨oldest, slept, .inl (move_self _)⟩

theorem step (trylock : Bool) : (s.step i trylock).Sound := by
  unfold WordLock.step
  cases here : s.place i with
  | out =>
    have idle : ¬ s.Busy i := by simp [Busy, here]
    dsimp only
    split_ifs with free tried two
    · refine sound.takes free (by simp [here]) one_ne_zero fun parked => ?_
      exact (sound.others idle parked).imp_left fun word => absurd word (by omega)
    · exact sound
    · exact sound.goes (by simp [here]) (by simp [here]) (by decide) Iff.rfl fun _ => .inl two
    · exact sound.goes (by simp [here]) (by simp [here]) (by decide) Iff.rfl
        fun _ => .inr (.inl (.inl rfl))
  | exchanging =>
    dsimp only
    split_ifs with free
    · exact sound.takes free (by simp [here]) two_ne_zero fun _ => .inl rfl
    · exact sound.goes (by simp [here]) (by simp [here]) (by decide)
        (iff_of_false two_ne_zero free) fun _ => .inl rfl
  | waiting =>
    dsimp only [waitOnAddress]
    split_ifs with word
    · exact sound.sleeps here word
    · exact sound.goes (by simp [here]) (by simp [here]) (by decide) Iff.rfl
        fun _ => .inr (.inl (.inl rfl))
  | asleep => exact sound
  | holding =>
    have idle : ¬ s.Busy i := by simp [Busy, here]
    dsimp only
    split_ifs with word
    · exact sound.releases here (by decide) fun _ => .inl rfl
    · refine sound.releases here (by decide) fun parked => ?_
      exact .inr ((sound.others idle parked).resolve_left word)
  | waking =>
    -- the sleeper is woken by a thread that is still there to notice the others
    have awake : s.place i ≠ .asleep := by simp [here]
    have same : s.wakeAddress.place i = .waking := (sound.wakeAddress_place awake).trans here
    dsimp only
    rw [sound.wakeAddress_move awake]
    refine sound.wakes.goes (by simp [same]) (by simp [same]) (by decide) Iff.rfl fun parked => ?_
    obtain ⟨oldest, slept, busy⟩ := sound.wakeAddress_busy parked
    exact .inr (.inr ⟨oldest, fun eq => awake (eq ▸ slept), busy⟩)

end Sound

/-- Whatever the order of the accesses. -/
theorem run_sound (schedule : List (ι × Bool)) : (run schedule).Sound := by
  have start : Sound ({} : WordLock ι) := ⟨by simp, by simp, by simp, .nil, by simp⟩
  exact foldlRecOn _ _ start fun _ sound turn _ => sound.step turn.2

/-- In every run of any number of threads at most one of them holds the lock, and the word is
free as soon as none does. -/
theorem one_thread_holds (schedule : List (ι × Bool)) :
    {i | (run schedule).place i = .holding}.Subsingleton ∧
      ((run schedule).word = 0 ↔ ∀ i, (run schedule).place i ≠ .holding) :=
  ⟨fun _ first _ second => (run_sound schedule).one _ _ first second, (run_sound schedule).free⟩

/-- No wake is lost: while a thread sleeps, one that is awake holds the lock, is about to take
it or has still to wake a sleeper. -/
theorem sleeper_is_noticed (schedule : List (ι × Bool)) (sleeper : ι)
    (asleep : (run schedule).place sleeper = .asleep) :
    ∃ other, (run schedule).place other = .holding ∨ (run schedule).place other = .exchanging ∨
      (run schedule).place other = .waking := by
  have sound := run_sound schedule
  have parked := ne_nil_of_mem ((sound.asleep sleeper).mp asleep)
  by_contra! quiet
  rcases sound.noticed parked with word | ⟨other, busy⟩
  · exact absurd (sound.free.mpr fun i => (quiet i).1) (by simp [word])
  · exact busy.elim (quiet other).2.1 (quiet other).2.2

theorem sleeper_is_noticed_contended :
    let lock := run ([0, 1, 1, 1].map (·, false))
    lock.place (1 : Fin 2) = .asleep ∧ ∃ other, lock.place other = .holding ∨
      lock.place other = .exchanging ∨ lock.place other = .waking :=
  ⟨by decide, sleeper_is_noticed _ 1 (by decide)⟩

end WordLock

/-! ## Running a routine once -/

inductive OnceState
  | new
  | running
  | done
  deriving DecidableEq

/-- Where a thread is in `pthread_once`. -/
inductive OncePlace
  | checking
  | claiming
  | routine
  | storing
  | waking
  | looping
  | waiting
  | asleep
  | returned
  deriving DecidableEq

/-- The word of `pthread_once`, and how often the routine was called. -/
structure Once (ι : Type) where
  word : OnceState := .new
  place : ι → OncePlace := fun _ => .checking
  calls : Nat := 0

namespace Once

variable {ι : Type} [DecidableEq ι] (s : Once ι) (i : ι)

def move (p : OncePlace) : Once ι := { s with place := update s.place i p }

/-- `wake_address` for all threads, which needs no order. -/
def wakeAll : Once ι :=
  { s with place := fun o => if s.place o = .asleep then .looping else s.place o }

def step : Once ι :=
  match s.place i with
  | .checking => s.move i (if s.word = .done then .returned else .claiming)
  | .claiming =>
    if s.word = .new then { s.move i .routine with word := .running } else s.move i .looping
  | .routine => { s.move i .storing with calls := s.calls + 1 }
  | .storing => { s.move i .waking with word := .done }
  | .waking => (s.move i .returned).wakeAll
  | .looping => s.move i (if s.word = .running then .waiting else .returned)
  | .waiting => s.move i (if s.word = .running then .asleep else .looping)
  | .asleep | .returned => s

def run (schedule : List ι) : Once ι := schedule.foldl step {}

/-- Nobody has called the routine. -/
def Untouched : Prop := s.calls = 0 ∧ ∀ i, s.place i = .checking ∨ s.place i = .claiming

/-- One thread is in the routine or behind it, and nobody has returned. -/
def Runs (runner : ι) : Prop :=
  (s.place runner = .routine ∧ s.calls = 0 ∨ s.place runner = .storing ∧ s.calls = 1) ∧
    ∀ i, s.place i ≠ .waking ∧ s.place i ≠ .returned ∧
      (s.place i = .routine ∨ s.place i = .storing → i = runner)

/-- The routine was called, and those who sleep will be woken. -/
def Finished : Prop :=
  s.calls = 1 ∧ (∀ i, s.place i ≠ .routine ∧ s.place i ≠ .storing) ∧
    ∀ i, s.place i = .asleep → ∃ o, s.place o = .waking

/-- The word says how far the one thread that calls the routine has come. -/
structure Sound : Prop where
  new : s.word = .new → s.Untouched
  running : s.word = .running → ∃ runner, s.Runs runner
  done : s.word = .done → s.Finished

variable {s i} {p : OncePlace} {runner : ι}

@[simp]
theorem move_self : (s.move i p).place i = p := update_self ..

theorem move_other {o : ι} (other : o ≠ i) : (s.move i p).place o = s.place o :=
  update_of_ne other ..

section

omit [DecidableEq ι]

theorem Untouched.sound (untouched : s.Untouched) (word : s.word = .new) : s.Sound :=
  ⟨fun _ => untouched, by simp [word], by simp [word]⟩

theorem Runs.sound (runs : s.Runs runner) (word : s.word = .running) : s.Sound :=
  ⟨by simp [word], fun _ => ⟨runner, runs⟩, by simp [word]⟩

theorem Finished.sound (finished : s.Finished) (word : s.word = .done) : s.Sound :=
  ⟨by simp [word], by simp [word], fun _ => finished⟩

end

theorem Untouched.claims (untouched : s.Untouched) : (s.move i .claiming).Untouched := by
  refine ⟨untouched.1, fun o => ?_⟩
  by_cases same : o = i
  · subst same
    exact .inr move_self
  · rw [move_other same]
    exact untouched.2 o

/-- The first to claim the routine runs it. -/
theorem Untouched.starts (untouched : s.Untouched) :
    Runs { s.move i .routine with word := .running } i := by
  refine ⟨.inl ⟨move_self, untouched.1⟩, fun o => ?_⟩
  by_cases same : o = i
  · subst same
    simp
  · have early := untouched.2 o
    change (s.move i .routine).place o ≠ _ ∧ (s.move i .routine).place o ≠ _ ∧
      ((s.move i .routine).place o = _ ∨ (s.move i .routine).place o = _ → _)
    rw [move_other same]
    rcases early with early | early <;> simp [early]

/-- The others go on while the routine runs. -/
theorem Runs.goes (runs : s.Runs runner) (other : s.place i ≠ .routine ∧ s.place i ≠ .storing)
    (within : p ∈ [OncePlace.claiming, .looping, .waiting, .asleep]) :
    (s.move i p).Runs runner := by
  have apart : runner ≠ i := by
    rintro rfl
    exact runs.1.elim (fun here => other.1 here.1) fun here => other.2 here.1
  refine ⟨?_, fun o => ?_⟩
  · rw [move_other apart]
    exact runs.1
  · by_cases same : o = i
    · subst same
      rw [move_self]
      have outside : p ≠ .waking ∧ p ≠ .returned ∧ p ≠ .routine ∧ p ≠ .storing := by
        revert p
        decide
      exact ⟨outside.1, outside.2.1, fun inside => absurd inside (not_or.mpr outside.2.2)⟩
    · rw [move_other same]
      exact runs.2 o

/-- The routine returns. -/
theorem Runs.returns (runs : s.Runs runner) (here : s.place i = .routine) :
    Runs { s.move i .storing with calls := s.calls + 1 } runner := by
  obtain rfl := (runs.2 i).2.2 (.inl here)
  have first : s.calls = 0 := by
    rcases runs.1 with inside | behind
    · exact inside.2
    · rw [here] at behind
      cases behind.1
  refine ⟨.inr ⟨move_self, congrArg (· + 1) first⟩, fun o => ?_⟩
  by_cases same : o = i
  · subst same
    simp
  · have apart := runs.2 o
    rw [← move_other (p := .storing) same] at apart
    exact apart

theorem Runs.stores (runs : s.Runs runner) (here : s.place i = .storing) :
    Finished { s.move i .waking with word := .done } := by
  obtain rfl := (runs.2 i).2.2 (.inr here)
  have called : s.calls = 1 := by
    rcases runs.1 with inside | behind
    · rw [here] at inside
      cases inside.1
    · exact behind.2
  refine ⟨called, fun o => ?_, fun _ _ => ⟨i, move_self⟩⟩
  by_cases same : o = i
  · subst same
    simp
  · have apart := (runs.2 o).2.2
    rw [← move_other (p := .waking) same] at apart
    exact ⟨fun inside => same (apart (.inl inside)), fun behind => same (apart (.inr behind))⟩

/-- The others go on after the routine. -/
theorem Finished.goes (finished : s.Finished) (other : s.place i ≠ .waking)
    (within : p ∈ [OncePlace.returned, .looping]) : (s.move i p).Finished := by
  refine ⟨finished.1, fun o => ?_, fun o asleep => ?_⟩
  · by_cases same : o = i
    · subst same
      rw [move_self]
      revert p
      decide
    · rw [move_other same]
      exact finished.2.1 o
  · have apart : o ≠ i := by
      rintro rfl
      rw [move_self] at asleep
      subst asleep
      revert within
      decide
    rw [move_other apart] at asleep
    obtain ⟨waker, waking⟩ := finished.2.2 o asleep
    have awake : waker ≠ i := fun same => other (same ▸ waking)
    refine ⟨waker, ?_⟩
    rwa [move_other awake]

/-- Nobody is asleep after all were woken. -/
theorem Finished.wakes (finished : s.Finished) : (s.move i .returned).wakeAll.Finished := by
  refine ⟨finished.1, fun o => ?_, fun o asleep => ?_⟩
  · have apart := finished.2.1 o
    change (if _ then _ else _) ≠ _ ∧ (if _ then _ else _) ≠ _
    by_cases same : o = i
    · subst same
      simp
    · rw [move_other same]
      split
      · decide
      · exact apart
  · change (if _ then _ else _) = _ at asleep
    split at asleep
    · cases asleep
    · next awake => exact absurd asleep awake

theorem Sound.step (sound : s.Sound) : (s.step i).Sound := by
  unfold Once.step
  cases word : s.word with
  | new =>
    have untouched := sound.new word
    rcases untouched.2 i with here | here <;> rw [here]
    · exact untouched.claims.sound word
    · exact untouched.starts.sound rfl
  | running =>
    obtain ⟨runner, runs⟩ := sound.running word
    cases here : s.place i with
    | checking => exact (runs.goes (by simp [here]) (by decide)).sound word
    | claiming => exact (runs.goes (by simp [here]) (by decide)).sound word
    | routine => exact (runs.returns here).sound word
    | storing => exact (runs.stores here).sound rfl
    | waking => exact absurd here (runs.2 i).1
    | looping => exact (runs.goes (by simp [here]) (by decide)).sound word
    | waiting => exact (runs.goes (by simp [here]) (by decide)).sound word
    | asleep => exact sound
    | returned => exact sound
  | done =>
    have finished := sound.done word
    cases here : s.place i with
    | checking => exact (finished.goes (by simp [here]) (by decide)).sound word
    | claiming => exact (finished.goes (by simp [here]) (by decide)).sound word
    | routine => exact absurd here (finished.2.1 i).1
    | storing => exact absurd here (finished.2.1 i).2
    | waking => exact finished.wakes.sound word
    | looping => exact (finished.goes (by simp [here]) (by decide)).sound word
    | waiting => exact (finished.goes (by simp [here]) (by decide)).sound word
    | asleep => exact sound
    | returned => exact sound

theorem run_sound (schedule : List ι) : (run schedule).Sound :=
  foldlRecOn _ _ (Untouched.sound ⟨rfl, fun _ => .inl rfl⟩ rfl) fun _ sound _ _ => sound.step

/-- In every run the routine is called at most once; a thread returns only after the call, and
while one sleeps another is in the call or has still to wake it. -/
theorem routine_called_once (schedule : List ι) (i : ι) :
    (run schedule).calls ≤ 1 ∧
      ((run schedule).place i = .returned → (run schedule).calls = 1) ∧
      ((run schedule).place i = .asleep → ∃ other, (run schedule).place other = .routine ∨
        (run schedule).place other = .storing ∨ (run schedule).place other = .waking) := by
  have sound := run_sound schedule
  cases word : (run schedule).word with
  | new =>
    obtain ⟨none, early⟩ := sound.new word
    rcases early i with here | here <;> simp [none, here]
  | running =>
    obtain ⟨runner, inside, others⟩ := sound.running word
    refine ⟨?_, fun back => absurd back (others i).2.1, fun _ => ⟨runner, ?_⟩⟩
    · rcases inside with ⟨_, none⟩ | ⟨_, once⟩
      · exact none.trans_le zero_le_one
      · exact once.le
    · exact inside.imp And.left fun behind => .inl behind.1
  | done =>
    obtain ⟨once, _, woken⟩ := sound.done word
    refine ⟨once.le, fun _ => once, fun asleep => ?_⟩
    obtain ⟨waker, waking⟩ := woken i asleep
    exact ⟨waker, .inr (.inr waking)⟩

/-- A second thread falls asleep in the call and is woken after it. -/
example : (run [(0 : Fin 2), 1, 0, 1, 1, 1, 0, 0, 0, 1]).place 1 = .returned := by decide

end Once

/-! ## Releasing the memory of a thread -/

inductive ThreadState
  | joinable
  | detached
  | exited
  deriving DecidableEq

/-- Where a thread is from `sx_thread_entry` to the end of `pthread_exit`. -/
inductive ThreadPlace
  | entry
  | running
  | listing
  | leaving
  | ended
  deriving DecidableEq

/-- Where the one call of `pthread_join` or `pthread_detach` is. -/
inductive CallPlace
  | before
  | joining
  | releasing
  | done
  deriving DecidableEq

/-- The mapping that holds a thread's stack and `sx_pthread`, and how often it was released. -/
structure Block where
  state : ThreadState := .joinable
  place : ThreadPlace := .entry
  based : Bool := false
  handle : Bool := false
  listed : Bool := false
  called : CallPlace := .before
  released : Nat := 0

/-- Who makes the next access to the block.  A detach may be the thread's `own`, and `wait` goes
on with a call that has looked at the state. -/
inductive Turn
  | storeHandle
  | thread (based : Bool)
  | join
  | detach (own : Bool)
  | wait
  | reap

namespace Block

variable (s : Block)

/-- From `sx_thread_entry` on. -/
def thread (based : Bool) : Block :=
  match s.place with
  | .entry => { s with based, place := if based then .running else .leaving }
  | .running =>
    if s.state = .joinable then { s with state := .exited, place := .leaving }
    else { s with place := .listing }
  | .listing => { s with listed := true, place := .leaving }
  | .leaving | .ended => { s with place := .ended }

/-- `pthread_join` up to its wait. -/
def join : Block :=
  if s.called = .before then
    { s with called := if s.state = .detached then .done else .joining }
  else s

/-- `pthread_detach` up to its wait. -/
def detach : Block :=
  if s.called = .before then
    match s.state with
    | .joinable => { s with state := .detached, called := .done }
    | .detached => { s with called := .done }
    | .exited => { s with called := .releasing }
  else s

/-- The wait for the thread's end and what follows it.  A handle that is not stored yet is -1 and
the wait fails at once: a join then gives up, a detach goes on. -/
def wait : Block :=
  match s.called with
  | .joining =>
    if s.handle = false then { s with called := .done }
    else if s.place = .ended then { s with called := .done, released := s.released + 1 }
    else s
  | .releasing =>
    if s.handle = false ∨ s.place = .ended then
      { s with called := .done, released := s.released + 1 }
    else s
  | .before | .done => s

/-- `sx_reap_ended_threads`, at this block. -/
def reap : Block :=
  if s.listed ∧ s.handle ∧ s.place = .ended then
    { s with listed := false, released := s.released + 1 }
  else s

def step : Turn → Block
  | .storeHandle => { s with handle := true }
  | .thread based => s.thread based
  | .join => s.join
  | .detach _ => s.detach
  | .wait => s.wait
  | .reap => s.reap

/-- `pthread_create`, with no call to come for a thread that is created detached. -/
def create (detached : Bool) : Block :=
  if detached then { state := .detached, called := .done } else {}

def run (detached : Bool) (turns : List Turn) : Block := turns.foldl step (create detached)

/-- Who calls has the `pthread_t` from `pthread_create`, which gives it after it has stored the
handle, or is the thread itself, in its routine. -/
def Allowed : Turn → Prop
  | .join => s.handle
  | .detach own => if own then s.place = .running else s.handle
  | _ => True

instance allowedDecidable : (turn : Turn) → Decidable (s.Allowed turn)
  | .join => inferInstanceAs (Decidable (s.handle = true))
  | .detach own => inferInstanceAs (Decidable (if own then s.place = .running else s.handle = true))
  | .storeHandle | .thread _ | .wait | .reap => .isTrue trivial

def Orderly : Block → List Turn → Prop
  | _, [] => True
  | s, turn :: turns => s.Allowed turn ∧ Orderly (s.step turn) turns

/-- What the state, the list and the call say about a block that is not yet released. -/
structure Sound : Prop where
  joinable : s.state = .joinable → s.based → s.place = .running
  exited : s.state = .exited → s.place = .leaving ∨ s.place = .ended
  kept : s.state ≠ .detached → s.place ≠ .listing ∧ ¬ s.listed ∧ (s.called = .done → s.released = 1)
  detached : s.state = .detached → s.called = .done ∧
    (s.based → s.place = .leaving ∨ s.place = .ended → s.listed ∨ s.released = 1)
  handle : s.called = .joining ∨ s.called = .releasing → s.handle
  listed : s.listed → s.released = 0 ∧ (s.place = .leaving ∨ s.place = .ended)
  released : s.released = 0 ∨ s.released = 1 ∧ s.handle ∧ s.place = .ended ∧ s.called = .done
  based : s.place = .running ∨ s.place = .listing → s.based

variable {s}

namespace Sound

variable (sound : s.Sound)

include sound

/-- A thread that has not left its routine is neither listed nor released. -/
theorem alive (early : ¬ (s.place = .leaving ∨ s.place = .ended)) :
    s.state ≠ .exited ∧ ¬ s.listed ∧ s.released = 0 := by
  refine ⟨fun exited => early (sound.exited exited),
    fun listed => early (sound.listed listed).2, ?_⟩
  rcases sound.released with none | ⟨_, _, ended, _⟩
  · exact none
  · exact absurd (.inr ended) early

theorem storeHandle : Sound { s with handle := true } where
  joinable := sound.joinable
  exited := sound.exited
  kept := sound.kept
  detached := sound.detached
  handle _ := rfl
  listed := sound.listed
  released := sound.released.imp_right fun ⟨once, _, rest⟩ => ⟨once, rfl, rest⟩
  based := sound.based

theorem enters (here : s.place = .entry) (based : Bool) :
    Sound { s with based, place := if based then .running else .leaving } := by
  obtain ⟨inside, unlisted, unreleased⟩ := sound.alive (by simp [here])
  refine ⟨fun _ based => if_pos based, fun exited => absurd exited inside,
    fun other => ⟨?_, (sound.kept other).2⟩, fun detached => ⟨(sound.detached detached).1, ?_⟩,
    sound.handle, fun listed => absurd listed unlisted, .inl unreleased, ?_⟩
  · cases based <;> simp
  · rintro (rfl : based = true)
    simp
  · cases based <;> simp

theorem exits (here : s.place = .running) (state : s.state = .joinable) :
    Sound { s with state := .exited, place := .leaving } := by
  obtain ⟨_, unlisted, unreleased⟩ := sound.alive (by simp [here])
  have unfinished := (sound.kept (by simp [state])).2.2
  exact ⟨by simp, fun _ => .inl rfl, fun _ => ⟨by simp, unlisted, unfinished⟩, by simp,
    sound.handle,
    fun listed => absurd listed unlisted, .inl unreleased, by simp⟩

theorem lists (here : s.place = .running) (state : s.state ≠ .joinable) :
    Sound { s with place := .listing } := by
  obtain ⟨inside, unlisted, unreleased⟩ := sound.alive (by simp [here])
  have detached : s.state = .detached := by
    cases eq : s.state with
    | joinable => exact absurd eq state
    | detached => rfl
    | exited => exact absurd eq inside
  exact ⟨fun joinable => absurd joinable state, fun exited => absurd exited inside,
    fun other => absurd detached other, fun _ => ⟨(sound.detached detached).1, by simp⟩,
    sound.handle, fun listed => absurd listed unlisted, .inl unreleased,
    fun _ => sound.based (.inl here)⟩

theorem leaves (here : s.place = .listing) :
    Sound { s with listed := true, place := .leaving } := by
  obtain ⟨inside, unlisted, unreleased⟩ := sound.alive (by simp [here])
  have detached : s.state = .detached := by
    by_contra other
    exact (sound.kept other).1 here
  exact ⟨by simp [detached], fun exited => absurd exited inside, fun other => absurd detached other,
    fun _ => ⟨(sound.detached detached).1, fun _ _ => .inl rfl⟩, sound.handle,
    fun _ => ⟨unreleased, .inl rfl⟩, .inl unreleased, by simp⟩

theorem ends (here : s.place = .leaving ∨ s.place = .ended) : Sound { s with place := .ended } where
  joinable state based := by
    have running := sound.joinable state based
    simp [running] at here
  exited _ := .inr rfl
  kept other := ⟨by simp, (sound.kept other).2⟩
  detached detached := ⟨(sound.detached detached).1, fun based _ =>
    (sound.detached detached).2 based here⟩
  handle := sound.handle
  listed listed := ⟨(sound.listed listed).1, .inr rfl⟩
  released := sound.released.imp_right fun ⟨once, handle, _, done⟩ => ⟨once, handle, rfl, done⟩
  based early := by simp at early

theorem thread (based : Bool) : (s.thread based).Sound := by
  unfold Block.thread
  cases here : s.place with
  | entry => exact sound.enters here based
  | running =>
    dsimp only
    split
    · next state => exact sound.exits here state
    · next state => exact sound.lists here state
  | listing => exact sound.leaves here
  | leaving => exact sound.ends (.inl here)
  | ended => exact sound.ends (.inr here)

/-- A call that has not begun has released nothing. -/
theorem unreleased (before : s.called ≠ .done) : s.released = 0 :=
  sound.released.resolve_right fun released => before released.2.2.2

theorem join (allowed : s.handle) : s.join.Sound := by
  unfold Block.join
  split
  · next before =>
    have none := sound.unreleased (by simp [before])
    have undetached : s.state ≠ .detached := fun detached => by
      have done := (sound.detached detached).1
      rw [before] at done
      cases done
    rw [if_neg undetached]
    refine ⟨sound.joinable, sound.exited, fun other => ?_,
      fun detached => absurd detached undetached,
      fun _ => allowed, sound.listed, .inl none, sound.based⟩
    exact ⟨(sound.kept other).1, (sound.kept other).2.1, by simp⟩
  · exact sound

theorem detach (allowed : s.handle ∨ s.place = .running) : s.detach.Sound := by
  unfold Block.detach
  split
  · next before =>
    have none := sound.unreleased (by simp [before])
    cases state : s.state with
    | joinable =>
      refine ⟨by simp, by simp, by simp, fun _ => ⟨rfl, fun based gone => ?_⟩, by simp,
        sound.listed, .inl none, sound.based⟩
      -- a joinable thread with a base is still in its routine
      have running : s.place = .running := sound.joinable state based
      exact absurd gone (by simp [running])
    | detached =>
      have done := (sound.detached state).1
      rw [before] at done
      cases done
    | exited =>
      have stored : s.handle := allowed.resolve_right fun running => by
        simpa [running] using sound.exited state
      have kept := sound.kept (by simp [state])
      exact ⟨by simp, fun _ => sound.exited state, fun _ => ⟨kept.1, kept.2.1, by simp⟩, by simp,
        fun _ => stored, sound.listed, .inl none, sound.based⟩
  · exact sound

/-- The thread is over and the call releases the block. -/
theorem releases (called : s.called = .joining ∨ s.called = .releasing) (ended : s.place = .ended) :
    Sound { s with called := .done, released := s.released + 1 } := by
  have stored := sound.handle called
  have before : s.called ≠ .done := by
    rcases called with called | called <;> simp [called]
  have once : s.released + 1 = 1 := congrArg (· + 1) (sound.unreleased before)
  have undetached : s.state ≠ .detached := fun detached => before (sound.detached detached).1
  refine ⟨sound.joinable, sound.exited, fun other => ?_, fun detached => absurd detached undetached,
    by simp, fun listed => absurd listed (sound.kept undetached).2.1,
      .inr ⟨once, stored, ended, rfl⟩,
    sound.based⟩
  exact ⟨(sound.kept other).1, (sound.kept other).2.1, fun _ => once⟩

theorem wait : s.wait.Sound := by
  unfold Block.wait
  cases called : s.called with
  | before => exact sound
  | joining =>
    have stored := sound.handle (.inl called)
    dsimp only
    rw [if_neg (by simp [stored])]
    split
    · next ended => exact sound.releases (.inl called) ended
    · exact sound
  | releasing =>
    have stored := sound.handle (.inr called)
    dsimp only
    split
    · next finished =>
      exact sound.releases (.inr called) (finished.resolve_left (by simp [stored]))
    · exact sound
  | done => exact sound

theorem reap : s.reap.Sound := by
  unfold Block.reap
  split
  · next finished =>
    obtain ⟨listed, stored, ended⟩ := finished
    have detached : s.state = .detached := by
      by_contra other
      exact (sound.kept other).2.1 listed
    have done := (sound.detached detached).1
    have once : s.released + 1 = 1 := congrArg (· + 1) (sound.listed listed).1
    exact ⟨sound.joinable, sound.exited, fun other => absurd detached other,
      fun _ => ⟨done, fun _ _ => .inr once⟩, sound.handle, by simp,
      .inr ⟨once, stored, ended, done⟩, sound.based⟩
  · exact sound

theorem step {turn : Turn} (allowed : s.Allowed turn) : (s.step turn).Sound := by
  cases turn with
  | storeHandle => exact sound.storeHandle
  | thread based => exact sound.thread based
  | join => exact sound.join allowed
  | detach own =>
    cases own with
    | false => exact sound.detach (.inl allowed)
    | true => exact sound.detach (.inr allowed)
  | wait => exact sound.wait
  | reap => exact sound.reap

theorem run (turns : List Turn) (orderly : Orderly s turns) : (turns.foldl Block.step s).Sound := by
  induction turns generalizing s with
  | nil => exact sound
  | cons turn turns ih => exact ih (sound.step orderly.1) orderly.2

end Sound

theorem create_sound (detached : Bool) : (create detached).Sound := by
  cases detached <;> constructor <;> simp [create]

/-- Whatever the order of the accesses, a thread's block is released at most once, and not
before it is ended, its handle is stored and the call is over; after that the next reap finds it. -/
theorem block_released_once (detached : Bool) (turns : List Turn)
    (orderly : Orderly (create detached) turns) :
    let s := run detached turns
    s.released ≤ 1 ∧
    (s.released = 1 → s.handle ∧ s.place = .ended ∧ s.called = .done ∧ ¬ s.listed) ∧
    (s.based ∧ s.handle ∧ s.place = .ended ∧ s.called = .done → (s.step .reap).released = 1) := by
  intro s
  have sound : s.Sound := (create_sound detached).run turns orderly
  refine ⟨?_, fun once => ?_, fun ⟨based, stored, ended, done⟩ => ?_⟩
  · rcases sound.released with none | ⟨once, _⟩
    · exact none.trans_le zero_le_one
    · exact once.le
  · have unlisted : ¬ s.listed := fun listed => by
      have none := (sound.listed listed).1
      omega
    rcases sound.released with none | ⟨_, stored, ended, done⟩
    · omega
    · exact ⟨stored, ended, done, unlisted⟩
  · change s.reap.released = 1
    unfold Block.reap
    split
    · next finished => exact congrArg (· + 1) (sound.listed finished.1).1
    · next idle =>
      have unlisted : ¬ s.listed := fun listed => idle ⟨listed, stored, ended⟩
      by_cases detached : s.state = .detached
      · exact ((sound.detached detached).2 based (.inr ended)).resolve_left unlisted
      · exact (sound.kept detached).2.2 done

/-- The thread detaches itself and has ended before its handle is stored. -/
theorem block_released_once_detached :
    let turns := [.thread true, .detach true, .thread true, .thread true, .thread true, .reap,
      .storeHandle, .reap]
    Orderly (create false) turns ∧ (run false turns).released = 1 ∧
      (run false turns).place = .ended := by
  intro turns
  have orderly : Orderly (create false) turns := by
    simp only [turns, Orderly]
    decide
  have released : (run false turns).released = 1 := by decide
  exact ⟨orderly, released, ((block_released_once false turns orderly).2.1 released).2.1⟩

/-- A caller that has the `pthread_t` from the thread itself may come before the handle is stored,
and then a detach does not wait for the thread's end. -/
example : (run false [.thread true, .thread true, .detach false, .wait]).released = 1 ∧
    (run false [.thread true, .thread true, .detach false, .wait]).place = .leaving := by
  decide

end Block

end SavanXP.Threads
