import SavanXP.Process.ChildTables

/-!
# Every child is reported once

Each call keeps the tables and the books in order, as long as the numbers of
processes and threads stay below `2 ^ 31` and no two parked threads of a process
ask for what one child could meet.  A child that two such threads wait for wakes
only the first, and the other waits for nobody.
-/

namespace SavanXP.Children

open SavanXP.Library List Function Machine

namespace Machine

variable {m t : Machine} {k i : Nat}

structure Orderly (m : Machine) : Prop where
  table : m.Table
  hopeful : m.Hopeful fun _ => False
  apart : m.Apart
  books : m.Books

/-- The same processes and books, with no more parked threads. -/
theorem Orderly.fewer (ord : m.Orderly) (agree : Agree t m)
    (ended : t.ended = m.ended) (outcomes : t.outcomes = m.outcomes)
    (nextPid : m.nextPid ≤ t.nextPid)
    (threads : ∀ i, t.waits i → t.threads i = m.threads i) :
    t.Orderly where
  table := ord.table.same agree nextPid
  hopeful := ord.hopeful.fewer agree threads
  apart := ord.apart.fewer threads
  books := ord.books.same agree ended outcomes nextPid

variable {th : Thread}

/-- A thread stops, goes on or is let go. -/
theorem Orderly.setThread (ord : m.Orderly) (stopped : th.state ≠ .waiting) :
    (m.setThread i th).Orderly :=
  ord.fewer (.of_eq rfl) rfl rfl le_rfl fun _ wait => (waits_setThread stopped wait).2

/-! ## Children that ended -/

/-- An ended child leaves, when the threads that stay parked do not wait for it. -/
theorem orderly_leave {ending : Nat → Prop} {fate : Fate} (table : m.Table)
    (hopeful : m.Hopeful ending) (apart : m.Apart) (books : m.Books)
    (zombie : (m.processes k).life = .zombie)
    (only : ∀ o, ending o → o = k)
    (unawaited : ∀ i, m.waits i → ¬ m.Awaited i k)
    (rightful : m.Rightful
      { child := (m.processes k).pid, code := (m.processes k).exitCode, fate := fate }) :
    ((m.note k fate).reapProcess k).Orderly where
  table := (table.same (.of_eq rfl) le_rfl : (m.note k fate).Table).reap
  hopeful := by
    have noted : (m.note k fate).Hopeful ending := hopeful.fewer (.of_eq rfl) fun _ _ => rfl
    refine (noted.reap ?_).mono ?_
    · intro i wait awaited
      exact unawaited i wait { awaited with }
    · rintro _ _ o _ ⟨isEnding, ne⟩
      exact ne (only o isEnding)
  apart := (apart.fewer fun _ _ => rfl : (m.note k fate).Apart).reap
  books := books.leave table zombie rightful

theorem findWaitingParentFor_some {child : Process}
    (found : m.findWaitingParentFor child = some i) :
    m.waits i ∧ (m.owner i).pid = child.parentPid ∧ asksFor (m.threads i).waitingFor child.pid := by
  simpa [waits] using find?_some found

theorem findWaitingParentFor_none {child : Process}
    (missing : m.findWaitingParentFor child = none) (ins : i < maxThreads)
    (wait : m.waits i) (parent : child.parentPid = (m.owner i).pid) :
    ¬ asksFor (m.threads i).waitingFor child.pid := by
  have here := find?_eq_none.mp missing i (mem_range.mpr ins)
  simp only [decide_eq_true_eq, not_and] at here
  exact here wait parent.symm

/-- What the end of a process has come to before it has looked for its parent. -/
structure Ending (k : Nat) (m : Machine) : Prop where
  table : m.Table
  hopeful : m.Hopeful fun o => o = k
  apart : m.Apart
  books : m.Books
  zombie : (m.processes k).life = .zombie

/-- The child is handed to a thread that waited for it. -/
theorem Ending.report (ending : m.Ending k) (wait : m.waits i)
    (parent : (m.owner i).pid = (m.processes k).parentPid)
    (asked : asksFor (m.threads i).waitingFor (m.processes k).pid)
    (stopped : th.state ≠ .waiting) : (((m.setThread i th).note k
      (.reported (m.processes k).parentPid (m.owner i).pid
        (m.threads i).waitingFor (m.processes k).pid)).reapProcess k).Orderly := by
  have hopeful := ending.hopeful
  have agree : Agree (m.setThread i th) m := .of_eq rfl
  have threads : ∀ o, (m.setThread i th).waits o →
      (m.setThread i th).threads o = m.threads o :=
    fun _ waits => (waits_setThread stopped waits).2
  refine orderly_leave (ending.table.same agree le_rfl) (hopeful.fewer agree threads)
    (ending.apart.fewer threads) (ending.books.same agree rfl rfl le_rfl) ending.zombie
    (fun _ => id) ?_ ⟨parent, asked, rfl⟩
  intro o waits awaited
  obtain ⟨ne, same⟩ := waits_setThread stopped waits
  have old := waits_of_setThread stopped waits
  have awaitedBefore := (agree.awaited (hopeful.owned o old) same).mp awaited
  have sameOwner : (m.threads o).process = (m.threads i).process :=
    ending.table.distinct _ _ (used_of_life (hopeful.owned o old) (by decide))
      (used_of_life (hopeful.owned i wait) (by decide))
      (awaitedBefore.parent.symm.trans parent.symm)
  exact ending.apart o i ne old wait sameOwner
    (overlap_of_asks awaitedBefore.asked asked)

theorem Ending.wake (ending : m.Ending k) : (m.wakeWaitingParent k).Orderly := by
  have hopeful := ending.hopeful
  have inUse : m.used k := used_of_life ending.zombie (by decide)
  unfold wakeWaitingParent
  dsimp only
  split
  next missing =>
    have unawaited : ∀ i, m.waits i → ¬ m.Awaited i k := by
      intro i wait awaited
      exact findWaitingParentFor_none missing (hopeful.inside i wait) wait
        awaited.parent awaited.asked
    split
    next orphaned =>
      exact orderly_leave ending.table hopeful ending.apart ending.books ending.zombie
        (fun _ => id) unawaited (ending.books.born k inUse orphaned)
    next =>
      refine ⟨ending.table, hopeful.mono ?_, ending.apart, ending.books⟩
      intro i wait o awaited eq
      exact unawaited i wait (eq ▸ awaited)
  next i found =>
    obtain ⟨wait, parent, asked⟩ := findWaitingParentFor_some found
    exact ending.report wait parent asked State.noConfusion

/-! ## The children of a process that ended -/

/-- No parked thread belongs to the process of this number. -/
def Gone (pid : Nat) (m : Machine) : Prop :=
  ∀ i, m.waits i → (m.owner i).pid ≠ pid

variable {pid : Nat}

theorem Gone.reap (gone : m.Gone pid) : (m.reapProcess k).Gone pid := by
  intro i wait
  rw [owner_reap wait]
  exact gone i (waits_of_reap wait)

theorem Gone.setThread (gone : m.Gone pid) (stopped : th.state ≠ .waiting) :
    (m.setThread i th).Gone pid := by
  intro o wait
  have same := (waits_setThread stopped wait).2
  unfold owner
  rw [same]
  exact gone o (waits_of_setThread stopped wait)

theorem Gone.wake (gone : m.Gone pid) : (m.wakeWaitingParent k).Gone pid := by
  unfold wakeWaitingParent
  dsimp only
  split
  next =>
    split
    · exact Gone.reap gone
    · exact gone
  next i _ =>
    apply Gone.reap
    exact Gone.setThread gone State.noConfusion

/-- While the children of an ended process are gone through. -/
structure Adopting (pid : Nat) (m : Machine) : Prop extends Orderly m where
  gone : m.Gone pid
  isEnded : pid ∈ m.ended.map Prod.fst

theorem Adopting.adopt (adopting : m.Adopting pid) (k : Nat) : (m.adopt pid k).Adopting pid := by
  have unawaited : (m.processes k).parentPid = pid →
      ∀ i, m.waits i → ¬ m.Awaited i k :=
    fun parent i wait awaited =>
      adopting.gone i wait (awaited.parent.symm.trans parent)
  have bornOf : m.used k → (m.processes k).parentPid = pid →
      (m.processes k).bornOf ∈ m.ended.map Prod.fst := by
    intro inUse parent
    cases orphaned : (m.processes k).orphaned with
    | true => exact adopting.books.born k inUse orphaned
    | false =>
      rw [← adopting.books.kept k inUse orphaned, parent]
      exact adopting.isEnded
  unfold Machine.adopt
  dsimp only
  split
  next => exact adopting
  next child =>
    simp only [not_or, not_not] at child
    obtain ⟨inUse, parent⟩ := child
    split
    next zombie =>
      refine ⟨?_, adopting.gone.reap, adopting.isEnded⟩
      exact orderly_leave adopting.table adopting.hopeful adopting.apart adopting.books zombie
        (fun _ => False.elim) (unawaited parent) (bornOf inUse parent)
    next living =>
      have alive : (m.processes k).life = .alive := by
        cases life : (m.processes k).life with
        | unused => exact absurd life inUse
        | alive => rfl
        | zombie => exact absurd life living
      have amends : Amends { m.processes k with
          parentPid := m.initPid, orphaned := true } (m.processes k) :=
        ⟨alive, alive, rfl, rfl⟩
      refine ⟨⟨adopting.table.amend amends, adopting.hopeful.amend amends ?_, adopting.apart,
        adopting.books.amend amends ?_ ?_⟩, ?_, adopting.isEnded⟩
      · exact fun i wait awaited => absurd awaited (unawaited parent i wait)
      · exact fun _ => bornOf inUse parent
      · exact Bool.noConfusion
      intro i wait
      unfold owner
      rw [pid_setProcess amends]
      exact adopting.gone i wait

/-! ## The end of a process -/

section

variable (ord : m.Orderly) (alive : (m.processes k).life = .alive)
include ord alive

theorem orderly_requestExit (code : Int) : (m.requestExit k code).Orderly ∧
      ((m.requestExit k code).processes k).life = .alive ∧
      ((m.requestExit k code).processes k).pid = (m.processes k).pid := by
  unfold requestExit
  dsimp only
  split
  next => exact ⟨ord, alive, rfl⟩
  next =>
    have amends : Amends { m.processes k with
        exitRequested := true, exitCode := code } (m.processes k) :=
      ⟨alive, alive, rfl, rfl⟩
    have inUse := used_of_life alive (by decide)
    rw [setProcess_self]
    refine ⟨⟨ord.table.amend amends, ?_, ord.apart, ?_⟩, alive, rfl⟩
    · exact ord.hopeful.amend amends fun _ _ _ => rfl
    · exact ord.books.amend amends (ord.books.born k inUse)
        (ord.books.kept k inUse)

theorem Orderly.bury : (m.bury k).Ending k where
  table := ord.table.bury alive
  hopeful := ord.hopeful.bury alive
  apart := ord.apart.fewer fun _ wait => (waits_bury wait).1
  books := ord.books.bury alive ord.table
  zombie := by rw [bury_self]

theorem gone_bury : (m.bury k).Gone (m.processes k).pid := by
  intro i wait same
  rw [owner_bury wait] at same
  have owned := ord.hopeful.owned i (waits_of_bury wait)
  exact (waits_bury wait).2 (ord.table.distinct _ k (used_of_life owned (by decide))
    (used_of_life alive (by decide)) same)

end

theorem wake_ended : (m.wakeWaitingParent k).ended = m.ended := by
  unfold wakeWaitingParent
  dsimp only
  split
  next =>
    split <;> rfl
  next => rfl

theorem Orderly.terminate (ord : m.Orderly) (k : Nat) (code : Int) (deferred : Bool) :
    (m.terminateProcess k code deferred).Orderly := by
  unfold terminateProcess
  dsimp only
  split
  next => exact ord
  next running =>
    simp only [not_or, not_not] at running
    obtain ⟨asked, alive, pid⟩ := orderly_requestExit ord running.2 code
    split
    next => exact asked
    next =>
      have adopting : (((m.requestExit k code).bury k).wakeWaitingParent k).Adopting
          (m.processes k).pid := by
        refine ⟨(asked.bury alive).wake, ?_, ?_⟩
        · rw [← pid]
          exact (gone_bury asked alive).wake
        rw [wake_ended, ← pid]
        change _ ∈ ((m.requestExit k code).ended ++ [_]).map Prod.fst
        rw [map_append]
        exact mem_append_right _ (mem_singleton_self _)
      have done : ((((m.requestExit k code).bury k).wakeWaitingParent
          k).reparentOrphanedChildren (m.processes k).pid).Adopting
          (m.processes k).pid :=
        overSlots_keeps (fun child _ held => held.adopt child) adopting
      exact done.toOrderly

/-! ## Waiting -/

variable {parent waited : Nat}

theorem findZombieChild_some (found : m.findZombieChild parent waited = some k) :
    (m.processes k).life = .zombie ∧ (m.processes k).parentPid = parent ∧
      asksFor waited (m.processes k).pid := by
  simpa using find?_some found

theorem findZombieChild_none (missing : m.findZombieChild parent waited = none)
    (ins : k < maxProcesses) (child : m.Child parent waited k) : (m.processes k).life = .alive := by
  have here := find?_eq_none.mp missing k (mem_range.mpr ins)
  simp only [decide_eq_true_eq, not_and] at here
  cases life : (m.processes k).life with
  | unused => exact absurd life child.used
  | alive => rfl
  | zombie => exact absurd child.asked (here life child.parent)

theorem hasChild_exists (has : m.hasChild parent waited = true) : ∃ k, m.Child parent waited k := by
  unfold hasChild at has
  rw [any_eq_true] at has
  obtain ⟨k, _, child⟩ := has
  simp only [decide_eq_true_eq] at child
  exact ⟨k, child.1, child.2.1, child.2.2⟩

/-- Small numbers are the same as signed ones. -/
theorem bmod_small (small : pid < 2 ^ 31) : (pid : Int).bmod (2 ^ 32) = pid := by
  apply Int.bmod_eq_of_le <;> omega

/-- A thread parks: it has a child to wait for, and none of those has ended. -/
theorem Orderly.park (ord : m.Orderly) (ins : i < maxThreads)
    (same : th.process = (m.threads i).process)
    (alive : (m.owner i).life = .alive)
    (missing : m.findZombieChild (m.owner i).pid th.waitingFor = none)
    (has : m.hasChild (m.owner i).pid th.waitingFor = true) (apart : (m.setThread i th).Apart) :
    (m.setThread i th).Orderly := by
  have hopeful := ord.hopeful
  unfold owner at alive missing has
  rw [← same] at alive missing has
  refine ⟨ord.table.same (.of_eq rfl) le_rfl, ⟨?_, ?_, ?_, ?_⟩, apart,
    ord.books.same (.of_eq rfl) rfl rfl le_rfl⟩
  · exact (forall_update_iff m.threads fun _ th => th.state = .waiting →
      (m.processes th.process).life = .alive).mpr ⟨fun _ => alive, fun o _ => hopeful.owned o⟩
  · exact (forall_update_iff m.threads fun o th => th.state = .waiting → o < maxThreads).mpr
      ⟨fun _ => ins, fun o _ => hopeful.inside o⟩
  · refine (forall_update_iff m.threads fun _ waiter => waiter.state = .waiting →
      ∀ k, (m.setThread i th).Child (m.processes waiter.process).pid waiter.waitingFor k →
        (m.processes k).life = .alive ∨ False).mpr
          ⟨fun _ k child => .inl ?_, fun o _ wait k child => ?_⟩
    · exact findZombieChild_none missing (ord.table.inside k child.used) { child with }
    · exact hopeful.running o wait k { child with }
  · refine (forall_update_iff m.threads fun _ waiter => waiter.state = .waiting →
      ∃ k, (m.setThread i th).Child (m.processes waiter.process).pid waiter.waitingFor k).mpr
        ⟨fun _ => ?_, fun o _ wait => ?_⟩
    · obtain ⟨k, child⟩ := hasChild_exists has
      exact ⟨k, { child with }⟩
    · obtain ⟨k, child⟩ := hopeful.some_child o wait
      exact ⟨k, { child with }⟩

theorem Orderly.waitpid (ord : m.Orderly) {waited : Int} (ins : i < maxThreads)
    (alive : (m.owner i).life = .alive) (small : m.nextPid ≤ 2 ^ 31)
    (apart : (m.waitpidChild i waited).Apart) : (m.waitpidChild i waited).Orderly := by
  unfold waitpidChild at apart ⊢
  dsimp only at apart ⊢
  split
  next k found =>
    obtain ⟨zombie, parent, asked⟩ := findZombieChild_some found
    refine orderly_leave ord.table ord.hopeful ord.apart ord.books zombie
      (fun _ => False.elim) ?_ ⟨parent.symm, asked, ?_⟩
    · intro o wait awaited
      rcases ord.hopeful.running o wait k awaited with isAlive | bad
      · rw [zombie] at isAlive
        cases isAlive
      · exact bad
    · have bound := (ord.table.pids k (used_of_life zombie (by decide))).2
      exact bmod_small (lt_of_lt_of_le bound small)
  next missing =>
    rw [missing] at apart
    split
    next has =>
      rw [if_pos has] at apart
      exact ord.park ins (by rfl) alive missing has apart
    next => exact ord

/-! ## Births -/

theorem firstFree_unused (found : firstFree (fun k => (m.processes k).life ≠ .unused) maxProcesses =
      some k) : ¬ m.used k ∧ k < maxProcesses := by
  obtain ⟨ins, free⟩ := firstFree_some found
  refine ⟨fun inUse => ?_, ins⟩
  simp only [decide_eq_false_iff_not] at free
  exact free inUse

theorem takePid_nextPid (small : m.nextPid < 2 ^ 31) : m.takePid.nextPid = m.nextPid + 1 := by
  apply Nat.mod_eq_of_lt
  omega

theorem takePid_le (small : m.nextPid < 2 ^ 31) : m.nextPid ≤ m.takePid.nextPid := by
  rw [takePid_nextPid small]
  exact Nat.le_succ _

section

variable (ord : m.Orderly)
include ord

theorem Orderly.create (free : ¬ m.used k)
    (room : k < maxProcesses) (small : m.nextPid < 2 ^ 31) (parent : Nat) :
    ((m.setProcess k (m.newborn parent)).takePid).Orderly where
  table := ord.table.create room parent (takePid_nextPid small) rfl
  hopeful := (ord.hopeful.create free parent).fewer (.of_eq rfl) fun _ _ => rfl
  apart := ord.apart.fewer fun _ _ => rfl
  books := (ord.books.create free parent).same (.of_eq rfl) rfl rfl (takePid_le small)

/-- A process that could not be completed leaves its slot as it was. -/
theorem Orderly.abandon (free : ¬ m.used k) (small : m.nextPid < 2 ^ 31) (parent : Nat) :
    (((m.setProcess k (m.newborn parent)).takePid).reapProcess k).Orderly := by
  refine ord.fewer (fun o inUse => ?_) rfl rfl (takePid_le small) fun _ wait => (waits_reap wait).1
  have ne : o ≠ k := by
    rcases inUse with after | old
    · exact (used_reap after).1
    · exact fun eq => free (eq ▸ old)
  rw [reapProcess_other ne]
  exact setProcess_other ne

theorem Orderly.spawn (small : m.nextPid < 2 ^ 31) (parent : Nat)
    (fails : Bool) : (m.spawn parent fails).Orderly := by
  unfold Machine.spawn
  split
  next => exact ord
  next k found =>
    obtain ⟨free, room⟩ := firstFree_unused found
    dsimp only
    split
    next => exact ord.abandon free small parent
    next =>
      split
      next => exact ord.abandon free small parent
      next => exact (ord.create free room small parent).setThread State.noConfusion

theorem Orderly.createThread (small : m.nextPid < 2 ^ 31)
    (k : Nat) (fails : Bool) : (m.createThread k fails).Orderly := by
  have taken : m.takePid.Orderly := ord.fewer (.of_eq rfl) rfl rfl (takePid_le small) fun _ _ => rfl
  unfold Machine.createThread
  split
  next => exact ord
  next =>
    split
    next => exact taken
    next => exact taken.setThread State.noConfusion

end

end Machine

open Machine

/-! ## Runs -/

/-- The numbers handed out are small, and no two parked threads of one process
ask for what one child could meet. -/
structure Tame (m : Machine) : Prop where
  small : m.nextPid < 2 ^ 31
  apart : m.Apart

variable {m : Machine}

def TameRun : List Event → Machine → Prop
  | [], _ => True
  | event :: rest, m => Tame (step event m) ∧ TameRun rest (step event m)

theorem step_orderly {event : Event} (ord : m.Orderly)
    (small : m.nextPid < 2 ^ 31) (tame : Tame (step event m)) : (step event m).Orderly := by
  cases event with
  | spawn i fails =>
    simp only [step]
    split
    · exact ord.spawn small _ fails
    · exact ord
  | createThread i fails =>
    simp only [step]
    split
    · exact ord.createThread small _ fails
    · exact ord
  | waitpid i waited =>
    simp only [step] at tame ⊢
    split
    next isRunning =>
      rw [if_pos isRunning] at tame
      simp only [running, decide_eq_true_eq] at isRunning
      exact ord.waitpid isRunning.1 isRunning.2.2 (le_of_lt small) tame.apart
    next => exact ord
  | exitThread i code deferred =>
    simp only [step, exitCurrentThread]
    split
    · split
      · exact ord.terminate ..
      · split
        · exact ord.terminate ..
        · exact ord.setThread State.noConfusion
    · exact ord
  | terminate k code deferred => exact ord.terminate ..
  | stopThread | releaseThread =>
    simp only [step]
    split
    · exact ord.setThread State.noConfusion
    · exact ord

theorem run_orderly {events : List Event} (ord : m.Orderly)
    (small : m.nextPid < 2 ^ 31) (tame : TameRun events m) : (run events m).Orderly := by
  induction events generalizing m with
  | nil => exact ord
  | cons event rest ih => exact ih (step_orderly ord small tame.1) tame.1.small tame.2

variable {cores : Fin (maxCpus + 1)}

theorem booted_waits {i : Nat} : ¬ (booted cores).waits i := by
  unfold waits booted
  dsimp only
  split <;> exact State.noConfusion

theorem booted_used {k : Nat} (inUse : (booted cores).used k) : k ≤ cores.val := by
  by_contra outside
  unfold used booted at inUse
  dsimp only at inUse
  rw [if_neg outside] at inUse
  exact inUse rfl

theorem booted_process {k : Nat} (ins : k ≤ cores.val) :
    (booted cores).processes k =
      { Process.blank with life := .alive, pid := k + 1, idle := k < cores.val } :=
  if_pos ins

theorem booted_orderly (cores : Fin (maxCpus + 1)) : (booted cores).Orderly where
  table := by
    constructor
    · exact Nat.succ_pos _
    · intro k inUse
      have ins := booted_used inUse
      rw [booted_process ins]
      exact ⟨Nat.succ_pos k, Nat.lt_succ_of_le (Nat.succ_le_succ ins)⟩
    · intro k o inUse otherUse same
      rw [booted_process (booted_used inUse), booted_process (booted_used otherUse)] at same
      exact Nat.succ.inj same
    · intro k inUse
      have room : maxCpus < maxProcesses := by
        unfold maxProcesses
        decide
      exact lt_of_le_of_lt (booted_used inUse) (lt_of_le_of_lt (Nat.lt_succ_iff.mp cores.isLt) room)
  hopeful := by
    constructor <;> exact fun _ wait => absurd wait booted_waits
  apart _ _ _ wait := absurd wait booted_waits
  books := by
    refine ⟨nodup_nil, nofun, nofun, fun k zombie => ?_, nofun, fun k inUse orphaned => ?_,
      fun k inUse _ => ?_, nofun, nodup_nil, nofun⟩
    · rw [booted_process (booted_used (used_of_life zombie (by decide)))] at zombie
      cases zombie
    · rw [booted_process (booted_used inUse)] at orphaned
      cases orphaned
    · rw [booted_process (booted_used inUse)]
      rfl

theorem booted_small (cores : Fin (maxCpus + 1)) : (booted cores).nextPid < 2 ^ 31 := by
  have limit : maxCpus + 1 = 33 := rfl
  change cores.val + 2 < 2 ^ 31
  omega

theorem waits_spawn {i parent : Nat} {fails : Bool}
    (wait : (m.spawn parent fails).waits i) : m.waits i := by
  unfold spawn at wait
  split at wait
  next => exact wait
  next k _ =>
    dsimp only at wait
    split at wait
    next => exact waits_of_reap wait
    next =>
      split at wait
      next => exact waits_of_reap wait
      next => exact waits_of_setThread State.noConfusion wait

theorem waits_waitpid {i o : Nat} {waited : Int}
    (ne : o ≠ i) (wait : (step (.waitpid i waited) m).waits o) : m.waits o := by
  simp only [step, waitpidChild] at wait
  split at wait
  next =>
    split at wait
    next => exact waits_of_reap wait
    next =>
      split at wait
      next =>
        unfold waits at wait
        rw [setThread_other ne] at wait
        exact wait
      next => exact wait
  next => exact wait

/-- Only one thread is parked. -/
theorem apart_of_one (i : Nat) (others : ∀ o ≠ i, ¬ m.waits o) : m.Apart := by
  intro first second ne wait otherWaiting
  by_cases eq : first = i
  · exact absurd otherWaiting (others second fun same => ne (eq.trans same.symm))
  · exact absurd wait (others first eq)

/-- In every tame run no process ends twice.  Each that ended is in the table
still, waiting to be asked for, or left it exactly once with its exit code: it
was returned, under its own number, to a thread of the process that was its
parent then and that asked for it, or it went unreported after the process that
made it had ended.  And each thread parked in waitpid has a child in the table
that its request names. -/
theorem children_are_reported_once (cores : Fin (maxCpus + 1)) (events : List Event)
    (tame : TameRun events (booted cores)) :
    ((run events (booted cores)).ended.map Prod.fst).Nodup ∧
    (∀ entry ∈ (run events (booted cores)).ended,
      (∃ slot, ((run events (booted cores)).processes slot).life = .zombie ∧
        ((run events (booted cores)).processes slot).pid = entry.1 ∧
        ((run events (booted cores)).processes slot).exitCode = entry.2 ∧
        entry.1 ∉ (run events (booted cores)).outcomes.map Outcome.child) ∨
      ∃! outcome, outcome ∈ (run events (booted cores)).outcomes ∧ outcome.child = entry.1) ∧
    (∀ outcome ∈ (run events (booted cores)).outcomes,
      (outcome.child, outcome.code) ∈ (run events (booted cores)).ended ∧
        match outcome.fate with
        | .reported parent waiter request result =>
          waiter = parent ∧ asksFor request outcome.child ∧ result = outcome.child
        | .unreported bornOf => bornOf ∈ (run events (booted cores)).ended.map Prod.fst) ∧
    ∀ index, ((run events (booted cores)).threads index).state = .waiting →
      ∃ slot, ((run events (booted cores)).processes slot).life ≠ .unused ∧
        ((run events (booted cores)).processes slot).parentPid =
          ((run events (booted cores)).owner index).pid ∧
        asksFor ((run events (booted cores)).threads index).waitingFor
          ((run events (booted cores)).processes slot).pid := by
  have orderly := run_orderly (booted_orderly cores) (booted_small cores) tame
  have books := orderly.books
  refine ⟨books.once, ?_, books.noted, ?_⟩
  · intro entry member
    rcases books.accounted entry member with ⟨slot, zombie, pid, code⟩ | gone
    · exact .inl ⟨slot, zombie, pid, code, pid ▸ books.pending slot zombie⟩
    obtain ⟨outcome, noted, same⟩ := mem_map.mp gone
    refine .inr ⟨outcome, ⟨noted, same⟩, ?_⟩
    rintro other ⟨otherNoted, otherSame⟩
    exact inj_on_of_nodup_map books.settled otherNoted noted (otherSame.trans same.symm)
  · intro index waiting
    obtain ⟨slot, child⟩ := orderly.hopeful.some_child index waiting
    exact ⟨slot, child.used, child.parent, child.asked⟩

theorem children_are_reported_once_one_child :
    TameRun [.spawn 1 false, .waitpid 1 (-1), .terminate 2 7 false] (booted 1) ∧
    (run [.spawn 1 false, .waitpid 1 (-1), .terminate 2 7 false] (booted 1)).outcomes =
      [⟨3, 7, .reported 2 2 waitAnyPid 3⟩] ∧
    ((run [.spawn 1 false, .waitpid 1 (-1), .terminate 2 7 false] (booted 1)).ended.map
      Prod.fst).Nodup := by
  have form : step (.spawn 1 false) (booted 1) = (booted 1).spawn ((booted 1).owner 1).pid false :=
    if_pos (by decide +kernel)
  have spawned : Tame (step (.spawn 1 false) (booted 1)) := by
    refine ⟨by decide +kernel, ?_⟩
    rw [form]
    exact ((booted_orderly 1).spawn (booted_small 1) _ false).apart
  have idle : ∀ other, ¬ (step (.spawn 1 false) (booted 1)).waits other := by
    intro other waiting
    rw [form] at waiting
    exact booted_waits (waits_spawn waiting)
  have parked : Tame (step (.waitpid 1 (-1)) (step (.spawn 1 false) (booted 1))) := by
    refine ⟨by decide +kernel, apart_of_one 1 fun other different waiting => ?_⟩
    exact idle other (waits_waitpid different waiting)
  have tame : TameRun [.spawn 1 false, .waitpid 1 (-1), .terminate 2 7 false] (booted 1) := by
    refine ⟨spawned, parked, ⟨by decide +kernel, ?_⟩, trivial⟩
    have orderly := run_orderly (booted_orderly 1) (booted_small 1) (show TameRun
      [.spawn 1 false, .waitpid 1 (-1)] (booted 1) from ⟨spawned, parked, trivial⟩)
    exact (orderly.terminate 2 7 false).apart
  exact ⟨tame, by decide +kernel, (children_are_reported_once 1 _ tame).1⟩

/-- Two threads of a process wait for its one child, by any number and by its
own; the child wakes the first, and the other has nobody left to wait for. -/
theorem second_waiter_is_left_behind :
    (run [.createThread 1 false, .spawn 1 false, .waitpid 1 (-1), .waitpid 2 4,
      .terminate 2 7 false] (booted 1)).outcomes = [⟨4, 7, .reported 2 2 waitAnyPid 4⟩] ∧
    ((run [.createThread 1 false, .spawn 1 false, .waitpid 1 (-1), .waitpid 2 4,
      .terminate 2 7 false] (booted 1)).threads 2).state = .waiting ∧
    (run [.createThread 1 false, .spawn 1 false, .waitpid 1 (-1), .waitpid 2 4,
      .terminate 2 7 false] (booted 1)).hasChild
        ((run [.createThread 1 false, .spawn 1 false, .waitpid 1 (-1), .waitpid 2 4,
          .terminate 2 7 false] (booted 1)).owner 2).pid 4 = false := by
  decide +kernel

end SavanXP.Children
