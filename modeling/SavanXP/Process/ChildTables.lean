import SavanXP.Library.Tables
import SavanXP.Process.Children

/-!
# The process table and its waiting threads

Numbers name processes: no two slots in use have the same one.  A thread parked
in waitpid belongs to a live process, has a child in the table that its request
names, and none such that has ended.  The one exception is a child that is just
ending, before it has looked for its parent.

The books say where each process that ended went: it is in the table still, or
it left it once.
-/

namespace SavanXP.Children

open SavanXP.Library List Function Machine

namespace Machine

variable {m t : Machine} {k i : Nat} {p : Process} {th : Thread}

def used (m : Machine) (k : Nat) : Prop := (m.processes k).life ≠ .unused

def waits (m : Machine) (i : Nat) : Prop := (m.threads i).state = .waiting

/-- The process in the slot is a child that the request names. -/
structure Child (m : Machine) (parent req k : Nat) : Prop where
  used : m.used k
  parent : (m.processes k).parentPid = parent
  asked : asksFor req (m.processes k).pid

/-- The child is one that a parked thread waits for. -/
def Awaited (m : Machine) (i k : Nat) : Prop :=
  m.Child (m.owner i).pid (m.threads i).waitingFor k

/-- What a child is, its own slot says. -/
theorem Child.moved {parent req : Nat} (same : t.processes k = m.processes k) :
    t.Child parent req k ↔ m.Child parent req k := by
  have used : t.used k ↔ m.used k := by rw [Machine.used, same, Machine.used]
  constructor
  · rintro ⟨inUse, isParent, asked⟩
    exact ⟨used.mp inUse, same ▸ isParent, same ▸ asked⟩
  · rintro ⟨inUse, isParent, asked⟩
    exact ⟨used.mpr inUse, same.symm ▸ isParent, same.symm ▸ asked⟩

theorem waits_of_same (same : t.threads i = m.threads i) (wait : t.waits i) : m.waits i := by
  rwa [waits, same] at wait

structure Table (m : Machine) : Prop where
  positive : 0 < m.nextPid
  pids : ∀ k, m.used k →
    0 < (m.processes k).pid ∧ (m.processes k).pid < m.nextPid
  distinct : ∀ k o, m.used k → m.used o →
    (m.processes k).pid = (m.processes o).pid → k = o
  inside : ∀ k, m.used k → k < maxProcesses

/-- Every parked thread has something to wait for, and nothing it waits for has
ended, but for the children that are just ending. -/
structure Hopeful (ending : Nat → Prop) (m : Machine) : Prop where
  owned : ∀ i, m.waits i → (m.owner i).life = .alive
  inside : ∀ i, m.waits i → i < maxThreads
  running : ∀ i, m.waits i → ∀ k, m.Awaited i k →
    (m.processes k).life = .alive ∨ ending k
  some_child : ∀ i, m.waits i → ∃ k, m.Awaited i k

/-- Two requests that one child could meet. -/
def overlap (first second : Nat) : Prop :=
  first = waitAnyPid ∨ second = waitAnyPid ∨ first = second

/-- No two parked threads of a process ask for what one child could meet. -/
def Apart (m : Machine) : Prop :=
  ∀ i o, i ≠ o → m.waits i → m.waits o →
    (m.threads i).process = (m.threads o).process →
    ¬ overlap (m.threads i).waitingFor (m.threads o).waitingFor

theorem overlap_of_asks {first second pid : Nat} (one : asksFor first pid)
    (two : asksFor second pid) : overlap first second := by
  rcases one with any | same
  · exact .inl any
  · rcases two with any | eq
    · exact .inr (.inl any)
    · exact .inr (.inr (same.symm.trans eq))

/-- The table stays right where the processes left keep their numbers. -/
theorem Table.fewer (table : m.Table) (nextPid : m.nextPid ≤ t.nextPid) (kept : ∀ k, t.used k →
      m.used k ∧ (t.processes k).pid = (m.processes k).pid) : t.Table where
  positive := lt_of_lt_of_le table.positive nextPid
  pids k inUse := by
    obtain ⟨pre, same⟩ := kept k inUse
    have bounds := table.pids k pre
    rw [same]
    exact ⟨bounds.1, lt_of_lt_of_le bounds.2 nextPid⟩
  distinct k o inUse otherUse same := by
    rw [(kept k inUse).2, (kept o otherUse).2] at same
    exact table.distinct k o (kept k inUse).1 (kept o otherUse).1 same
  inside k inUse := table.inside k (kept k inUse).1

/-! ## Reaping -/

theorem reapProcess_self :
    (m.reapProcess k).processes k =
      { Process.blank with idle := (m.processes k).idle } :=
  update_self ..

variable {o : Nat}

theorem reapProcess_other (ne : o ≠ k) : (m.reapProcess k).processes o = m.processes o :=
  update_of_ne ne ..

theorem used_reap (inUse : (m.reapProcess k).used o) : o ≠ k ∧ m.used o := by
  by_cases eq : o = k
  · subst eq
    exact absurd (congrArg Process.life reapProcess_self) inUse
  refine ⟨eq, ?_⟩
  unfold used at inUse ⊢
  rw [reapProcess_other eq] at inUse
  exact inUse

/-- Where the threads of a process stop, one that still waits is not of it. -/
theorem waits_stopped (form : t.threads i =
      if (m.threads i).state ≠ .unused ∧ (m.threads i).process = k then th else m.threads i)
    (stopped : th.state ≠ .waiting) (wait : t.waits i) :
    t.threads i = m.threads i ∧ (m.threads i).process ≠ k := by
  unfold waits at wait
  rw [form] at wait ⊢
  split at wait
  next => exact absurd wait stopped
  next stays =>
    rw [if_neg stays]
    refine ⟨rfl, fun eq => stays ⟨?_, eq⟩⟩
    rw [wait]
    decide

section

variable (wait : (m.reapProcess k).waits i)
include wait

theorem waits_reap : (m.reapProcess k).threads i = m.threads i ∧ (m.threads i).process ≠ k :=
  waits_stopped rfl State.noConfusion wait

omit wait in
theorem Table.reap (table : m.Table) : (m.reapProcess k).Table := by
  refine table.fewer le_rfl fun o inUse => ?_
  obtain ⟨ne, pre⟩ := used_reap inUse
  exact ⟨pre, by rw [reapProcess_other ne]⟩

theorem owner_reap : (m.reapProcess k).owner i = m.owner i := by
  obtain ⟨same, elsewhere⟩ := waits_reap wait
  unfold owner
  rw [same, reapProcess_other elsewhere]

/-- What is awaited after a reaping was awaited before. -/
theorem awaited_reap : (m.reapProcess k).Awaited i o ↔ o ≠ k ∧ m.Awaited i o := by
  unfold Awaited
  rw [owner_reap wait, (waits_reap wait).1]
  constructor
  · intro child
    have ne := (used_reap child.used).1
    exact ⟨ne, (Child.moved (reapProcess_other ne)).mp child⟩
  · rintro ⟨ne, child⟩
    exact (Child.moved (reapProcess_other ne)).mpr child

theorem waits_of_reap : m.waits i := waits_of_same (waits_reap wait).1 wait

end

variable {ending : Nat → Prop}

/-- A process goes that no parked thread waits for. -/
theorem Hopeful.reap (hopeful : m.Hopeful ending) (unawaited : ∀ i, m.waits i → ¬ m.Awaited i k) :
    (m.reapProcess k).Hopeful fun o => ending o ∧ o ≠ k where
  owned i wait := by
    rw [owner_reap wait]
    exact hopeful.owned i (waits_of_reap wait)
  inside i wait := hopeful.inside i (waits_of_reap wait)
  running i wait o awaited := by
    obtain ⟨ne, pre⟩ := (awaited_reap wait).mp awaited
    rw [reapProcess_other ne]
    rcases hopeful.running i (waits_of_reap wait) o pre with alive | isEnding
    · exact .inl alive
    · exact .inr ⟨isEnding, ne⟩
  some_child i wait := by
    obtain ⟨o, awaited⟩ := hopeful.some_child i (waits_of_reap wait)
    refine ⟨o, (awaited_reap wait).mpr ⟨fun eq => ?_, awaited⟩⟩
    exact unawaited i (waits_of_reap wait) (eq ▸ awaited)

theorem Apart.reap (apart : m.Apart) : (m.reapProcess k).Apart := by
  intro first second ne wait otherWaiting sameProcess
  rw [(waits_reap wait).1, (waits_reap otherWaiting).1] at sameProcess ⊢
  exact apart first second ne (waits_of_reap wait) (waits_of_reap otherWaiting)
    sameProcess

/-! ## Threads -/

theorem setThread_self : (m.setThread i th).threads i = th := update_self ..

theorem setThread_other (ne : o ≠ i) : (m.setThread i th).threads o = m.threads o :=
  update_of_ne ne ..

/-- A thread that waits after another was set was waiting before. -/
theorem waits_setThread (stopped : th.state ≠ .waiting) (wait : (m.setThread i th).waits o) :
    o ≠ i ∧ (m.setThread i th).threads o = m.threads o := by
  by_cases eq : o = i
  · subst eq
    unfold waits at wait
    rw [setThread_self] at wait
    exact absurd wait stopped
  · exact ⟨eq, setThread_other eq⟩

theorem waits_of_setThread (stopped : th.state ≠ .waiting)
    (wait : (m.setThread i th).waits o) : m.waits o :=
  waits_of_same (waits_setThread stopped wait).2 wait

/-- Two machines whose tables hold the same processes. -/
def Agree (t m : Machine) : Prop :=
  ∀ k, t.used k ∨ m.used k → t.processes k = m.processes k

theorem Agree.used (agree : Agree t m) : t.used k ↔ m.used k := by
  constructor
  · intro inUse
    have same := agree k (.inl inUse)
    unfold Machine.used at inUse ⊢
    rw [← same]
    exact inUse
  · intro inUse
    have same := agree k (.inr inUse)
    unfold Machine.used at inUse ⊢
    rw [same]
    exact inUse

theorem Agree.of_eq (same : t.processes = m.processes) : Agree t m := fun k _ => congrFun same k

/-- A process in some state of life is in the table. -/
theorem used_of_life {life : Life} (here : (m.processes k).life = life)
    (some_life : life ≠ .unused) : m.used k :=
  fun unused => some_life (here.symm.trans unused)

theorem Agree.awaited (agree : Agree t m) (owned : (m.owner i).life = .alive)
    (threads : t.threads i = m.threads i) : t.Awaited i k ↔ m.Awaited i k := by
  have owner : t.owner i = m.owner i := by
    unfold owner
    rw [threads]
    exact agree _ (.inr (used_of_life owned (by decide)))
  unfold Awaited
  rw [owner, threads]
  constructor
  · exact fun child => (Child.moved (agree k (.inl child.used))).mp child
  · exact fun child => (Child.moved (agree k (.inr child.used))).mpr child

/-- The parked threads of a machine are among those of another that has the same
processes. -/
theorem Hopeful.fewer (hopeful : m.Hopeful ending) (agree : Agree t m)
    (threads : ∀ i, t.waits i → t.threads i = m.threads i) : t.Hopeful ending := by
  have pre : ∀ i, t.waits i → m.waits i := fun i wait => waits_of_same (threads i wait) wait
  have awaited : ∀ i (wait : t.waits i) k, t.Awaited i k ↔ m.Awaited i k := by
    intro i wait k
    have old := pre i wait
    exact agree.awaited (hopeful.owned i old) (threads i wait)
  constructor
  · intro i wait
    have owned := hopeful.owned i (pre i wait)
    unfold owner at owned ⊢
    rw [threads i wait, agree _ (.inr (used_of_life owned (by decide)))]
    exact owned
  · exact fun i wait => hopeful.inside i (pre i wait)
  · intro i wait k isAwaited
    rw [agree k (.inl isAwaited.used)]
    exact hopeful.running i (pre i wait) k
      ((awaited i wait k).mp isAwaited)
  · intro i wait
    obtain ⟨k, isAwaited⟩ := hopeful.some_child i (pre i wait)
    exact ⟨k, (awaited i wait k).mpr isAwaited⟩

theorem Hopeful.mono {fewer : Nat → Prop} (hopeful : m.Hopeful ending)
    (less : ∀ i, m.waits i → ∀ k, m.Awaited i k → ending k → fewer k) : m.Hopeful fewer :=
  { hopeful with
    running := fun i wait k awaited =>
      (hopeful.running i wait k awaited).imp_right (less i wait k awaited) }

theorem Apart.fewer (apart : m.Apart)
    (threads : ∀ i, t.waits i → t.threads i = m.threads i) : t.Apart := by
  intro first second ne wait otherWaiting sameProcess
  have one := threads first wait
  have two := threads second otherWaiting
  unfold waits at wait otherWaiting
  rw [one] at wait sameProcess ⊢
  rw [two] at otherWaiting sameProcess ⊢
  exact apart first second ne wait otherWaiting sameProcess

theorem Table.same (table : m.Table) (agree : Agree t m)
    (nextPid : m.nextPid ≤ t.nextPid) : t.Table :=
  table.fewer nextPid fun k inUse => ⟨agree.used.mp inUse, by rw [agree k (.inl inUse)]⟩

/-! ## The books -/

/-- Where the process goes is in order: a reported child was one of the asking
process and of its request, an unreported one had lost its maker. -/
def Rightful (m : Machine) (out : Outcome) : Prop :=
  match out.fate with
  | .reported parent waiter req res =>
    waiter = parent ∧ asksFor req out.child ∧ res = out.child
  | .unreported bornOf => bornOf ∈ m.ended.map Prod.fst

structure Books (m : Machine) : Prop where
  once : (m.ended.map Prod.fst).Nodup
  bounded : ∀ e ∈ m.ended, e.1 < m.nextPid
  living : ∀ k, (m.processes k).life = .alive →
    (m.processes k).pid ∉ m.ended.map Prod.fst
  zombies : ∀ k, (m.processes k).life = .zombie →
    ((m.processes k).pid, (m.processes k).exitCode) ∈ m.ended
  pending : ∀ k, (m.processes k).life = .zombie →
    (m.processes k).pid ∉ m.outcomes.map Outcome.child
  born : ∀ k, m.used k →
    (m.processes k).orphaned = true →
    (m.processes k).bornOf ∈ m.ended.map Prod.fst
  kept : ∀ k, m.used k → (m.processes k).orphaned = false →
    (m.processes k).parentPid = (m.processes k).bornOf
  noted : ∀ out ∈ m.outcomes, (out.child, out.code) ∈ m.ended ∧
    m.Rightful out
  settled : (m.outcomes.map Outcome.child).Nodup
  accounted : ∀ e ∈ m.ended,
    (∃ k, (m.processes k).life = .zombie ∧ (m.processes k).pid = e.1 ∧
      (m.processes k).exitCode = e.2) ∨
    e.1 ∈ m.outcomes.map Outcome.child

theorem Rightful.mono {out : Outcome} (rightful : m.Rightful out)
    (ended : ∀ pid, pid ∈ m.ended.map Prod.fst → pid ∈ t.ended.map Prod.fst) : t.Rightful out := by
  unfold Rightful at rightful ⊢
  split
  next parent waiter req res fate =>
    rw [fate] at rightful
    exact rightful
  next bornOf fate =>
    rw [fate] at rightful
    exact ended bornOf rightful

theorem Books.same (books : m.Books) (agree : Agree t m)
    (ended : t.ended = m.ended) (outcomes : t.outcomes = m.outcomes)
    (nextPid : m.nextPid ≤ t.nextPid) : t.Books where
  once := ended ▸ books.once
  bounded e mem := lt_of_lt_of_le (books.bounded e (ended ▸ mem)) nextPid
  living k alive := by
    have same := agree k (.inl (used_of_life alive (by decide)))
    rw [same] at alive ⊢
    rw [ended]
    exact books.living k alive
  zombies k zombie := by
    have same := agree k (.inl (used_of_life zombie (by decide)))
    rw [same] at zombie ⊢
    rw [ended]
    exact books.zombies k zombie
  pending k zombie := by
    have same := agree k (.inl (used_of_life zombie (by decide)))
    rw [same] at zombie ⊢
    rw [outcomes]
    exact books.pending k zombie
  born k inUse := by
    rw [agree k (.inl inUse), ended]
    exact books.born k (agree.used.mp inUse)
  kept k inUse := by
    rw [agree k (.inl inUse)]
    exact books.kept k (agree.used.mp inUse)
  noted out mem := by
    obtain ⟨isEnded, rightful⟩ := books.noted out (outcomes ▸ mem)
    exact ⟨ended ▸ isEnded, rightful.mono fun _ here => ended ▸ here⟩
  settled := outcomes ▸ books.settled
  accounted e mem := by
    rw [outcomes]
    rcases books.accounted e (ended ▸ mem) with ⟨k, zombie, pid, code⟩ | gone
    · refine .inl ⟨k, ?_⟩
      rw [agree k (.inr (used_of_life zombie (by decide)))]
      exact ⟨zombie, pid, code⟩
    · exact .inr gone

/-- A process that ended leaves the table with a note of where it goes. -/
theorem Books.leave (books : m.Books) (table : m.Table)
    (zombie : (m.processes k).life = .zombie) {fate : Fate}
    (rightful : m.Rightful
      { child := (m.processes k).pid, code := (m.processes k).exitCode, fate := fate }) :
    ((m.note k fate).reapProcess k).Books where
  once := books.once
  bounded := books.bounded
  living o alive := by
    have ne := (used_reap (used_of_life alive (by decide))).1
    rw [reapProcess_other ne] at alive ⊢
    exact books.living o alive
  zombies o isZombie := by
    have ne := (used_reap (used_of_life isZombie (by decide))).1
    rw [reapProcess_other ne] at isZombie ⊢
    exact books.zombies o isZombie
  pending o isZombie := by
    have ne := (used_reap (used_of_life isZombie (by decide))).1
    rw [reapProcess_other ne] at isZombie ⊢
    change (m.processes o).pid ∉ (m.outcomes ++ [_]).map Outcome.child
    change (m.processes o).life = .zombie at isZombie
    rw [map_append, mem_append, not_or]
    refine ⟨books.pending o isZombie, fun last => ne ?_⟩
    rw [map_singleton, mem_singleton] at last
    exact table.distinct o k (used_of_life isZombie (by decide))
      (used_of_life zombie (by decide)) last
  born o inUse := by
    obtain ⟨ne, pre⟩ := used_reap inUse
    rw [reapProcess_other ne]
    exact books.born o pre
  kept o inUse := by
    obtain ⟨ne, pre⟩ := used_reap inUse
    rw [reapProcess_other ne]
    exact books.kept o pre
  noted := forall_mem_append.mpr
    ⟨books.noted, forall_mem_singleton.mpr ⟨books.zombies k zombie, rightful⟩⟩
  settled := by
    change ((m.outcomes ++ [_]).map Outcome.child).Nodup
    rw [map_append, map_singleton, ← concat_eq_append]
    exact books.settled.concat (books.pending k zombie)
  accounted e mem := by
    change _ ∨ e.1 ∈ (m.outcomes ++ [_]).map Outcome.child
    rw [map_append, mem_append]
    rcases books.accounted e mem with ⟨o, isZombie, pid, code⟩ | gone
    · by_cases eq : o = k
      · subst eq
        exact .inr (.inr (by rw [← pid]; exact mem_singleton_self _))
      · refine .inl ⟨o, ?_⟩
        rw [reapProcess_other eq]
        exact ⟨isZombie, pid, code⟩
    · exact .inr (.inl gone)

theorem bury_self : (m.bury k).processes k =
    { m.processes k with life := .zombie } := update_self ..

theorem bury_other (ne : o ≠ k) : (m.bury k).processes o = m.processes o := update_of_ne ne ..

theorem mem_ended_bury {pid : Nat} (mem : pid ∈ m.ended.map Prod.fst) :
    pid ∈ (m.bury k).ended.map Prod.fst := by
  change pid ∈ (m.ended ++ [_]).map Prod.fst
  rw [map_append]
  exact mem_append_left _ mem

theorem used_bury (alive : (m.processes k).life = .alive) : (m.bury k).used o ↔ m.used o := by
  unfold used
  by_cases eq : o = k
  · subst eq
    rw [bury_self, alive]
    exact ⟨fun _ => Life.noConfusion, fun _ => Life.noConfusion⟩
  · rw [bury_other eq]

/-- Only the life of the process changes. -/
theorem kept_bury {α : Type} {f : Process → α}
    (same : f { m.processes k with life := .zombie } = f (m.processes k)) :
    f ((m.bury k).processes o) = f (m.processes o) :=
  update_keeps f same o

theorem pid_bury : ((m.bury k).processes o).pid = (m.processes o).pid := kept_bury rfl

theorem parentPid_bury : ((m.bury k).processes o).parentPid = (m.processes o).parentPid :=
  kept_bury rfl

theorem Table.bury (table : m.Table) (alive : (m.processes k).life = .alive) : (m.bury k).Table :=
  table.fewer le_rfl fun _ inUse => ⟨(used_bury alive).mp inUse, pid_bury⟩

section

variable (wait : (m.bury k).waits i)
include wait

theorem waits_bury : (m.bury k).threads i = m.threads i ∧ (m.threads i).process ≠ k :=
  waits_stopped rfl State.noConfusion wait

theorem waits_of_bury : m.waits i := waits_of_same (waits_bury wait).1 wait

theorem owner_bury : (m.bury k).owner i = m.owner i := by
  obtain ⟨same, elsewhere⟩ := waits_bury wait
  unfold owner
  rw [same, bury_other elsewhere]

end

section

variable (alive : (m.processes k).life = .alive)
include alive

theorem awaited_bury (wait : (m.bury k).waits i) : (m.bury k).Awaited i o ↔ m.Awaited i o := by
  have same := (waits_bury wait).1
  unfold Awaited
  rw [owner_bury wait, same]
  constructor
  · rintro ⟨inUse, parent, asked⟩
    rw [parentPid_bury] at parent
    rw [pid_bury] at asked
    exact ⟨(used_bury alive).mp inUse, parent, asked⟩
  · rintro ⟨inUse, parent, asked⟩
    exact ⟨(used_bury alive).mpr inUse, parentPid_bury.trans parent, pid_bury.symm ▸ asked⟩

/-- After a process ended, only that process may be awaited in vain. -/
theorem Hopeful.bury (hopeful : m.Hopeful fun _ => False) :
    (m.bury k).Hopeful fun o => o = k where
  owned i wait := by
    rw [owner_bury wait]
    exact hopeful.owned i (waits_of_bury wait)
  inside i wait := hopeful.inside i (waits_of_bury wait)
  running i wait o awaited := by
    have pre := (awaited_bury alive wait).mp awaited
    by_cases eq : o = k
    · exact .inr eq
    · rw [bury_other eq]
      exact .inl ((hopeful.running i (waits_of_bury wait) o pre).resolve_right id)
  some_child i wait := by
    obtain ⟨o, awaited⟩ := hopeful.some_child i (waits_of_bury wait)
    exact ⟨o, (awaited_bury alive wait).mpr awaited⟩

theorem Books.bury (books : m.Books) (table : m.Table) : (m.bury k).Books where
  once := by
    change ((m.ended ++ [_]).map Prod.fst).Nodup
    rw [map_append, map_singleton, ← concat_eq_append]
    exact books.once.concat (books.living k alive)
  bounded := forall_mem_append.mpr
    ⟨books.bounded, forall_mem_singleton.mpr (table.pids k (used_of_life alive (by decide))).2⟩
  living o isAlive := by
    have ne : o ≠ k := by
      intro eq
      subst eq
      rw [bury_self] at isAlive
      cases isAlive
    rw [bury_other ne] at isAlive ⊢
    change (m.processes o).pid ∉ (m.ended ++ [_]).map Prod.fst
    rw [map_append, mem_append, not_or]
    refine ⟨books.living o isAlive, fun last => ne ?_⟩
    rw [map_singleton, mem_singleton] at last
    exact table.distinct o k (used_of_life isAlive (by decide))
      (used_of_life alive (by decide)) last
  zombies o isZombie := by
    by_cases eq : o = k
    · subst eq
      rw [bury_self]
      exact mem_append_right _ (mem_singleton_self _)
    · rw [bury_other eq] at isZombie ⊢
      exact mem_append_left _ (books.zombies o isZombie)
  pending o isZombie := by
    rw [pid_bury]
    by_cases eq : o = k
    · subst eq
      intro closed
      obtain ⟨out, mem, same⟩ := mem_map.mp closed
      refine books.living o alive (mem_map.mpr ⟨_, (books.noted out mem).1, ?_⟩)
      exact same
    · rw [bury_other eq] at isZombie
      exact books.pending o isZombie
  born o inUse orphaned := by
    have pre := books.born o ((used_bury alive).mp inUse) ((kept_bury rfl).symm.trans orphaned)
    rw [@kept_bury m k o _ Process.bornOf rfl]
    exact mem_ended_bury pre
  kept o inUse owned := by
    have pre := books.kept o ((used_bury alive).mp inUse) ((kept_bury rfl).symm.trans owned)
    exact parentPid_bury.trans (pre.trans (kept_bury rfl).symm)
  noted out mem := by
    obtain ⟨isEnded, rightful⟩ := books.noted out mem
    exact ⟨mem_append_left _ isEnded, rightful.mono fun _ => mem_ended_bury⟩
  settled := books.settled
  accounted e mem := by
    rcases mem_append.mp mem with pre | last
    · rcases books.accounted e pre with ⟨o, isZombie, pid, code⟩ | gone
      · refine .inl ⟨o, ?_⟩
        have ne : o ≠ k := by
          intro eq
          subst eq
          rw [alive] at isZombie
          cases isZombie
        rw [bury_other ne]
        exact ⟨isZombie, pid, code⟩
      · exact .inr gone
    · rw [mem_singleton] at last
      subst last
      refine .inl ⟨k, ?_⟩
      rw [bury_self]
      exact ⟨rfl, rfl, rfl⟩

end

/-! ## Changes of a live process -/

theorem setProcess_self : (m.setProcess k p).processes k = p := update_self ..

theorem setProcess_other (ne : o ≠ k) : (m.setProcess k p).processes o = m.processes o :=
  update_of_ne ne ..

/-- A live process before and after a change that leaves its number and maker. -/
structure Amends (p pre : Process) : Prop where
  alive : pre.life = .alive
  life : p.life = .alive
  pid : p.pid = pre.pid
  bornOf : p.bornOf = pre.bornOf

section

variable (amends : Amends p (m.processes k))
include amends

theorem life_setProcess : ((m.setProcess k p).processes o).life = (m.processes o).life :=
  update_keeps _ (amends.life.trans amends.alive.symm) o

theorem used_setProcess : (m.setProcess k p).used o ↔ m.used o := by
  unfold used
  rw [life_setProcess amends]

theorem pid_setProcess : ((m.setProcess k p).processes o).pid = (m.processes o).pid :=
  update_keeps _ amends.pid o

theorem Table.amend (table : m.Table) : (m.setProcess k p).Table :=
  table.fewer le_rfl fun _ inUse => ⟨(used_setProcess amends).mp inUse, pid_setProcess amends⟩

/-- A live process keeps its parent, or was awaited by nobody. -/
theorem Hopeful.amend (hopeful : m.Hopeful fun _ => False)
    (parent : ∀ i, m.waits i → m.Awaited i k → p.parentPid = (m.processes k).parentPid) :
    (m.setProcess k p).Hopeful fun _ => False where
  owned i wait := by
    unfold owner
    rw [life_setProcess amends]
    exact hopeful.owned i wait
  inside i wait := hopeful.inside i wait
  running i wait o awaited := by
    rw [life_setProcess amends]
    by_cases eq : o = k
    · subst eq
      exact .inl amends.alive
    refine hopeful.running i wait o ⟨(used_setProcess amends).mp awaited.used, ?_, ?_⟩
    · have pre := awaited.parent
      unfold owner at pre ⊢
      rw [pid_setProcess amends, setProcess_other eq] at pre
      exact pre
    · have pre := awaited.asked
      rw [pid_setProcess amends] at pre
      exact pre
  some_child i wait := by
    obtain ⟨o, awaited⟩ := hopeful.some_child i wait
    refine ⟨o, (used_setProcess amends).mpr awaited.used, ?_, ?_⟩
    · have pre := awaited.parent
      unfold owner at pre ⊢
      rw [pid_setProcess amends]
      by_cases eq : o = k
      · subst eq
        rw [setProcess_self, parent i wait awaited]
        exact pre
      · rw [setProcess_other eq]
        exact pre
    · rw [pid_setProcess amends]
      exact awaited.asked

omit amends in
/-- The books stay right where a slot that held no zombie gets a live process. -/
theorem Books.setProcess (books : m.Books) (was : (m.processes k).life ≠ .zombie)
    (life : p.life = .alive) (running : p.pid ∉ m.ended.map Prod.fst)
    (orphaned : p.orphaned = true → p.bornOf ∈ m.ended.map Prod.fst)
    (kept : p.orphaned = false → p.parentPid = p.bornOf) : (m.setProcess k p).Books := by
  have each (property : Process → Prop) (here : property p)
      (there : ∀ o, property (m.processes o)) (o : Nat) :
        property ((m.setProcess k p).processes o) :=
    (forall_update_iff m.processes fun _ => property).mpr ⟨here, fun o _ => there o⟩ o
  have noZombie : p.life ≠ .zombie := by
    rw [life]
    decide
  exact { books with
    living := each (fun p => p.life = .alive → p.pid ∉ _) (fun _ => running) books.living
    zombies := each (fun p => p.life = .zombie → (p.pid, p.exitCode) ∈ _)
      (fun bad => absurd bad noZombie) books.zombies
    pending := each (fun p => p.life = .zombie → p.pid ∉ _)
      (fun bad => absurd bad noZombie) books.pending
    born := each (fun p => p.life ≠ .unused → p.orphaned = true → p.bornOf ∈ _)
      (fun _ => orphaned) books.born
    kept := each (fun p => p.life ≠ .unused → p.orphaned = false → p.parentPid = p.bornOf)
      (fun _ => kept) books.kept
    accounted := by
      intro e mem
      rcases books.accounted e mem with ⟨o, isZombie, pid, code⟩ | gone
      · refine .inl ⟨o, ?_⟩
        rw [setProcess_other fun eq : o = k => was (eq ▸ isZombie)]
        exact ⟨isZombie, pid, code⟩
      · exact .inr gone }

theorem Books.amend (books : m.Books)
    (orphaned : p.orphaned = true → p.bornOf ∈ m.ended.map Prod.fst)
    (kept : p.orphaned = false → p.parentPid = p.bornOf) : (m.setProcess k p).Books := by
  have running := books.living k amends.alive
  rw [← amends.pid] at running
  exact books.setProcess (by rw [amends.alive]; decide) amends.life running orphaned kept

end

/-! ## Births -/

/-- A process as it is made. -/
def newborn (m : Machine) (parent : Nat) : Process :=
  { Process.blank with
    life := .alive, pid := m.nextPid, parentPid := parent, bornOf := parent }

theorem Table.create (table : m.Table) (room : k < maxProcesses) (parent : Nat)
    (nextPid : t.nextPid = m.nextPid + 1) (processes : t.processes =
      (m.setProcess k (m.newborn parent)).processes) : t.Table := by
  have old : ∀ o, t.used o → o ≠ k → t.processes o = m.processes o ∧ m.used o := by
    intro o inUse ne
    have same : t.processes o = m.processes o := by
      rw [processes, setProcess_other ne]
    unfold used at inUse ⊢
    rw [same] at inUse
    exact ⟨same, inUse⟩
  have new : t.processes k = m.newborn parent := by rw [processes, setProcess_self]
  constructor
  · rw [nextPid]
    exact Nat.succ_pos _
  · intro o inUse
    rw [nextPid]
    by_cases eq : o = k
    · subst eq
      rw [new]
      exact ⟨table.positive, Nat.lt_succ_self _⟩
    · obtain ⟨same, pre⟩ := old o inUse eq
      rw [same]
      have bounds := table.pids o pre
      exact ⟨bounds.1, Nat.lt_succ_of_lt bounds.2⟩
  · intro first second inUse otherUse same
    by_cases isFirst : first = k
    · by_cases isSecond : second = k
      · exact isFirst.trans isSecond.symm
      · obtain ⟨eq, pre⟩ := old second otherUse isSecond
        rw [isFirst, new, eq] at same
        exact absurd same.symm (Nat.ne_of_lt (table.pids second pre).2)
    · obtain ⟨eq, pre⟩ := old first inUse isFirst
      by_cases isSecond : second = k
      · rw [isSecond, new, eq] at same
        exact absurd same (Nat.ne_of_lt (table.pids first pre).2)
      · obtain ⟨otherEqual, otherBefore⟩ := old second otherUse isSecond
        rw [eq, otherEqual] at same
        exact table.distinct first second pre otherBefore same
  · intro o inUse
    by_cases eq : o = k
    · exact eq ▸ room
    · exact table.inside o (old o inUse eq).2

/-- A new process takes nothing from those who wait. -/
theorem Hopeful.create (hopeful : m.Hopeful fun _ => False) (free : ¬ m.used k)
    (parent : Nat) : (m.setProcess k (m.newborn parent)).Hopeful fun _ => False := by
  have elsewhere : ∀ o, m.used o → o ≠ k := fun o inUse eq => free (eq ▸ inUse)
  have owner : ∀ i, m.waits i → (m.setProcess k (m.newborn parent)).owner i = m.owner i := by
    intro i wait
    unfold owner
    exact setProcess_other (elsewhere _ (used_of_life (hopeful.owned i wait) (by decide)))
  constructor
  · intro i wait
    rw [owner i wait]
    exact hopeful.owned i wait
  · exact hopeful.inside
  · intro i wait o awaited
    by_cases eq : o = k
    · subst eq
      rw [setProcess_self]
      exact .inl rfl
    · rw [Awaited, owner i wait] at awaited
      rw [setProcess_other eq]
      exact hopeful.running i wait o ((Child.moved (setProcess_other eq)).mp awaited)
  · intro i wait
    obtain ⟨o, awaited⟩ := hopeful.some_child i wait
    refine ⟨o, ?_⟩
    rw [Awaited, owner i wait]
    exact (Child.moved (setProcess_other (elsewhere o awaited.used))).mpr awaited

theorem Books.create (books : m.Books) (free : ¬ m.used k) (parent : Nat) :
    (m.setProcess k (m.newborn parent)).Books := by
  refine books.setProcess (fun zombie => free (used_of_life zombie (by decide))) rfl ?_
    Bool.noConfusion fun _ => rfl
  intro mem
  obtain ⟨e, isEnded, same⟩ := mem_map.mp mem
  have bound := books.bounded e isEnded
  rw [same] at bound
  exact absurd bound (lt_irrefl _)

end Machine

end SavanXP.Children
