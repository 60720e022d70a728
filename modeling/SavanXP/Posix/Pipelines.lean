import Mathlib

/-!
# Descriptors of a pipeline

The shell opens a pipe between neighbouring stages and the files that a stage is
redirected to, starts the stage and closes what it opened.  The same descriptor
may go by two names, and each exit has its own list of descriptors to close.
-/

namespace SavanXP.Shell

open List

/-- What the shell asks for at a stage, each at most once. -/
inductive Question where
  | pipe | input | output | error | resolve | spawn
  deriving DecidableEq

/-- The answers at each stage, and the descriptor that is next with some in use. -/
structure Kernel where
  granted : Nat → Question → Bool
  number : List Nat → Nat
  above (inUse : List Nat) : 2 < number inUse
  unused (inUse : List Nat) : number inUse ∉ inUse

/-- The redirections of a stage. -/
structure Stage where
  inputPath : Bool
  stdoutPath : Bool
  stderrPath : Bool
  stderrToStdout : Bool

/-- The descriptors that the pipeline has open, and whether one was closed twice. -/
structure Descriptors where
  inUse : List Nat
  twice : Bool

def Descriptors.close (d : Descriptors) (fd : Nat) : Descriptors :=
  if fd ∈ d.inUse then { d with inUse := d.inUse.erase fd } else { d with twice := true }

def Descriptors.closeAll (d : Descriptors) (fds : List Nat) : Descriptors := fds.foldl .close d

/-- The standard streams are not closed. -/
def own (fd : Nat) : List Nat := if 2 < fd then [fd] else []

/-- The variables of a stage: the ends of its pipe and its three descriptors. -/
structure Ends where
  previous : Option Nat
  pipe : Option (Nat × Nat)
  input : Nat
  output : Nat
  error : Nat

def Ends.pipeEnds (e : Ends) : List Nat :=
  (e.pipe.map fun (first, second) => [first, second]).getD []

def Ends.ownInput (e : Ends) : List Nat := if some e.input ≠ e.previous then own e.input else []

def Ends.ownError (e : Ends) : List Nat := if e.error ≠ e.output then own e.error else []

variable (k : Kernel) (i : Nat) (st : Stage)

def Descriptors.opened (d : Descriptors) : Descriptors :=
  { d with inUse := k.number d.inUse :: d.inUse }

/-- A stage is left early, or goes on to the next with the end of a pipe. -/
abbrev Outcome := Option (Option Nat) × Descriptors

def start (e : Ends) (d : Descriptors) : Outcome :=
  if k.granted i .resolve ∧ k.granted i .spawn then
    (some (e.pipe.map Prod.fst),
      d.closeAll (e.previous.toList ++ own e.input ++ own e.output ++ e.ownError))
  else (none,
    d.closeAll (e.ownInput ++ own e.output ++ e.ownError ++ e.pipeEnds ++ e.previous.toList))

def openError (e : Ends) (d : Descriptors) : Outcome :=
  let started (error : Nat) (d : Descriptors) :=
    start k i { e with error := if st.stderrToStdout then e.output else error } d
  if st.stderrPath then
    if k.granted i .error then started (k.number d.inUse) (d.opened k)
    else (none, d.closeAll (e.ownInput ++ own e.output ++ e.pipeEnds ++ e.previous.toList))
  else started 2 d

def openOutput (e : Ends) (d : Descriptors) : Outcome :=
  if st.stdoutPath then
    if k.granted i .output then
      openError k i st { e with output := k.number d.inUse } (d.opened k)
    else (none, d.closeAll (e.ownInput ++ e.pipeEnds ++ e.previous.toList))
  else openError k i st { e with output := (e.pipe.map Prod.snd).getD 1 } d

def openInput (pipe : Option (Nat × Nat)) (previous : Option Nat) (d : Descriptors) : Outcome :=
  if st.inputPath then
    let d := d.closeAll previous.toList
    let e : Ends := ⟨none, pipe, 0, 1, 2⟩
    if k.granted i .input then
      openOutput k i st { e with input := k.number d.inUse } (d.opened k)
    else (none, d.closeAll e.pipeEnds)
  else openOutput k i st ⟨previous, pipe, previous.getD 0, 1, 2⟩ d

def stage (isLast : Bool) (previous : Option Nat) (d : Descriptors) : Outcome :=
  if isLast then openInput k i st none previous d
  else if k.granted i .pipe then
    openInput k i st (some (k.number d.inUse, k.number (d.opened k).inUse)) previous
      ((d.opened k).opened k)
  else (none, d.closeAll previous.toList)

/-- The descriptors when the shell begins to wait for its children, at whichever exit. -/
def executeFrom (k : Kernel) : Nat → List Stage → Option Nat → Descriptors → Descriptors
  | _, [], previous, d => d.closeAll previous.toList
  | i, st :: rest, previous, d =>
    match stage k i st rest.isEmpty previous d with
    | (none, d) => d
    | (some previous, d) => executeFrom k (i + 1) rest previous d

def shellExecutePipelineStdio (stages : List Stage) : Descriptors :=
  executeFrom k 0 stages none ⟨[], false⟩

/-- The errors of a stage are not redirected twice. -/
def Stage.Plain (st : Stage) : Prop := ¬ (st.stderrPath = true ∧ st.stderrToStdout = true)

/-- The program of a stage is found and starts. -/
def Starts (k : Kernel) (i : Nat) : Prop :=
  k.granted i .resolve = true ∧ k.granted i .spawn = true

/-- The stage is left at an exit that closes what is open.  The exits behind the opening of the
output do so only where that is not the end of the pipe, which they close under both its names. -/
def Stops (k : Kernel) (i : Nat) (st : Stage) (isLast : Bool) : Prop :=
  isLast = false ∧ k.granted i .pipe = false ∨
  st.inputPath = true ∧ k.granted i .input = false ∨
  st.stdoutPath = true ∧ k.granted i .output = false ∨
  (isLast = true ∨ st.stdoutPath = true) ∧
    (st.stderrPath = true ∧ k.granted i .error = false ∨ st.Plain ∧ ¬ Starts k i)

/-- The stage starts, does not read from the pipe before it, and writes to the one behind it. -/
structure Passes (k : Kernel) (i : Nat) (st : Stage) (piped isLast : Bool) : Prop where
  plain : st.Plain
  starts : Starts k i
  opens : st.stderrPath = true → k.granted i .error = true
  reads : piped = true → st.inputPath = true
  writes : isLast = true ∨ st.stdoutPath = false

/-- Every stage passes, up to one that stops. -/
def Careful (k : Kernel) : Bool → Nat → List Stage → Prop
  | _, _, [] => True
  | piped, i, st :: rest => Stops k i st rest.isEmpty ∨
    Passes k i st piped rest.isEmpty ∧ Careful k true (i + 1) rest

variable {k i st} {d : Descriptors} {fd : Nat} {fds : List Nat}

/-! ## Closing -/

theorem closeAll_perm {rest : List Nat} (all : d.inUse ~ fds ++ rest) :
    ∃ inUse, d.closeAll fds = ⟨inUse, d.twice⟩ ∧ inUse ~ rest := by
  induction fds generalizing d with
  | nil => exact ⟨d.inUse, rfl, all⟩
  | cons fd fds ih =>
    have member : fd ∈ d.inUse := all.mem_iff.mpr mem_cons_self
    have closed : d.close fd = ⟨d.inUse.erase fd, d.twice⟩ := if_pos member
    have fewer : d.inUse.erase fd ~ fds ++ rest := by
      have erased := all.erase fd
      rwa [cons_append, erase_cons_head] at erased
    have t := @ih ⟨d.inUse.erase fd, d.twice⟩ fewer
    rw [Descriptors.closeAll, foldl_cons, closed]
    exact t

/-- Only open descriptors can be closed once each. -/
theorem closeAll_once (once : (d.closeAll fds).twice = false) :
    d.twice = false ∧ fds <+~ d.inUse := by
  induction fds generalizing d with
  | nil => exact ⟨once, nil_subperm⟩
  | cons fd fds ih =>
    obtain ⟨onceFirst, rest⟩ := ih once
    unfold Descriptors.close at onceFirst rest
    split at onceFirst
    · next member =>
      rw [if_pos member] at rest
      exact ⟨onceFirst, ((subperm_cons fd).mpr rest).trans (perm_cons_erase member).symm.subperm⟩
    · cases onceFirst

/-- A descriptor is lost when it is open and nothing names it any more; `0` stands for one that
was closed twice. -/
def Lost (fd : Nat) (d : Descriptors) : Prop := fd ∈ d.inUse ∨ fd = 0 ∧ d.twice = true

theorem closeAll_lost (lost : Lost fd d) (unnamed : fd ∉ fds) : Lost fd (d.closeAll fds) := by
  induction fds generalizing d with
  | nil => exact lost
  | cons first fds ih =>
    rw [mem_cons, not_or] at unnamed
    refine ih ?_ unnamed.2
    unfold Descriptors.close
    split
    · exact lost.imp_left (mem_erase_of_ne unnamed.1).mpr
    · exact lost.imp_right fun zero => ⟨zero.1, rfl⟩

theorem opened_lost (lost : Lost fd d) : Lost fd (d.opened k) := lost.imp_left (mem_cons_of_mem _)

theorem Lost.ne_number (lost : Lost fd d) : fd ≠ k.number d.inUse := by
  rintro rfl
  rcases lost with member | ⟨zero, _⟩
  · exact k.unused _ member
  · have := k.above d.inUse
    omega

theorem not_mem_own {other : Nat} (ne : fd ≠ other) : fd ∉ own other := by
  unfold own
  split
  · rwa [mem_singleton]
  · exact not_mem_nil

/-! ## What a stage ends with -/

structure Closed (other : Outcome) : Prop where
  left : other.1 = none
  once : other.2.twice = false
  none : other.2.inUse = []

/-- Nothing is open but the end of the pipe that is left to the next stage. -/
inductive Passed (isLast : Bool) : Outcome → Prop
  | next {d : Descriptors} {previous : Option Nat} (once : d.twice = false)
      (all : d.inUse ~ previous.toList)
      (above : ∀ fd ∈ previous, 2 < fd) (piped : previous.isSome = !isLast) :
      Passed isLast (some previous, d)

def Loses (fd : Nat) (other : Outcome) : Prop := Lost fd other.2 ∧ other.1 ≠ some (some fd)

def Spoilt (other : Outcome) : Prop := ∃ fd, Loses fd other

inductive Result (stops passes : Prop) (isLast : Bool) (other : Outcome) : Prop
  | closed (is : stops) (closed : Closed other)
  | passed (goes : ¬ stops) (is : passes) (passed : Passed isLast other)
  | spoilt (goes : ¬ stops) (fails : ¬ passes) (spoilt : Spoilt other)

theorem Result.congr {stops passes stops' passes' : Prop} {isLast : Bool} {other : Outcome}
    (res : Result stops passes isLast other) (sameStops : stops' ↔ stops)
    (samePasses : ¬ stops → (passes' ↔ passes)) : Result stops' passes' isLast other := by
  cases res with
  | closed is closed => exact .closed (sameStops.mpr is) closed
  | passed goes is passed =>
    exact .passed (mt sameStops.mp goes) ((samePasses goes).mpr is) passed
  | spoilt goes fails spoilt =>
    exact .spoilt (mt sameStops.mp goes) (mt (samePasses goes).mp fails) spoilt

theorem closed_of_perm (once : d.twice = false) (all : d.inUse ~ fds) :
    Closed (none, d.closeAll fds) := by
  obtain ⟨inUse, closed, none⟩ := @closeAll_perm d fds [] (by rwa [append_nil])
  rw [closed, none.eq_nil]
  exact ⟨rfl, once, rfl⟩

/-- Closing more than is open closes something twice. -/
theorem spoilt_of_repeated {previous : Option (Option Nat)} (distinct : d.inUse.Nodup)
    (repeated : ¬ fds.Nodup) (above : previous ≠ some (some 0)) :
    Spoilt (previous, d.closeAll fds) := by
  refine ⟨0, .inr ⟨rfl, ?_⟩, above⟩
  by_contra once
  obtain ⟨closed, same, open_⟩ := (closeAll_once (Bool.not_eq_true _ |>.mp once)).2
  exact repeated (same.nodup (distinct.sublist open_))

/-- The descriptors of a stage and what they are open for.  With `direct` the output is the end
of the pipe. -/
structure Ledger (e : Ends) (d : Descriptors) (direct : Bool) : Prop where
  once : d.twice = false
  distinct : d.inUse.Nodup
  above : ∀ fd ∈ d.inUse, 2 < fd
  reads : e.previous = none ∨ e.previous = some e.input
  writes : direct = true → e.pipe.map Prod.snd = some e.output
  all : d.inUse ~ e.ownInput ++ (if direct then [] else own e.output) ++ e.ownError ++
    e.pipeEnds ++ e.previous.toList

/-! ## A lost descriptor stays lost -/

/-- All that a stage may close. -/
def Ends.names (e : Ends) : List Nat :=
  own e.input ++ own e.output ++ own e.error ++ e.pipeEnds ++ e.previous.toList

theorem ownInput_subset (e : Ends) : e.ownInput ⊆ own e.input := by
  unfold Ends.ownInput
  split
  · exact Subset.refl _
  · exact nil_subset _

theorem ownError_subset (e : Ends) : e.ownError ⊆ own e.error := by
  unfold Ends.ownError
  split
  · exact Subset.refl _
  · exact nil_subset _

section

variable {e : Ends} (lost : Lost fd d)
include lost

theorem start_loses (unnamed : fd ∉ e.names) : Loses fd (start k i e d) := by
  have input := @ownInput_subset e fd
  have error := @ownError_subset e fd
  simp only [Ends.names, mem_append, not_or] at unnamed
  unfold start
  split
  · refine ⟨closeAll_lost lost ?_, ?_⟩
    · simp only [mem_append, not_or]
      exact ⟨⟨⟨unnamed.2, unnamed.1.1.1.1⟩, unnamed.1.1.1.2⟩, mt error unnamed.1.1.2⟩
    · intro same
      obtain ⟨⟨first, second⟩, pipe, rfl⟩ := Option.map_eq_some_iff.mp (Option.some.inj same)
      exact unnamed.1.2 (by simp [Ends.pipeEnds, pipe])
  · refine ⟨closeAll_lost lost ?_, nofun⟩
    simp only [mem_append, not_or]
    exact ⟨⟨⟨⟨mt input unnamed.1.1.1.1, unnamed.1.1.1.2⟩, mt error unnamed.1.1.2⟩, unnamed.1.2⟩,
      unnamed.2⟩

theorem openError_loses (unnamed : fd ∉ e.names) : Loses fd (openError k i st e d) := by
  have input := @ownInput_subset e fd
  have parts := unnamed
  simp only [Ends.names, mem_append, not_or] at parts
  have started {error : Nat} {t : Descriptors} (lost : Lost fd t) (new : fd ∉ own error) :
      Loses fd (start k i { e with error := if st.stderrToStdout then e.output else error } t) := by
    refine start_loses lost ?_
    simp only [Ends.names, Ends.pipeEnds, mem_append, not_or] at parts ⊢
    refine ⟨⟨⟨parts.1.1.1, ?_⟩, parts.1.2⟩, parts.2⟩
    split
    · exact parts.1.1.1.2
    · exact new
  unfold openError
  dsimp only
  split
  · split
    · exact started (opened_lost lost) (not_mem_own lost.ne_number)
    · refine ⟨closeAll_lost lost ?_, nofun⟩
      simp only [mem_append, not_or]
      exact ⟨⟨⟨mt input parts.1.1.1.1, parts.1.1.1.2⟩, parts.1.2⟩, parts.2⟩
  · exact started lost (by simp [own])

theorem openOutput_loses (unnamed : fd ∉ e.names) : Loses fd (openOutput k i st e d) := by
  have input := @ownInput_subset e fd
  have parts := unnamed
  simp only [Ends.names, mem_append, not_or] at parts
  have further {output : Nat} {t : Descriptors} (lost : Lost fd t) (new : fd ∉ own output) :
      Loses fd (openError k i st { e with output := output } t) := by
    refine openError_loses lost ?_
    simp only [Ends.names, Ends.pipeEnds, mem_append, not_or] at parts ⊢
    exact ⟨⟨⟨⟨parts.1.1.1.1, new⟩, parts.1.1.2⟩, parts.1.2⟩, parts.2⟩
  unfold openOutput
  split
  · split
    · exact further (opened_lost lost) (not_mem_own lost.ne_number)
    · refine ⟨closeAll_lost lost ?_, nofun⟩
      simp only [mem_append, not_or]
      exact ⟨⟨mt input parts.1.1.1.1, parts.1.2⟩, parts.2⟩
  · refine further lost ?_
    cases pipe : e.pipe with
    | none => simp [own]
    | some ends =>
      have ne := parts.1.2
      simp only [Ends.pipeEnds, pipe, Option.map_some, Option.getD_some, mem_cons, not_or] at ne
      exact not_mem_own ne.2.1

theorem openInput_loses {pipe : Option (Nat × Nat)} {previous : Option Nat}
    (ne : previous ≠ some fd) (unnamed : fd ∉ (Ends.mk none pipe 0 1 2).pipeEnds) :
    Loses fd (openInput k i st pipe previous d) := by
  have closing : fd ∉ previous.toList := by simpa [eq_comm] using ne
  unfold openInput
  split
  · have kept := closeAll_lost lost closing
    dsimp only
    split
    · refine openOutput_loses (opened_lost kept) ?_
      simp only [Ends.names, mem_append, not_or]
      exact ⟨⟨⟨⟨not_mem_own kept.ne_number, by simp [own]⟩, by simp [own]⟩, unnamed⟩, by simp⟩
    · exact ⟨closeAll_lost kept unnamed, nofun⟩
  · refine openOutput_loses lost ?_
    simp only [Ends.names, mem_append, not_or]
    refine ⟨⟨⟨⟨?_, by simp [own]⟩, by simp [own]⟩, unnamed⟩, closing⟩
    cases previous with
    | none => simp [own]
    | some previous => exact not_mem_own fun same => ne (congrArg some same.symm)

theorem stage_loses {isLast : Bool} {previous : Option Nat} (ne : previous ≠ some fd) :
    Loses fd (stage k i st isLast previous d) := by
  unfold stage
  split
  · exact openInput_loses lost ne (by simp [Ends.pipeEnds])
  split
  · refine openInput_loses (opened_lost (opened_lost lost)) ne ?_
    have first := lost.ne_number (k := k)
    have second := (opened_lost (k := k) lost).ne_number (k := k)
    simp [Ends.pipeEnds, first, second]
  · exact ⟨closeAll_lost lost (by simpa [eq_comm] using ne), nofun⟩

theorem executeFrom_lost {stages : List Stage} {previous : Option Nat} (ne : previous ≠ some fd) :
    Lost fd (executeFrom k i stages previous d) := by
  induction stages generalizing i previous d with
  | nil => exact closeAll_lost lost (by simpa [eq_comm] using ne)
  | cons st rest ih =>
    have loses := @stage_loses k i st d fd lost rest.isEmpty previous ne
    unfold executeFrom
    split
    · next left =>
      rw [left] at loses
      exact loses.1
    · next going =>
      rw [going] at loses
      exact ih loses.1 fun same => loses.2 (congrArg some same)

end

/-! ## A stage -/

namespace Ledger

variable {direct : Bool} {e : Ends} (ledger : Ledger e d direct)
include ledger

theorem named : own e.input ⊆ d.inUse ∧ own e.output ⊆ d.inUse ∧ e.pipeEnds ⊆ d.inUse ∧
    e.previous.toList ⊆ d.inUse := by
  have all (fd : Nat) := (ledger.all.mem_iff (a := fd)).mpr
  simp only [mem_append] at all
  have pipe : e.pipeEnds ⊆ d.inUse := fun fd is => all fd (.inl (.inr is))
  have previous : e.previous.toList ⊆ d.inUse := fun fd is => all fd (.inr is)
  refine ⟨fun fd is => ?_, fun fd is => ?_, pipe, previous⟩
  · by_cases reads : e.previous = some e.input
    · refine previous ?_
      unfold own at is
      split at is
      · rw [reads]
        exact is
      · cases is
    · exact all fd (.inl (.inl (.inl (.inl (by rwa [Ends.ownInput, if_pos (Ne.symm reads)])))))
  · cases direct with
    | false => exact all fd (.inl (.inl (.inl (.inr is))))
    | true =>
      refine pipe ?_
      obtain ⟨ends, open_, second⟩ := Option.map_eq_some_iff.mp (ledger.writes rfl)
      unfold own at is
      split at is
      · simp [Ends.pipeEnds, open_, second, mem_singleton.mp is]
      · cases is

theorem shared (is : direct = true) :
    ∃ first, e.pipe = some (first, e.output) ∧ own e.output = [e.output] := by
  obtain ⟨ends, pipe, second⟩ := Option.map_eq_some_iff.mp (ledger.writes is)
  refine ⟨ends.1, by rw [pipe, ← second], if_pos (ledger.above _ (ledger.named.2.2.1 ?_))⟩
  simp [Ends.pipeEnds, pipe, ← second]

theorem number_ne : k.number d.inUse ≠ e.output := by
  intro same
  have above := k.above d.inUse
  refine k.unused d.inUse (ledger.named.2.1 ?_)
  rw [← same, own, if_pos above]
  exact mem_singleton_self _

/-- Another descriptor for the errors that nothing has to be closed for. -/
theorem withError {error : Nat} (mine : e.ownError = [])
    (new : ({ e with error := error } : Ends).ownError = []) :
    Ledger { e with error := error } d direct where
  once := ledger.once
  distinct := ledger.distinct
  above := ledger.above
  reads := ledger.reads
  writes := ledger.writes
  all := by
    have all := ledger.all
    rw [mine] at all
    rwa [new]

theorem openedError (mine : e.ownError = []) :
    Ledger { e with error := k.number d.inUse } (d.opened k) direct where
  once := ledger.once
  distinct := nodup_cons.mpr ⟨k.unused _, ledger.distinct⟩
  above := forall_mem_cons.mpr ⟨k.above _, ledger.above⟩
  reads := ledger.reads
  writes := ledger.writes
  all := by
    have all := ledger.all
    have new : ({ e with error := k.number d.inUse } : Ends).ownError = [k.number d.inUse] := by
      rw [Ends.ownError, if_pos ledger.number_ne, own, if_pos (k.above _)]
    rw [mine, append_nil] at all
    rw [new, append_assoc, append_assoc]
    refine (all.cons _).trans ?_
    rw [append_assoc]
    exact perm_middle.symm

end Ledger

/-- A stage before its output and its errors are redirected. -/
structure Begun (e : Ends) (d : Descriptors) : Prop where
  once : d.twice = false
  distinct : d.inUse.Nodup
  above : ∀ fd ∈ d.inUse, 2 < fd
  reads : e.previous = none ∨ e.previous = some e.input
  standard : e.output = 1 ∧ e.error = 2
  all : d.inUse ~ e.ownInput ++ e.pipeEnds ++ e.previous.toList

section

variable {e : Ends} (begun : Begun e d)
include begun

theorem Begun.noError (output : Nat) : ({ e with output := output } : Ends).ownError = [] := by
  rw [Ends.ownError, begun.standard.2]
  split <;> rfl

/-- The output is the second end of the pipe, or the standard one. -/
theorem Begun.direct : Ledger { e with output := (e.pipe.map Prod.snd).getD 1 } d
    e.pipe.isSome where
  once := begun.once
  distinct := begun.distinct
  above := begun.above
  reads := begun.reads
  writes is := by
    obtain ⟨ends, pipe⟩ := Option.isSome_iff_exists.mp is
    rw [pipe]
    rfl
  all := by
    have all := begun.all
    have noOutput : (if e.pipe.isSome then [] else own ((e.pipe.map Prod.snd).getD 1)) = [] := by
      cases e.pipe <;> rfl
    rw [begun.noError, noOutput, append_nil, append_nil]
    exact all

theorem Begun.redirected :
    Ledger { e with output := k.number d.inUse } (d.opened k) false where
  once := begun.once
  distinct := nodup_cons.mpr ⟨k.unused _, begun.distinct⟩
  above := forall_mem_cons.mpr ⟨k.above _, begun.above⟩
  reads := begun.reads
  writes := nofun
  all := by
    rw [begun.noError, append_nil, own, if_pos (k.above _), if_neg Bool.false_ne_true, append_assoc,
      append_assoc]
    refine (begun.all.cons _).trans ?_
    rw [append_assoc]
    exact perm_middle.symm

end

section

variable {isLast direct : Bool} {e : Ends} (ledger : Ledger e d direct)
  (last : isLast = true ↔ e.pipe = none)
include ledger last

theorem start_result : Result (direct = false ∧ ¬ Starts k i)
    (Starts k i ∧ e.previous = none ∧ (direct = true ∨ e.pipe = none)) isLast (start k i e d) := by
  have all := ledger.all
  have distinct := all.nodup ledger.distinct
  have shared := ledger.shared
  unfold start
  split
  · next starts =>
    have goes : ¬ (direct = false ∧ ¬ Starts k i) := fun stops => stops.2 starts
    by_cases fresh : e.previous = none
    · have mine : e.ownInput = own e.input := by rw [Ends.ownInput, fresh, if_pos nofun]
      rw [mine, fresh, Option.toList_none, append_nil] at all distinct
      rw [show e.previous.toList = [] by rw [fresh]; rfl, nil_append]
      by_cases writes : direct = true ∨ e.pipe = none
      · refine .passed goes ⟨starts, fresh, writes⟩ ?_
        have parts : d.inUse ~ own e.input ++ own e.output ++ e.ownError ++
            (e.pipe.map Prod.fst).toList := by
          refine all.trans ?_
          rcases writes with is | none
          · obtain ⟨first, pipe, one⟩ := shared is
            rw [is, if_pos rfl, one, Ends.pipeEnds, pipe, perm_iff_count]
            intro fd
            simp only [count_append, count_cons, count_nil, Option.map_some, Option.getD_some,
              Option.toList_some]
            omega
          · have apart : direct = false := Bool.eq_false_iff.mpr fun is => by
              obtain ⟨first, pipe, _⟩ := shared is
              rw [none] at pipe
              cases pipe
            rw [apart, Ends.pipeEnds, none]
            exact .refl _
        obtain ⟨inUse, closed, left⟩ := closeAll_perm parts
        rw [closed]
        refine .next ledger.once left (fun fd is => ledger.above fd (ledger.named.2.2.1 ?_)) ?_
        · obtain ⟨ends, pipe, rfl⟩ := Option.map_eq_some_iff.mp is
          simp [Ends.pipeEnds, pipe]
        rw [Option.isSome_map, Bool.eq_iff_iff, Bool.not_eq_true', ← Bool.not_eq_true, last]
        exact Option.isSome_iff_ne_none
      · rw [not_or, Bool.not_eq_true] at writes
        obtain ⟨⟨first, second⟩, pipe⟩ := Option.ne_none_iff_exists'.mp writes.2
        rw [writes.1, if_neg Bool.false_ne_true, Ends.pipeEnds, pipe] at all distinct
        refine .spoilt goes (fun passes => ?_) ⟨second, closeAll_lost (.inl ?_) fun named => ?_, ?_⟩
        · rcases passes.2.2 with is | none
          · exact Bool.false_ne_true (writes.1.symm.trans is)
          · exact writes.2 none
        · exact all.mem_iff.mpr (by simp)
        · exact (nodup_append.mp distinct).2.2 second named second (by simp) rfl
        · rw [pipe]
          have apart : [first, second].Nodup := (nodup_append.mp distinct).2.1
          intro same
          obtain rfl : first = second := Option.some.inj (Option.some.inj same)
          simp at apart
    · -- the end of the pipe before is closed as such and as the input
      have input := ledger.reads.resolve_left fresh
      have isOpen : e.input ∈ d.inUse := all.mem_iff.mpr (by simp [input])
      have above : own e.input = [e.input] := if_pos (ledger.above _ isOpen)
      refine .spoilt goes (fun passes => fresh passes.2.1)
        (spoilt_of_repeated ledger.distinct ?_ ?_)
      · simp [input, above]
      · intro same
        obtain ⟨ends, pipe, zero⟩ := Option.map_eq_some_iff.mp (Option.some.inj same)
        have low := ledger.above ends.1 (all.mem_iff.mpr (by simp [Ends.pipeEnds, pipe]))
        omega
  · next failed =>
    have fails : ¬ (Starts k i ∧ e.previous = none ∧ (direct = true ∨ e.pipe = none)) :=
      fun passes => failed passes.1
    cases direct with
    | false => exact .closed ⟨rfl, failed⟩ (closed_of_perm ledger.once all)
    | true =>
      obtain ⟨first, pipe, one⟩ := shared rfl
      refine .spoilt (fun stops => by cases stops.1) fails
        (spoilt_of_repeated ledger.distinct ?_ nofun)
      simp [one, Ends.pipeEnds, pipe, nodup_append]

theorem openError_result (standard : e.error = 2) : Result
    (direct = false ∧ (st.stderrPath = true ∧ k.granted i .error = false ∨
      st.Plain ∧ ¬ Starts k i))
    (st.Plain ∧ Starts k i ∧ (st.stderrPath = true → k.granted i .error = true) ∧
      e.previous = none ∧ (direct = true ∨ e.pipe = none)) isLast (openError k i st e d) := by
  have nothing (error : Nat) (is : error = 2 ∨ error = e.output) :
      ({ e with error := error } : Ends).ownError = [] := by
    unfold Ends.ownError
    split
    · next other => rw [is.resolve_right other]; rfl
    · rfl
  have mine : e.ownError = [] := nothing e.error (.inl standard)
  unfold openError
  dsimp only
  split
  · next path =>
    split
    · next granted =>
      by_cases both : st.stderrToStdout = true
      · -- the file for the errors is open and nothing names it
        have notPlain : ¬ st.Plain := fun plain => plain ⟨path, both⟩
        have unused := k.unused d.inUse
        obtain ⟨input, output, pipe, previous⟩ := ledger.named
        refine .spoilt ?_ (fun passes => notPlain passes.1) ⟨k.number d.inUse, start_loses ?_ ?_⟩
        · rintro ⟨_, refused | stops⟩
          · exact Bool.false_ne_true (refused.2.symm.trans granted)
          · exact notPlain stops.1
        · exact .inl mem_cons_self
        · rw [if_pos both]
          simp only [Ends.names, mem_append, not_or]
          exact ⟨⟨⟨⟨mt (@input _) unused, mt (@output _) unused⟩, mt (@output _) unused⟩,
            mt (@pipe _) unused⟩, mt (@previous _) unused⟩
      · have plain : st.Plain := fun errors => both errors.2
        rw [if_neg both]
        refine (start_result (ledger.openedError mine) last).congr ?_ fun _ => ?_
        · simp [granted, plain]
        · simp [granted, plain]
    · next refused =>
      have fails : ¬ (st.Plain ∧ Starts k i ∧ (st.stderrPath = true → k.granted i .error = true) ∧
          e.previous = none ∧ (direct = true ∨ e.pipe = none)) :=
        fun passes => refused (passes.2.2.1 path)
      rw [Bool.not_eq_true] at refused
      have all := ledger.all
      rw [mine, append_nil] at all
      cases direct with
      | false => exact .closed ⟨rfl, .inl ⟨path, refused⟩⟩ (closed_of_perm ledger.once all)
      | true =>
        obtain ⟨first, pipe, one⟩ := ledger.shared rfl
        refine .spoilt (fun stops => by cases stops.1) fails
          (spoilt_of_repeated ledger.distinct ?_ nofun)
        simp [one, Ends.pipeEnds, pipe, nodup_append]
  · next path =>
    have plain : st.Plain := fun errors => path errors.1
    have unopened := ledger.withError mine
      (nothing (if st.stderrToStdout then e.output else 2) (by split <;> simp))
    refine (start_result unopened last).congr ?_ fun _ => ?_
    · simp [path, plain]
    · simp [path, plain]

end

section

variable {isLast : Bool}

theorem openOutput_result {e : Ends} (begun : Begun e d) (last : isLast = true ↔ e.pipe = none) :
    Result
    (st.stdoutPath = true ∧ k.granted i .output = false ∨ (isLast = true ∨ st.stdoutPath = true) ∧
      (st.stderrPath = true ∧ k.granted i .error = false ∨ st.Plain ∧ ¬ Starts k i))
    (st.Plain ∧ Starts k i ∧ (st.stderrPath = true → k.granted i .error = true) ∧
      e.previous = none ∧ (isLast = true ∨ st.stdoutPath = false)) isLast
      (openOutput k i st e d) := by
  unfold openOutput
  split
  · next path =>
    split
    · next granted =>
      refine (openError_result begun.redirected last begun.standard.2).congr ?_ fun _ => ?_
      · simp [path, granted]
      · simp [path, last]
    · next refused =>
      exact .closed (.inl ⟨path, Bool.not_eq_true _ |>.mp refused⟩)
        (closed_of_perm begun.once begun.all)
  · next path =>
    have piped : isLast = true ↔ e.pipe.isSome = false := by
      rw [last, Option.isSome_eq_false_iff, Option.isNone_iff_eq_none]
    have either : e.pipe.isSome = true ∨ e.pipe = none := by cases e.pipe <;> simp
    refine (openError_result begun.direct last begun.standard.2).congr ?_ fun _ => ?_
    · simp [path, piped]
    · simp [path, either]

variable {pipe : Option (Nat × Nat)} {previous : Option Nat}

theorem openInput_result (once : d.twice = false) (distinct : d.inUse.Nodup)
    (above : ∀ fd ∈ d.inUse, 2 < fd) (last : isLast = true ↔ pipe = none)
    (all : d.inUse ~ previous.toList ++ (Ends.mk none pipe 0 1 2).pipeEnds) :
    Result
    (st.inputPath = true ∧ k.granted i .input = false ∨
      st.stdoutPath = true ∧ k.granted i .output = false ∨
      (isLast = true ∨ st.stdoutPath = true) ∧
        (st.stderrPath = true ∧ k.granted i .error = false ∨ st.Plain ∧ ¬ Starts k i))
    (Passes k i st previous.isSome isLast) isLast (openInput k i st pipe previous d) := by
  unfold openInput
  split
  · next path =>
    obtain ⟨inUse, closed, left⟩ := closeAll_perm all
    have kept := (all.nodup distinct).sublist (sublist_append_right ..)
    rw [closed]
    dsimp only
    split
    · next granted =>
      have begun : Begun ⟨none, pipe, k.number inUse, 1, 2⟩
          (Descriptors.opened k ⟨inUse, d.twice⟩) :=
        ⟨once, nodup_cons.mpr ⟨k.unused _, left.symm.nodup kept⟩, forall_mem_cons.mpr ⟨k.above _,
          fun fd is => above fd (all.mem_iff.mpr (mem_append_right _ (left.mem_iff.mp is)))⟩,
          .inl rfl, ⟨rfl, rfl⟩, by
            rw [Ends.ownInput, if_pos nofun, own, if_pos (k.above _), Option.toList_none,
              append_nil]
            exact left.cons _⟩
      refine (openOutput_result begun last).congr ?_ fun _ => ?_
      · simp [granted]
      · exact ⟨fun ⟨plain, starts, opens, _, writes⟩ => ⟨plain, starts, opens, rfl, writes⟩,
          fun ⟨plain, starts, opens, _, writes⟩ => ⟨plain, starts, opens, fun _ => path, writes⟩⟩
    · next refused =>
      exact .closed (.inl ⟨path, Bool.not_eq_true _ |>.mp refused⟩) (closed_of_perm once left)
  · next path =>
    have begun : Begun ⟨previous, pipe, previous.getD 0, 1, 2⟩ d := by
      refine ⟨once, distinct, above, ?_, ⟨rfl, rfl⟩, all.trans ?_⟩
      · cases previous with
        | none => exact .inl rfl
        | some fd => exact .inr rfl
      · have mine : (Ends.mk previous pipe (previous.getD 0) 1 2).ownInput = [] := by
          cases previous with
          | none => rfl
          | some fd => exact if_neg fun other => other rfl
        rw [mine, nil_append]
        exact perm_append_comm
    refine (openOutput_result begun last).congr ?_ fun _ => ?_
    · simp [path]
    · constructor
      · intro passes
        refine ⟨passes.plain, passes.starts, passes.opens, ?_, passes.writes⟩
        rw [← Option.not_isSome_iff_eq_none]
        exact fun piped => path (passes.reads piped)
      · rintro ⟨plain, starts, opens, fresh, writes⟩
        refine ⟨plain, starts, opens, fun piped => ?_, writes⟩
        rw [show previous = none from fresh] at piped
        cases piped

theorem stage_result (once : d.twice = false) (above : ∀ fd ∈ previous, 2 < fd)
    (all : d.inUse ~ previous.toList) :
    Result (Stops k i st isLast) (Passes k i st previous.isSome isLast) isLast
      (stage k i st isLast previous d) := by
  have distinct : d.inUse.Nodup := all.symm.nodup (by cases previous <;> simp)
  have high : ∀ fd ∈ d.inUse, 2 < fd := fun fd is =>
    above fd (Option.mem_toList.mp (all.mem_iff.mp is))
  unfold stage Stops
  split
  · next is =>
    refine (openInput_result once distinct high (iff_of_true is rfl)
      (by simpa [Ends.pipeEnds])).congr ?_ fun _ => Iff.rfl
    simp [is]
  next goes =>
  rw [Bool.not_eq_true] at goes
  split
  · next granted =>
    have second : k.number (d.opened k).inUse ∉ (d.opened k).inUse := k.unused _
    refine (openInput_result (d := (d.opened k).opened k) once
      (nodup_cons.mpr ⟨second, nodup_cons.mpr ⟨k.unused _, distinct⟩⟩)
      (forall_mem_cons.mpr ⟨k.above _, forall_mem_cons.mpr ⟨k.above _, high⟩⟩)
      (by simp [goes]) ?_).congr ?_ fun _ => Iff.rfl
    · exact ((all.cons _).cons _).trans ((Perm.swap ..).trans (@perm_append_comm _ [_, _] _))
    · simp [granted]
  · next refused =>
    exact .closed (.inl ⟨goes, Bool.not_eq_true _ |>.mp refused⟩) (closed_of_perm once all)

end

/-! ## The pipeline -/

theorem Lost.spoils (lost : Lost fd d) : ¬ (d.twice = false ∧ d.inUse = []) := by
  rintro ⟨once, none⟩
  rcases lost with member | ⟨_, twice⟩
  · rw [none] at member
    cases member
  · exact Bool.false_ne_true (once.symm.trans twice)

theorem careful_piped {stages : List Stage} {previous : Option Nat}
    (piped : previous.isSome = !stages.isEmpty) :
    Careful k previous.isSome i stages ↔ Careful k true i stages := by
  cases stages with
  | nil => exact Iff.rfl
  | cons st rest => rw [piped]; exact Iff.rfl

theorem executeFrom_clean {stages : List Stage} {previous : Option Nat} (once : d.twice = false)
    (above : ∀ fd ∈ previous, 2 < fd) (all : d.inUse ~ previous.toList) :
    (executeFrom k i stages previous d).twice = false ∧
      (executeFrom k i stages previous d).inUse = [] ↔ Careful k previous.isSome i stages := by
  induction stages generalizing i previous d with
  | nil =>
    have closed := closed_of_perm once all
    exact iff_of_true ⟨closed.once, closed.none⟩ trivial
  | cons st rest ih =>
    have res := @stage_result k i st d rest.isEmpty previous once above all
    generalize outcome : stage k i st rest.isEmpty previous d = other at res
    obtain ⟨next, after⟩ := other
    rw [executeFrom, outcome, Careful]
    cases res with
    | closed stops closed =>
      obtain rfl := closed.left
      exact iff_of_true ⟨closed.once, closed.none⟩ (.inl stops)
    | passed goes passes passed =>
      cases passed with
      | next once all above piped =>
        rw [or_iff_right goes, and_iff_right passes]
        exact (ih once above all).trans (careful_piped piped)
    | spoilt goes fails spoilt =>
      obtain ⟨fd, lost, unnamed⟩ := spoilt
      refine iff_of_false ?_ (not_or.mpr ⟨goes, fun passes => fails passes.1⟩)
      cases next with
      | none => exact lost.spoils
      | some previous =>
        exact (executeFrom_lost lost fun same => unnamed (congrArg some same)).spoils

/-- The shell waits with nothing open and nothing closed twice exactly when every stage passes, up
to one that stops. -/
theorem pipeline_closes_descriptors (k : Kernel) (stages : List Stage) :
    (shellExecutePipelineStdio k stages).twice = false ∧
      (shellExecutePipelineStdio k stages).inUse = [] ↔ Careful k false 0 stages :=
  executeFrom_clean rfl nofun (.refl _)

/-- Surroundings that refuse one question at one stage. -/
def refusing (place : Nat) (question : Question) : Kernel where
  granted i asked := !(i = place ∧ asked = question)
  number inUse := 3 + inUse.sum
  above inUse := by omega
  unused inUse member := by
    have small := single_le_sum (fun _ _ => Nat.zero_le _) _ member
    omega

def plainStage : Stage := ⟨false, false, false, false⟩

/-- A pipe that is refused leaves nothing open, nor do two stages that read from files. -/
example :
    (shellExecutePipelineStdio (refusing 0 .pipe) [plainStage, plainStage]).inUse = [] ∧
      (shellExecutePipelineStdio (refusing 1 .spawn)
        [⟨true, false, true, false⟩, ⟨true, true, false, true⟩]).inUse = [] := by
  decide

/-- Two plain stages close the pipe's end twice, also when the first does not start; an output
redirected before a pipe, and errors redirected twice, leave a descriptor open. -/
theorem pipeline_leaks_and_closes_twice :
    (shellExecutePipelineStdio (refusing 9 .pipe) [plainStage, plainStage]).twice = true ∧
      (shellExecutePipelineStdio (refusing 0 .spawn) [plainStage, plainStage]).twice = true ∧
      (shellExecutePipelineStdio (refusing 9 .pipe)
        [{ plainStage with stdoutPath := true }, plainStage]).inUse ≠ [] ∧
      (shellExecutePipelineStdio (refusing 9 .pipe)
        [{ plainStage with stderrPath := true, stderrToStdout := true }]).inUse ≠ [] := by
  decide

end SavanXP.Shell
