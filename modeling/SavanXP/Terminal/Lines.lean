import Mathlib

/-!
# Lines of the terminal

`tty.cpp` keeps one buffer, for the line that is being typed and for the line that
waits to be read.  A submitted line goes to the first thread that is blocked in a
read of the terminal, or else waits for the next read.  Copying nothing to a process
counts as a failure, so an empty line cannot be read, and what is typed while a line
waits ends up in that line.
-/

namespace SavanXP.Terminal

open List Function

/-! ## The device -/

def lineCapacity : Nat := 256

inductive Key
  | backspace
  | enter
  | other

structure KeyEvent where
  key : Key
  pressed : Bool
  ascii : UInt8
  ctrl : Bool

/-- `TtyDevice`: the first `pending_length` bytes of its buffer. -/
structure Device where
  pendingLine : List UInt8 := []
  lineReady : Bool := false

inductive Outcome
  | bytes (line : List UInt8)
  | EINVAL
  | EAGAIN
  deriving DecidableEq

/-- The device, the capacity of each blocked read of the terminal, and the results of
the reads so far. -/
structure Machine (slots : Nat) where
  device : Device := {}
  blocked : Fin slots → Option Nat := fun _ => none
  completed : List Outcome := []

/-- What has become of the blocked reads: whether the handle still names the terminal
and whether the buffer is still mapped. -/
structure World (slots : Nat) where
  isTty : Fin slots → Bool
  mapped : Fin slots → Bool

structure Request where
  count : Nat
  nonblock : Bool
  mapped : Bool

/-- `write_user_memory`; a count of zero is refused. -/
def writeUserMemory (mapped : Bool) (bytes : List UInt8) : Bool := !bytes.isEmpty && mapped

section Machine

variable {slots : Nat}

namespace Machine

variable (m : Machine slots)

def complete (out : Outcome) : Machine slots :=
  { m with completed := m.completed ++ [out] }

/-- The end of both ways to deliver a line of at most so many bytes. -/
def deliver (mapped : Bool) (capacity : Nat) : Machine slots :=
  let line := m.device.pendingLine.take capacity
  if writeUserMemory mapped line = false then m.complete .EINVAL
  else { m.complete (.bytes line) with device := {} }

def unblock (th : Fin slots) : Machine slots :=
  { m with blocked := update m.blocked th none }

def notifyTtyLineReady (w : World slots) : Machine slots :=
  match (List.finRange slots).find? fun th =>
      (m.blocked th).isSome && w.isTty th with
  | none => m
  | some th =>
    (m.unblock th).deliver (w.mapped th) ((m.blocked th).getD 0)

def clear : Machine slots := { m with device := {} }

def handleInputChar (character : UInt8) : Machine slots :=
  if character = 0 then m
  else if lineCapacity ≤ m.device.pendingLine.length + 1 then m
  else
    { m with
      device.pendingLine := m.device.pendingLine ++ [character] }

def handleBackspace : Machine slots :=
  { m with device.pendingLine := m.device.pendingLine.dropLast }

def submitLine (w : World slots) : Machine slots :=
  notifyTtyLineReady { m with device.lineReady := true } w

def handleKeyEvent (event : KeyEvent) (w : World slots) : Machine slots :=
  if event.pressed = false then m
  else
    match event.key with
    | .backspace => m.handleBackspace
    | .enter => m.submitLine w
    | .other =>
      if event.ctrl ∧ (event.ascii = 108 ∨ event.ascii = 76) then m.clear
      else m.handleInputChar event.ascii

/-- `read_handle` of a handle that names the terminal and was opened for reading. -/
def readHandle (th : Fin slots) (req : Request) : Machine slots :=
  if req.count = 0 then m.complete (.bytes [])
  else if req.mapped = false then m.complete .EINVAL
  else if m.device.lineReady then m.deliver req.mapped req.count
  else if req.nonblock then m.complete .EAGAIN
  else { m with blocked := update m.blocked th (some req.count) }

end Machine

inductive Step (slots : Nat)
  | press (event : KeyEvent) (w : World slots)
  | read (th : Fin slots) (req : Request)

/-- A blocked thread makes no calls. -/
def Machine.step (m : Machine slots) : Step slots → Machine slots
  | .press event w => m.handleKeyEvent event w
  | .read th req =>
    if (m.blocked th).isSome then m else m.readHandle th req

def run (steps : List (Step slots)) : Machine slots := steps.foldl Machine.step {}

/-! ## What was typed -/

/-- The lines that were submitted and the one being typed. -/
structure Typed where
  submitted : List (List UInt8) := []
  current : List UInt8 := []

def Typed.press (typed : Typed) (event : KeyEvent) : Typed :=
  if event.pressed = false then typed
  else
    match event.key with
    | .backspace => { typed with current := typed.current.dropLast }
    | .enter => ⟨typed.submitted ++ [typed.current], []⟩
    | .other =>
      if event.ascii = 0 then typed else { typed with current := typed.current ++ [event.ascii] }

def Typed.step (typed : Typed) : Step slots → Typed
  | .press event _ => typed.press event
  | .read _ _ => typed

def typedBy (steps : List (Step slots)) : Typed := steps.foldl Typed.step {}

/-- The steps that are spoken about: characters, Backspace and Enter, lines shorter than
the buffer, buffers that are mapped. -/
def Step.Proper (typed : Typed) : Step slots → Prop
  | .press event w =>
    ¬(event.ctrl = true ∧ (event.ascii = 108 ∨ event.ascii = 76)) ∧
      (typed.press event).current.length < lineCapacity ∧ ∀ th, w.mapped th = true
  | .read _ req => req.mapped = true

/-- The steps that keep lines apart: nothing is typed while a line waits, no empty line
is submitted, and a read waits for a line and has room for any. -/
def Step.Calm (m : Machine slots) : Step slots → Prop
  | .press event _ =>
    event.pressed = true →
      (m.device.lineReady = true → event.key = .other ∧ event.ascii = 0) ∧
        (event.key = .enter → m.device.pendingLine ≠ [])
  | .read _ req => lineCapacity ≤ req.count + 1 ∧ req.nonblock = false

/-- Every step of the run is proper and calm. -/
def Apart : Machine slots → Typed → List (Step slots) → Prop
  | _, _, [] => True
  | m, typed, step :: rest =>
    step.Proper typed ∧ step.Calm m ∧ Apart (m.step step) (typed.step step) rest

/-! ## The invariant -/

/-- All lines but one that waits have been read, and the buffer holds that one or else
the one being typed. -/
structure Machine.Tells (m : Machine slots) (typed : Typed) : Prop where
  short : m.device.pendingLine.length < lineCapacity
  room : ∀ th count, m.blocked th = some count → lineCapacity ≤ count + 1
  typing : m.device.lineReady = false →
    m.device.pendingLine = typed.current ∧ m.completed = typed.submitted.map .bytes
  waiting : m.device.lineReady = true → m.device.pendingLine ≠ [] ∧ typed.current = [] ∧
    ∃ read, typed.submitted = read ++ [m.device.pendingLine] ∧
      m.completed = read.map .bytes

namespace Machine.Tells

variable {m : Machine slots} {typed : Typed}

section

variable (tells : m.Tells typed)
include tells

/-- A waiting line is read whole by a read that has room for it. -/
theorem deliver (ready : m.device.lineReady = true)
    {capacity : Nat} (room : lineCapacity ≤ capacity + 1) :
    (m.deliver true capacity).Tells typed := by
  obtain ⟨nonempty, current, read, submitted, completed⟩ := tells.waiting ready
  have short := tells.short
  have whole : m.device.pendingLine.take capacity = m.device.pendingLine :=
    take_of_length_le (by omega)
  have written : writeUserMemory true m.device.pendingLine = true := by
    simpa [writeUserMemory] using nonempty
  have form : m.deliver true capacity =
      { m.complete (.bytes m.device.pendingLine) with device := {} } := by
    simp [Machine.deliver, whole, written]
  rw [form]
  refine ⟨Nat.zero_lt_succ 255, tells.room, fun _ => ⟨current.symm, ?_⟩, nofun⟩
  simp [Machine.complete, completed, submitted]

theorem unblock (th : Fin slots) : (m.unblock th).Tells typed := by
  refine ⟨tells.short, fun other count held => ?_, tells.typing, tells.waiting⟩
  by_cases same : other = th
  · simp [Machine.unblock, same] at held
  · exact tells.room other count (by simpa [Machine.unblock, same] using held)

theorem notifyTtyLineReady (ready : m.device.lineReady = true)
    {w : World slots} (mapped : ∀ th, w.mapped th = true) :
    (m.notifyTtyLineReady w).Tells typed := by
  unfold Machine.notifyTtyLineReady
  split
  · exact tells
  · next th found =>
    have waits := List.find?_some found
    obtain ⟨count, held⟩ : ∃ count, m.blocked th = some count :=
      Option.isSome_iff_exists.mp (by simp_all)
    rw [mapped, held]
    exact (tells.unblock th).deliver ready (tells.room th count held)

theorem readHandle {th : Fin slots} {req : Request}
    (mapped : req.mapped = true) (room : lineCapacity ≤ req.count + 1)
    (blocks : req.nonblock = false) : (m.readHandle th req).Tells typed := by
  have pos : req.count ≠ 0 := by
    intro zero
    simp [zero, lineCapacity] at room
  unfold Machine.readHandle
  rw [if_neg pos, if_neg (by simp [mapped])]
  split
  · next ready =>
    rw [mapped]
    exact tells.deliver ready room
  · rw [if_neg (by simp [blocks])]
    refine ⟨tells.short, fun other count held => ?_, tells.typing, tells.waiting⟩
    by_cases same : other = th
    · obtain rfl : req.count = count := by simpa [same] using held
      exact room
    · exact tells.room other count (by simpa [same] using held)

/-- Nothing that is typed touches a waiting line. -/
theorem press {event : KeyEvent} {w : World slots}
    (proper : (Step.press event w).Proper typed) (calm : (Step.press event w).Calm m) :
    (m.handleKeyEvent event w).Tells (typed.press event) := by
  obtain ⟨plain, short, mapped⟩ := proper
  unfold Machine.handleKeyEvent
  by_cases pressed : event.pressed = false
  · rw [if_pos pressed, Typed.press, if_pos pressed]
    exact tells
  obtain ⟨apart, full⟩ := calm (by simpa using pressed)
  rw [Typed.press, if_neg pressed] at short ⊢
  rw [if_neg pressed]
  have typing (special : ¬(event.key = .other ∧ event.ascii = 0)) : m.device.lineReady = false :=
    Bool.eq_false_iff.mpr fun ready => special (apart ready)
  cases kind : event.key with
  | backspace =>
    have typing := typing (by simp [kind])
    obtain ⟨line, completed⟩ := tells.typing typing
    refine ⟨?_, tells.room, fun _ => ⟨?_, completed⟩, fun ready => nomatch typing.symm.trans ready⟩
    · have old := tells.short
      simp only [Machine.handleBackspace, length_dropLast]
      omega
    · simp [Machine.handleBackspace, line]
  | enter =>
    obtain ⟨line, completed⟩ := tells.typing (typing (by simp [kind]))
    have submitted : Machine.Tells { m with device.lineReady := true }
        ⟨typed.submitted ++ [typed.current], []⟩ :=
      ⟨tells.short, tells.room, nofun,
        fun _ => ⟨full kind, rfl, typed.submitted, by rw [line], completed⟩⟩
    exact submitted.notifyTtyLineReady rfl mapped
  | other =>
    rw [if_neg plain, Machine.handleInputChar]
    rw [kind] at short
    by_cases silent : event.ascii = 0
    · rw [if_pos silent, if_pos silent]
      exact tells
    rw [if_neg silent] at short ⊢
    rw [if_neg silent]
    have typing := typing (silent ·.2)
    obtain ⟨line, completed⟩ := tells.typing typing
    rw [length_append, length_singleton, ← line] at short
    rw [if_neg (Nat.not_le.mpr short)]
    refine ⟨?_, tells.room, fun _ => ⟨by rw [line], completed⟩,
      fun ready => nomatch typing.symm.trans ready⟩
    rwa [length_append, length_singleton]

theorem step {step : Step slots} (proper : step.Proper typed)
    (calm : step.Calm m) : (m.step step).Tells (typed.step step) := by
  cases step with
  | press event w => exact tells.press proper calm
  | read th req =>
    unfold Machine.step Typed.step
    dsimp only
    split
    · exact tells
    · exact tells.readHandle proper calm.1 calm.2

theorem run {steps : List (Step slots)} (apart : Apart m typed steps) :
    (steps.foldl Machine.step m).Tells (steps.foldl Typed.step typed) := by
  induction steps generalizing m typed with
  | nil => exact tells
  | cons step rest ih =>
    obtain ⟨proper, calm, t⟩ := apart
    exact ih (tells.step proper calm) t

end

end Machine.Tells

/-- When nothing is typed into a waiting line, no line is empty and every read has room, the
reads return the submitted lines, in order and whole. -/
theorem reads_return_lines {steps : List (Step slots)} (apart : Apart {} {} steps) :
    (run steps).completed =
      ((typedBy steps).submitted.take (run steps).completed.length).map .bytes := by
  have start : Machine.Tells ({} : Machine slots) {} :=
    ⟨Nat.zero_lt_succ 255, nofun, fun _ => ⟨rfl, rfl⟩, nofun⟩
  have tells : (run steps).Tells (typedBy steps) := start.run apart
  cases ready : (run steps).device.lineReady with
  | false =>
    obtain ⟨-, completed⟩ := tells.typing ready
    simp [completed]
  | true =>
    obtain ⟨-, -, read, submitted, completed⟩ := tells.waiting ready
    simp [completed, submitted]

end Machine

/-! ## Runs of one thread -/

def here : World 1 := ⟨fun _ => true, fun _ => true⟩

def types (character : UInt8) : Step 1 := .press ⟨.other, true, character, false⟩ here
def enters : Step 1 := .press ⟨.enter, true, 10, false⟩ here
def reads : Step 1 := .read 0 ⟨256, false, true⟩

theorem reads_return_lines_two :
    (run [types 97, enters, reads, reads, types 98, enters]).completed =
      [.bytes [97], .bytes [98]] := by
  have apart : Apart ({} : Machine 1) {} [types 97, enters, reads, reads, types 98, enters] := by
    simp +decide [Apart, Step.Proper, Step.Calm, types, enters, reads, here]
  have told := reads_return_lines apart
  rw [told]
  decide

/-- An empty line cannot be read, and a character typed after a line joins it. -/
theorem lines_do_not_stay_apart :
    (run [enters, reads]).completed = [.EINVAL] ∧ (typedBy [enters, reads]).submitted = [[]] ∧
      (run [types 97, enters, types 98, reads]).completed = [.bytes [97, 98]] ∧
      (typedBy [types 97, enters, types 98, reads]).submitted = [[97]] := by
  decide

end SavanXP.Terminal
