import SavanXP.Elevation.ConsentReading

/-!
# Answering the elevation prompt

`windowd` serves one connection to the consent port at a time: it reads the
request, shows the prompt, and takes the answer from its own keyboard and mouse
events.  Beside the prompt's state the model keeps what the prompt was shown for,
since when, and the events that have reached it since, and the replies that were
written; connections are numbered in the order they are accepted.
-/

namespace SavanXP.Elevation

open List

def consentArmMs : UInt64 := 500
def consentRequestMs : UInt64 := 2000

inductive Button
  | no
  | yes
  deriving DecidableEq

def Button.other : Button → Button
  | .yes => .no
  | .no => .yes

/-- An accepted connection and the credentials the kernel reports for its client. -/
structure Connection where
  number : Nat
  euid : UInt32
  deriving DecidableEq

inductive Answer
  | no
  | yes
  | accessRefused
  | refused (why : Refusal)
  deriving DecidableEq

/-- `windowd_consent`. -/
structure Consent where
  port : Bool
  connection : Option Connection := none
  deadline : UInt64 := 0
  isOpen : Bool := false
  armedAt : UInt64 := 0
  focused : Button := .no
  pressed : Option Button := none
  prepared : Option Prepared := none

/-- A prompt with the replies a call writes. -/
abbrev Answered := Consent × List (Connection × Answer)

/-- What a read of the broker's pipe gives: nothing yet, a whole request, some other
bytes, or the end. -/
inductive Got
  | again
  | whole (req : ConsentRequest)
  | bytes
  | ended

namespace Consent

variable (consent : Consent)

def dropConnection : Consent :=
  { consent with connection := none, isOpen := false, pressed := none }

/-- Writes one reply, when there is a connection, and hangs up. -/
def answer (v : Answer) : Answered :=
  (consent.dropConnection, consent.connection.toList.map (·, v))

/-- `show`. -/
def display (prepared : Prepared) (now : UInt64) : Consent :=
  { consent with
    prepared := some prepared, isOpen := true, armedAt := now + consentArmMs, focused := .no,
    pressed := none }

/-- The request of a connection that has not made one yet. -/
def readRequest (screen : Option Screen) (now : UInt64) (got : Got) : Answered :=
  match got with
  | .again => if now < consent.deadline then (consent, []) else consent.answer (.refused .EINVAL)
  | .whole req =>
    match prepare req screen with
    | .ok prepared => (consent.display prepared now, [])
    | .error why => consent.answer (.refused why)
  | _ => consent.answer (.refused .EINVAL)

/-- While the prompt is up the broker may only hang up. -/
def watchBroker : List Got → Consent
  | [] | .again :: _ => consent
  | .ended :: _ => consent.dropConnection
  | _ :: rest => watchBroker rest

/-- `accepted` is the client at the head of the port's queue, if any. -/
def service (screen : Option Screen) (now : UInt64) (accepted : Option Connection)
    (reads : List Got) : Answered :=
  if consent.port = false then (consent, [])
  else
    match consent.connection with
    | none =>
      match accepted with
      | none => (consent, [])
      | some client =>
        let connected := { consent with connection := some client }
        if client.euid ≠ 0 then connected.answer .accessRefused
        else
          { connected with deadline := now + consentRequestMs }.readRequest screen now
            (reads.headD .again)
    | some _ =>
      if consent.isOpen = false then consent.readRequest screen now (reads.headD .again)
      else (consent.watchBroker reads, [])

end Consent

/-! ## Input -/

inductive Key
  | tab
  | enter
  | escape
  | left
  | right
  | other
  deriving DecidableEq

/-- `savanxp_input_event`; `pressed` is a key-down event. -/
structure KeyEvent where
  pressed : Bool
  repeated : Bool
  key : Key
  ascii : Int

def KeyEvent.isLetter (event : KeyEvent) (lower : Int) : Bool :=
  event.ascii == lower || event.ascii == lower - 32

/-- Where the pointer is, and the left button now and before. -/
structure PointerEvent where
  screen : Option Screen
  x : Int
  y : Int
  left : Bool
  leftWas : Bool

structure Rect where
  x : Int
  y : Int
  width : Int
  height : Int

def Rect.contains (rect : Rect) (x y : Int) : Bool :=
  decide (0 < rect.width ∧ 0 < rect.height ∧ rect.x ≤ x ∧ rect.y ≤ y ∧ x < rect.x + rect.width ∧
    y < rect.y + rect.height)

def consentRect (prepared : Option Prepared) (screen : Option Screen) : Rect :=
  match screen with
  | none => ⟨0, 0, 0, 0⟩
  | some screen =>
    let width := min ((prepared.map Prepared.width).getD 0) (toInt screen.width)
    let height := min ((prepared.map Prepared.height).getD 0) (toInt screen.height)
    ⟨(toInt screen.width - width).tdiv 2, (toInt screen.height - height).tdiv 2, width, height⟩

def buttonRect (prepared : Option Prepared) (screen : Option Screen) (button : Button) : Rect :=
  let box := consentRect prepared screen
  let noX := box.x + box.width - padding - 76
  let y := box.y + box.height - padding - buttonHeight
  match button with
  | .no => ⟨noX, y, 76, buttonHeight⟩
  | .yes => ⟨noX - 10 - 76, y, 76, buttonHeight⟩

def buttonAt (prepared : Option Prepared) (event : PointerEvent) : Option Button :=
  [Button.no, Button.yes].find? fun button =>
    (buttonRect prepared event.screen button).contains event.x event.y

namespace Consent

variable (consent : Consent)

/-- `windowd_consent_key`. -/
def key (event : KeyEvent) (now : UInt64) : Answered :=
  if consent.isOpen = false ∨ event.pressed = false ∨ event.repeated = true ∨
      now < consent.armedAt then (consent, [])
  else if event.isLetter 121 then consent.answer .yes
  else if event.key = .escape ∨ event.isLetter 110 then consent.answer .no
  else if event.key = .tab ∨ event.key = .left ∨ event.key = .right then
    ({ consent with focused := consent.focused.other }, [])
  else if event.key = .enter ∨ event.ascii = 32 then
    consent.answer (if consent.focused = .yes then .yes else .no)
  else (consent, [])

/-- `windowd_consent_pointer`. -/
def pointer (event : PointerEvent) (now : UInt64) : Answered :=
  if consent.isOpen = false then (consent, [])
  else if event.left = true ∧ event.leftWas = false then
    let pressed := if now < consent.armedAt then none else buttonAt consent.prepared event
    ({ consent with pressed, focused := pressed.getD consent.focused }, [])
  else if event.left = false ∧ event.leftWas = true then
    let released := { consent with pressed := none }
    match consent.pressed with
    | none => (released, [])
    | some button =>
      if buttonAt consent.prepared event = some button then
        released.answer (if button = .yes then .yes else .no)
      else (released, [])
  else (consent, [])

end Consent

/-! ## Runs -/

/-- An input event with the time of its call. -/
inductive Input
  | key (event : KeyEvent) (now : UInt64)
  | pointer (event : PointerEvent) (now : UInt64)

/-- A call of one of the three entry points; `euid` is that of the client at the head
of the port's queue. -/
inductive Call
  | service (screen : Option Screen) (now : UInt64) (euid : Option UInt32) (reads : List Got)
  | input (input : Input)

def Input.time : Input → UInt64
  | .key _ now | .pointer _ now => now

def Call.time : Call → UInt64
  | .service _ now _ _ => now
  | .input act => act.time

/-- `wd_uptime_ms`, the time that every caller passes. -/
def uptimeMs (clockNs : UInt64) : UInt64 := clockNs / 1000000

/-- The call is made at a time that the clock can give. -/
def Call.Timed (call : Call) : Prop := ∃ clockNs, call.time = uptimeMs clockNs

/-- Milliseconds of a 64-bit count of nanoseconds are far from the end of 64 bits, so the time
at which a prompt is armed does not wrap round. -/
theorem Call.Timed.early {call : Call} (timed : call.Timed) :
    call.time.toNat + 500 < 2 ^ 64 := by
  obtain ⟨clockNs, given⟩ := timed
  have small : clockNs.toNat < 2 ^ 64 := clockNs.toNat_lt
  rw [given, uptimeMs, UInt64.toNat_div]
  change clockNs.toNat / 1000000 + 500 < 2 ^ 64
  omega

/-- A prompt on display: for which connection and request, and since when. -/
structure Display where
  connection : Connection
  prepared : Prepared
  since : UInt64

/-- `inputs` are those that have reached the prompt on display, latest first. -/
structure Session where
  consent : Consent
  connections : Nat := 0
  display : Option Display := none
  inputs : List Input := []
  replies : List (Connection × Answer) := []

/-- A prompt that has just been opened. -/
def Consent.newDisplay (consent : Consent) (now : UInt64) : Option Display :=
  match consent.connection, consent.prepared with
  | some connection, some prepared => some ⟨connection, prepared, now⟩
  | _, _ => none

def Consent.input (consent : Consent) : Input → Answered
  | .key event now => consent.key event now
  | .pointer event now => consent.pointer event now

namespace Session

variable (ses : Session)

/-- What a service call leaves on display: the prompt that was up, or a new one. -/
def displayAfter (t : Consent) (now : UInt64) : Option Display :=
  if t.isOpen = false then none
  else if ses.consent.isOpen then ses.display else t.newDisplay now

/-- The replies that a call writes, and the session after it. -/
def call : Call → List (Connection × Answer) × Session
  | .service screen now euid reads =>
    let answered := ses.consent.service screen now (euid.map (⟨ses.connections, ·⟩)) reads
    (answered.2,
      { consent := answered.1
        connections := ses.connections + 1
        display := ses.displayAfter answered.1 now
        inputs := if ses.consent.isOpen then ses.inputs else []
        replies := ses.replies ++ answered.2 })
  | .input input =>
    let answered := ses.consent.input input
    (answered.2,
      { ses with
        consent := answered.1
        display := if answered.1.isOpen then ses.display else none
        inputs := input :: ses.inputs
        replies := ses.replies ++ answered.2 })

def run (calls : List Call) : Session :=
  calls.foldl (fun ses call => (ses.call call).2) ses

end Session

/-- `windowd_consent_init`, with the port opened or not. -/
def consentInit (port : Bool) : Session := { consent := { port } }

/-! ## What is deliberate -/

namespace Display

variable (display : Display)

/-- The prompt has been up long enough for input to count. -/
def Armed (now : UInt64) : Prop := display.since.toNat + 500 ≤ now.toNat

instance (now : UInt64) : Decidable (display.Armed now) := inferInstanceAs (Decidable (_ ≤ _))

/-- A key pressed afresh. -/
def freshKey : Input → Option KeyEvent
  | .key event now =>
    if event.pressed = true ∧ event.repeated = false ∧ display.Armed now then some event else none
  | .pointer _ _ => none

/-- The left button pressed on a button, or released on one. -/
def pressedOn : Input → Option Button
  | .pointer event now =>
    if event.left = true ∧ event.leftWas = false ∧ display.Armed now then
      buttonAt (some display.prepared) event
    else none
  | .key _ _ => none

def releasedOn : Input → Option Button
  | .pointer event _ =>
    if event.left = false ∧ event.leftWas = true then buttonAt (some display.prepared) event
    else none
  | .key _ _ => none

/-- Whether a key pressed afresh moves the focus to the other button. -/
def movesFocus (input : Input) : Bool :=
  (display.freshKey input).any fun event =>
    !event.isLetter 121 && !event.isLetter 110 &&
      (event.key == .tab || event.key == .left || event.key == .right)

/-- The focus starts on No; a focus key moves it, and so does pressing a button. -/
def focus : List Input → Button
  | [] => .no
  | input :: earlier =>
    match display.pressedOn input with
    | some button => button
    | none => if display.movesFocus input then (focus earlier).other else focus earlier

/-- The button under the left button's last press, while it is down. -/
def held : List Input → Option Button
  | [] => none
  | .key _ _ :: earlier => held earlier
  | .pointer event now :: earlier =>
    if event.left = true ∧ event.leftWas = false then display.pressedOn (.pointer event now)
    else if event.left = false ∧ event.leftWas = true then none
    else held earlier

/-- The user says yes with this input, after the earlier ones on the same prompt. -/
def SaysYes (earlier : List Input) (input : Input) : Prop :=
  (∃ event, display.freshKey input = some event ∧ event.isLetter 121 = true) ∨
  (∃ event, display.freshKey input = some event ∧ (event.key = .enter ∨ event.ascii = 32) ∧
    display.focus earlier = .yes) ∨
  (display.held earlier = some .yes ∧ display.releasedOn input = some .yes)

end Display

/-! ## The invariant -/

/-- What the prompt's state says about the prompt on display. -/
structure Display.Shows (display : Display) (consent : Consent) (inputs : List Input) : Prop where
  connection : consent.connection = some display.connection
  valid : requestValid display.prepared.request = true
  prepared : consent.prepared = some display.prepared
  armedAt : consent.armedAt = display.since + consentArmMs
  room : display.since.toNat + 500 < 2 ^ 64
  focused : consent.focused = display.focus inputs
  pressed : consent.pressed = display.held inputs

/-- The session agrees with what is on display, and the connection that is still open
has not been answered. -/
structure Session.Sound (ses : Session) : Prop where
  shows : ses.consent.isOpen = true → ∃ display, ses.display = some display ∧
    display.Shows ses.consent ses.inputs
  current : ∀ connection, ses.consent.connection = some connection →
    connection.euid = 0 ∧ connection.number < ses.connections ∧
      ∀ reply, reply ∈ ses.replies → reply.1.number ≠ connection.number
  once : (ses.replies.map fun reply => reply.1.number).Nodup
  known : ∀ reply, reply ∈ ses.replies → reply.1.number < ses.connections

theorem Display.Shows.armed {display : Display} {consent : Consent} {inputs : List Input}
    (shows : display.Shows consent inputs) (now : UInt64) :
    ¬ now < consent.armedAt ↔ display.Armed now := by
  have room := shows.room
  rw [shows.armedAt, UInt64.lt_iff_toNat_lt, UInt64.toNat_add,
    Nat.mod_eq_of_lt (show display.since.toNat + consentArmMs.toNat < 2 ^ 64 from room)]
  exact Nat.not_lt

variable {now : UInt64}

namespace Session.Sound

variable {ses : Session}

variable {connections : Nat} {inputs : List Input}

section

variable (sound : ses.Sound)
include sound

/-- Replying to a connection that has not been answered, and hanging up. -/
theorem answered {consent : Consent} {display : Option Display}
    (v : Answer) (more : ses.connections ≤ connections)
    (fresh : ∀ connection, consent.connection = some connection → connection.number < connections ∧
      ∀ reply ∈ ses.replies, reply.1.number ≠ connection.number) :
    Sound ⟨(consent.answer v).1, connections, display, inputs,
      ses.replies ++ (consent.answer v).2⟩ := by
  refine ⟨nofun, nofun, ?_, ?_⟩
  · cases held : consent.connection with
    | none => simpa [Consent.answer, held] using sound.once
    | some connection =>
      simp only [Consent.answer, held, Option.toList_some, map_cons, map_nil,
        map_append, nodup_append, mem_map, mem_singleton]
      refine ⟨sound.once, nodup_singleton _, ?_⟩
      rintro _ ⟨reply, member, rfl⟩ _ rfl
      exact (fresh connection held).2 reply member
  · intro reply member
    rcases mem_append.mp member with before | new
    · exact Nat.lt_of_lt_of_le (sound.known reply before) more
    · simp only [Consent.answer, mem_map, Option.mem_toList] at new
      obtain ⟨connection, held, rfl⟩ := new
      exact (fresh connection held).1

theorem answers {display : Option Display} (v : Answer) (more : ses.connections ≤ connections) :
    Sound ⟨(ses.consent.answer v).1, connections, display, inputs,
      ses.replies ++ (ses.consent.answer v).2⟩ := by
  refine sound.answered v more fun connection held => ?_
  obtain ⟨_, below, fresh⟩ := sound.current connection held
  exact ⟨below.trans_le more, fresh⟩

/-- No reply, on the same connection. -/
theorem silent {consent : Consent} {display : Option Display}
    (same : consent.connection = ses.consent.connection ∨ consent.connection = none)
    (more : ses.connections ≤ connections)
    (shows : consent.isOpen = true → ∃ shown, display = some shown ∧ shown.Shows consent inputs) :
    Sound ⟨consent, connections, display, inputs, ses.replies ++ []⟩ := by
  rw [append_nil]
  refine ⟨shows, ?_, sound.once, fun reply member =>
    Nat.lt_of_lt_of_le (sound.known reply member) more⟩
  intro connection held
  rcases same with equal | gone
  · obtain ⟨euid, below, fresh⟩ := sound.current connection (equal ▸ held)
    exact ⟨euid, below.trans_le more, fresh⟩
  · cases gone.symm.trans held

/-- The request of the current connection is read. -/
theorem readRequest (closed : ses.consent.isOpen = false)
    (more : ses.connections ≤ connections) (screen : Option Screen)
    (room : now.toNat + 500 < 2 ^ 64) (got : Got) {connection : Connection}
    (held : ses.consent.connection = some connection) :
    let answered := ses.consent.readRequest screen now got
    Sound ⟨answered.1, connections, ses.displayAfter answered.1 now, [],
      ses.replies ++ answered.2⟩ := by
  unfold Consent.readRequest
  cases got with
  | again =>
    simp only
    split
    · exact sound.silent (.inl rfl) more fun up => nomatch closed.symm.trans up
    · exact sound.answers _ more
  | whole req =>
    simp only
    cases prepared : prepare req screen with
    | error why => exact sound.answers _ more
    | ok result =>
      refine sound.silent (.inl rfl) more fun _ => ⟨⟨connection, result, now⟩, ?_, ?_⟩
      · simp [displayAfter, Consent.newDisplay, Consent.display, closed, held]
      · obtain ⟨same, valid, _⟩ := prepare_ok prepared
        exact ⟨held, same ▸ valid, rfl, rfl, room, rfl, rfl⟩
  | bytes | ended => exact sound.answers _ more

/-- A client of the system is accepted. -/
theorem accepted (closed : ses.consent.isOpen = false)
    {euid : UInt32} (system : euid = 0) (deadline : UInt64) :
    Sound
      { ses with
        consent := { ses.consent with
          connection := some ⟨ses.connections, euid⟩, deadline := deadline }
        connections := ses.connections + 1 } := by
  refine ⟨fun up => (nomatch closed.symm.trans up), ?_, sound.once,
    fun reply member => Nat.lt_succ_of_lt (sound.known reply member)⟩
  rintro connection ⟨rfl⟩
  exact ⟨system, Nat.lt_succ_self _, fun reply member => Nat.ne_of_lt (sound.known reply member)⟩

theorem closed (none : ses.consent.connection = none) : ses.consent.isOpen = false := by
  cases up : ses.consent.isOpen with
  | false => rfl
  | true =>
    obtain ⟨display, _, shows⟩ := sound.shows up
    cases none.symm.trans shows.connection

omit sound in
/-- Hanging up on the broker, or not. -/
theorem watchBroker_cases (consent : Consent) (reads : List Got) :
    consent.watchBroker reads = consent ∨ consent.watchBroker reads = consent.dropConnection := by
  induction reads with
  | nil => exact .inl rfl
  | cons got rest ih => cases got <;> simp_all [Consent.watchBroker]

theorem service (screen : Option Screen)
    (room : now.toNat + 500 < 2 ^ 64) (euid : Option UInt32) (reads : List Got) :
    (ses.call (.service screen now euid reads)).2.Sound := by
  have more := Nat.le_succ ses.connections
  have still : ∀ up : ses.consent.isOpen = true, ∃ shown,
      ses.displayAfter ses.consent now = some shown ∧
        shown.Shows ses.consent (if ses.consent.isOpen = true then ses.inputs else []) := by
    intro up
    simpa [displayAfter, up] using sound.shows up
  simp only [call, Consent.service]
  split
  · exact sound.silent (.inl rfl) more still
  cases held : ses.consent.connection with
  | none =>
    have closed := sound.closed held
    cases euid with
    | none => exact sound.silent (.inl rfl) more still
    | some euid =>
      simp only [Option.map_some, closed, Bool.false_eq_true, if_false]
      by_cases system : euid = 0
      · simp only [system, ne_eq, not_true_eq_false, if_false]
        have read := (sound.accepted closed rfl (now + consentRequestMs)).readRequest closed
          le_rfl screen room (reads.headD .again) rfl
        simp only [displayAfter, closed] at read ⊢
        exact read
      · simp only [ne_eq, system, not_false_eq_true, if_true]
        refine sound.answered _ more ?_
        rintro connection ⟨rfl⟩
        exact ⟨Nat.lt_succ_self _, fun reply member => Nat.ne_of_lt (sound.known reply member)⟩
  | some connection =>
    simp only
    split
    · next closed =>
      simp only [closed, Bool.false_eq_true, if_false]
      exact sound.readRequest closed more screen room _ held
    · rcases watchBroker_cases ses.consent reads with same | gone
      · rw [same]
        exact sound.silent (.inl rfl) more still
      · rw [gone]
        exact sound.silent (.inr rfl) more nofun

/-- The prompt stays up and the input is one more on it. -/
theorem stays (up : ses.consent.isOpen = true)
    {t : Option Display} (kept : t = ses.display) {input : Input} {focused : Button}
    {pressed : Option Button}
    (now : ∀ display : Display, display.Shows ses.consent ses.inputs →
      focused = display.focus (input :: ses.inputs) ∧
      pressed = display.held (input :: ses.inputs)) :
    Sound ⟨{ ses.consent with focused := focused, pressed := pressed },
      ses.connections, t, input :: ses.inputs, ses.replies ++ []⟩ := by
  refine sound.silent (.inl rfl) le_rfl fun _ => ?_
  obtain ⟨display, here, shows⟩ := sound.shows up
  obtain ⟨focus, held⟩ := now display shows
  exact ⟨display, kept.trans here, shows.connection, shows.valid, shows.prepared, shows.armedAt,
    shows.room, focus, held⟩

/-- An input that means nothing to the prompt. -/
theorem ignored {t : Option Display} {input : Input}
    (kept : ses.consent.isOpen = true → t = ses.display)
    (nothing : ses.consent.isOpen = true → ∀ display : Display,
      display.Shows ses.consent ses.inputs →
      display.pressedOn input = none ∧ display.movesFocus input = false ∧
      display.held (input :: ses.inputs) = display.held ses.inputs) :
    Sound ⟨ses.consent, ses.connections, t, input :: ses.inputs, ses.replies ++ []⟩ := by
  by_cases up : ses.consent.isOpen = true
  · refine @stays ses sound up t (kept up) input ses.consent.focused
      ses.consent.pressed fun display shows => ?_
    obtain ⟨noPress, noMove, holds⟩ := nothing up display shows
    refine ⟨?_, shows.pressed.trans holds.symm⟩
    rw [shows.focused]
    simp [Display.focus, noPress, noMove]
  · exact sound.silent (.inl rfl) (Nat.le_refl _) fun yes => absurd yes up

theorem key (event : KeyEvent) (now : UInt64) :
    (ses.call (.input (.key event now))).2.Sound := by
  have still := Nat.le_refl ses.connections
  simp only [call, Consent.input, Consent.key]
  split
  · next swallowed =>
    refine sound.ignored (fun up => if_pos up) fun up display shows => ⟨rfl, ?_, rfl⟩
    have armed := shows.armed now
    simp only [Display.movesFocus, Display.freshKey, ← armed]
    rcases swallowed with down | up | again | early <;> simp_all
  next heard =>
    simp only [not_or, Bool.not_eq_false, Bool.not_eq_true] at heard
    obtain ⟨up, pressed, fresh, armed⟩ := heard
    have here : ∀ display : Display, display.Shows ses.consent ses.inputs →
        display.freshKey (.key event now) = some event := by
      intro display shows
      simp [Display.freshKey, pressed, fresh, (shows.armed now).mp armed]
    split
    · exact sound.answers _ still
    split
    · exact sound.answers _ still
    next notYes notNo =>
      split
      · next moves =>
        refine sound.stays up rfl fun display shows => ⟨?_, shows.pressed⟩
        have moved : display.movesFocus (.key event now) = true := by
          simp_all [Display.movesFocus, or_assoc]
        simp [Display.focus, Display.pressedOn, moved, shows.focused]
      · next keeps =>
        split
        · exact sound.answers _ still
        · refine sound.ignored (fun _ => rfl) fun up display shows => ⟨rfl, ?_, rfl⟩
          simp_all [Display.movesFocus]

theorem pointer (event : PointerEvent) (now : UInt64) :
    (ses.call (.input (.pointer event now))).2.Sound := by
  have still := Nat.le_refl ses.connections
  simp only [call, Consent.input, Consent.pointer]
  split
  · next down => exact sound.silent (.inl rfl) still fun up => nomatch down.symm.trans up
  next up =>
    have up : ses.consent.isOpen = true := by simpa using up
    split
    · next pressing =>
      refine sound.stays up rfl fun display shows => ?_
      have under : (if now < ses.consent.armedAt then none
          else buttonAt ses.consent.prepared event) =
          display.pressedOn (.pointer event now) := by
        simp only [Display.pressedOn, pressing, true_and, ← shows.armed now, shows.prepared]
        split <;> simp_all
      have keeps : display.movesFocus (.pointer event now) = false := rfl
      rw [under]
      refine ⟨?_, by simp [Display.held, pressing]⟩
      cases on : display.pressedOn (.pointer event now) with
      | none => simp [Display.focus, on, keeps, shows.focused]
      | some button => simp [Display.focus, on]
    next moving =>
      split
      · next releasing =>
        have lifted : Sound ⟨{ ses.consent with pressed := none },
            ses.connections, ses.display, .pointer event now :: ses.inputs,
            ses.replies ++ []⟩ := by
          refine sound.stays up rfl fun display shows => ⟨?_, ?_⟩
          · simp [Display.focus, Display.pressedOn, Display.movesFocus, Display.freshKey,
              releasing, shows.focused]
          · simp [Display.held, releasing]
        split
        · simpa [up] using lifted
        · split
          · exact sound.answered _ still fun connection held => (sound.current connection held).2
          · simpa [up] using lifted
      · next idle =>
        refine sound.ignored (fun _ => rfl) fun _ display shows => ?_
        have none : display.pressedOn (.pointer event now) = none := by
          exact if_neg fun pressing => moving ⟨pressing.1, pressing.2.1⟩
        exact ⟨none, rfl, by simp [Display.held, moving, idle]⟩

theorem step (call : Call) (timed : call.Timed) : (ses.call call).2.Sound := by
  cases call with
  | service screen now euid reads => exact sound.service screen timed.early ..
  | input input =>
    cases input with
    | key event now => exact sound.key event now
    | pointer event now => exact sound.pointer event now

theorem run (calls : List Call) (timed : ∀ call ∈ calls, call.Timed) :
    (ses.run calls).Sound := by
  induction calls generalizing ses with
  | nil => exact sound
  | cons call calls ih =>
    have each := forall_mem_cons.mp timed
    exact ih (sound.step call each.1) each.2

end

end Session.Sound

theorem consentInit_sound (port : Bool) : (consentInit port).Sound :=
  ⟨nofun, nofun, nodup_nil, nofun⟩

/-! ## Who says yes -/

namespace Consent

variable {consent : Consent} {connection : Connection} {v : Answer}

theorem mem_answer {given : Answer} : (connection, v) ∈ (consent.answer given).2 ↔
      consent.connection = some connection ∧ given = v := by
  simp [answer, and_comm]

theorem readRequest_no_yes (screen : Option Screen) (now : UInt64) (got : Got) :
    (connection, Answer.yes) ∉ (consent.readRequest screen now got).2 := by
  intro yes
  cases got with
  | again | whole =>
    simp only [readRequest] at yes
    split at yes
    · cases yes
    · exact nomatch (mem_answer.mp yes).2
  | bytes | ended => exact nomatch (mem_answer.mp yes).2

/-- Only a key or a click is answered with a yes. -/
theorem service_no_yes (screen : Option Screen) (now : UInt64) (accepted : Option Connection)
    (reads : List Got) : (connection, Answer.yes) ∉
      (consent.service screen now accepted reads).2 := by
  intro yes
  simp only [service] at yes
  split at yes
  · cases yes
  split at yes
  · split at yes
    · cases yes
    · split at yes
      · exact nomatch (mem_answer.mp yes).2
      · exact readRequest_no_yes _ _ _ yes
  · split at yes
    · exact readRequest_no_yes _ _ _ yes
    · cases yes

theorem key_yes {event : KeyEvent} (yes : (connection, Answer.yes) ∈ (consent.key event now).2) :
    consent.isOpen = true ∧ consent.connection = some connection ∧
      event.pressed = true ∧ event.repeated = false ∧ ¬ now < consent.armedAt ∧
      (event.isLetter 121 = true ∨
        (event.key = .enter ∨ event.ascii = 32) ∧ consent.focused = .yes) := by
  simp only [key] at yes
  split at yes
  · cases yes
  next heard =>
    simp only [not_or, Bool.not_eq_false, Bool.not_eq_true] at heard
    obtain ⟨up, pressed, fresh, armed⟩ := heard
    split at yes
    · next letter => exact ⟨up, (mem_answer.mp yes).1, pressed, fresh, armed, .inl letter⟩
    split at yes
    · exact nomatch (mem_answer.mp yes).2
    split at yes
    · cases yes
    split at yes
    · next chosen =>
      obtain ⟨held, given⟩ := mem_answer.mp yes
      refine ⟨up, held, pressed, fresh, armed, .inr ⟨chosen, ?_⟩⟩
      by_contra no
      cases (if_neg no).symm.trans given
    · cases yes

theorem pointer_yes {event : PointerEvent}
    (yes : (connection, Answer.yes) ∈ (consent.pointer event now).2) :
    consent.isOpen = true ∧ consent.connection = some connection ∧
      (event.left = false ∧ event.leftWas = true) ∧ consent.pressed = some .yes ∧
      buttonAt consent.prepared event = some .yes := by
  simp only [pointer] at yes
  split at yes
  · cases yes
  next up =>
    split at yes
    · cases yes
    split at yes
    · next releasing =>
      split at yes
      · cases yes
      · next button pressed =>
        split at yes
        · next on =>
          obtain ⟨held, given⟩ := mem_answer.mp yes
          cases button with
          | no => cases given
          | yes => exact ⟨by simpa using up, held, releasing, pressed, on⟩
        · cases yes
    · cases yes

end Consent

/-- A yes is what the user says, to a request on display for a system client. -/
theorem Session.Sound.deliberate {ses : Session} (sound : ses.Sound) {call : Call}
    {connection : Connection} (yes : (connection, Answer.yes) ∈ (ses.call call).1) :
    ∃ display input, ses.display = some display ∧ call = .input input ∧
      display.connection = connection ∧ connection.euid = 0 ∧
      requestValid display.prepared.request = true ∧ display.SaysYes ses.inputs input := by
  have opened : ses.consent.isOpen = true → ses.consent.connection = some connection →
      ∃ display, ses.display = some display ∧ display.Shows ses.consent ses.inputs ∧
        display.connection = connection ∧ connection.euid = 0 := by
    intro up held
    obtain ⟨display, here, shows⟩ := sound.shows up
    refine ⟨display, here, shows, ?_, (sound.current connection held).1⟩
    exact Option.some.inj (shows.connection.symm.trans held)
  cases call with
  | service screen now euid reads => exact absurd yes (Consent.service_no_yes _ _ _ _)
  | input input =>
    cases input with
    | key event now =>
      obtain ⟨up, held, pressed, fresh, armed, said⟩ := Consent.key_yes yes
      obtain ⟨display, here, shows, same, system⟩ := opened up held
      refine ⟨display, _, here, rfl, same, system, shows.valid, ?_⟩
      have new : display.freshKey (.key event now) = some event := by
        simp [Display.freshKey, pressed, fresh, (shows.armed now).mp armed]
      rcases said with letter | ⟨chosen, focused⟩
      · exact .inl ⟨event, new, letter⟩
      · exact .inr (.inl ⟨event, new, chosen, shows.focused.symm.trans focused⟩)
    | pointer event now =>
      obtain ⟨up, held, releasing, pressed, on⟩ := Consent.pointer_yes yes
      obtain ⟨display, here, shows, same, system⟩ := opened up held
      refine ⟨display, _, here, rfl, same, system, shows.valid, .inr (.inr ⟨?_, ?_⟩)⟩
      · exact shows.pressed.symm.trans pressed
      · rw [shows.prepared] at on
        simpa [Display.releasedOn, releasing] using on

/-- Whatever is called at times of the clock, a yes is written only for a request that has been
on display long enough and that the user says yes to, and no connection is answered twice. -/
theorem only_a_deliberate_act_answers_yes (port : Bool) (calls : List Call) (call : Call)
    (timed : ∀ made, made ∈ calls ++ [call] → made.Timed) :
    let session := (consentInit port).run calls
    (∀ connection, (connection, Answer.yes) ∈ (session.call call).1 →
      ∃ display input, session.display = some display ∧ call = .input input ∧
        display.connection = connection ∧ connection.euid = 0 ∧
        requestValid display.prepared.request = true ∧ display.SaysYes session.inputs input) ∧
    ((session.call call).2.replies.map fun reply => reply.1.number).Nodup := by
  intro session
  have sound : session.Sound :=
    (consentInit_sound port).run calls fun made member => timed made (mem_append_left _ member)
  exact ⟨fun connection yes => sound.deliberate yes, (sound.step call (timed call (by simp))).once⟩

/-- The system asks for `/b x` and the user presses Y. -/
def plainRequest : ConsentRequest := runRequest 2 [112, 0, 120, 0] (by decide)
def asks (now : UInt64) : Call := .service laptopScreen now (some 0) [.whole plainRequest]
def pressesY (now : UInt64) : Call := .input (.key ⟨true, false, .other, 121⟩ now)

theorem only_a_deliberate_act_answers_yes_y :
    (⟨0, 0⟩, Answer.yes) ∈ (((consentInit true).run [asks 0]).call (pressesY 500)).1 ∧
      ∃ display input, ((consentInit true).run [asks 0]).display = some display ∧
        display.SaysYes ((consentInit true).run [asks 0]).inputs input := by
  have timed : ∀ made, made ∈ [asks 0] ++ [pressesY 500] → made.Timed := by
    simp only [cons_append, nil_append, forall_mem_cons]
    exact ⟨⟨0, rfl⟩, ⟨500000000, rfl⟩, forall_mem_nil _⟩
  have yes : (⟨0, 0⟩, Answer.yes) ∈ (((consentInit true).run [asks 0]).call (pressesY 500)).1 := by
    decide +kernel
  obtain ⟨display, input, here, _, _, _, _, said⟩ :=
    (only_a_deliberate_act_answers_yes true [asks 0] (pressesY 500) timed).1 _ yes
  exact ⟨yes, display, input, here, said⟩

end SavanXP.Elevation
