import Mathlib

/-!
# What the elevation prompt shows

The request that the elevation broker sends to `windowd` and the text that
`windowd_consent.c` makes of it.  A byte the font would not show as itself is
escaped, an argument that is empty or could be misread is quoted, and the text is
wrapped to the width of the prompt.
-/

namespace SavanXP.Elevation

abbrev Bytes := List UInt8

def consentMagic : UInt32 := 0x534e4f43
def consentVersion : UInt32 := 2
def pathCapacity : Nat := 128
def argsCapacity : Nat := 384
def maxArgs : Nat := 16
def nameCapacity : Nat := 32

/-- `strlen` and what follows the string's end, in a buffer. -/
def firstString (bytes : Bytes) : Bytes := bytes.takeWhile (· ≠ 0)
def afterString (bytes : Bytes) : Bytes := (bytes.dropWhile (· ≠ 0)).drop 1

/-- The next strings of a buffer, back to back. -/
def strings : Nat → Bytes → List Bytes
  | 0, _ => []
  | n + 1, bytes => firstString bytes :: strings n (afterString bytes)

/-- Whether the next strings all end inside the buffer. -/
def stringsEnd : Nat → Bytes → Bool
  | 0, _ => true
  | n + 1, bytes => bytes.contains 0 && stringsEnd n (afterString bytes)

/-- `savanxp_elevation_args_valid`. -/
def elevationArgsValid (args : Bytes) (argc : UInt32) : Bool :=
  argc != 0 && decide (argc.toNat ≤ maxArgs) && stringsEnd argc.toNat args

/-- `savanxp_consent_request`; its character arrays have fixed sizes. -/
structure ConsentRequest where
  magic : UInt32
  version : UInt32
  requesterPid : UInt32
  requesterUid : UInt32
  requesterName : Bytes
  path : Bytes
  argc : UInt32
  args : Bytes
  nameSize : requesterName.length = nameCapacity
  pathSize : path.length = pathCapacity
  argsSize : args.length = argsCapacity

/-- The program's path and the arguments it would get, `argv[0]` included. -/
def ConsentRequest.program (request : ConsentRequest) : Bytes := firstString request.path
def ConsentRequest.arguments (request : ConsentRequest) : List Bytes :=
  strings request.argc.toNat request.args

def requestValid (request : ConsentRequest) : Bool :=
  request.magic == consentMagic && request.version == consentVersion && request.path.contains 0 &&
    request.requesterName.contains 0 && elevationArgsValid request.args request.argc

/-! ## Formatting -/

def textCapacity : Nat := argsCapacity * 4 + maxArgs * 3 + 1
def maxLines : Nat := 48

def space : UInt8 := 32
def quote : UInt8 := 34
def backslash : UInt8 := 92

def printable (v : UInt8) : Bool := 0x20 ≤ v && v < 0x7f

def hexDigit (v : UInt8) : UInt8 := if v < 10 then 48 + v else 87 + v

def textPut (text piece : Bytes) : Option Bytes :=
  if textCapacity ≤ text.length + piece.length then none else some (text ++ piece)

/-- One byte, escaped when it has to be; inside quotes the quote is too. -/
def escape (quoted : Bool) (v : UInt8) : Bytes :=
  if v = backslash ∨ (quoted = true ∧ v = quote) then [backslash, v]
  else if printable v = false then [backslash, 120, hexDigit (v / 16), hexDigit (v % 16)]
  else [v]

def textPutBytes (quoted : Bool) (text bytes : Bytes) : Option Bytes :=
  bytes.foldlM (fun text v => textPut text (escape quoted v)) text

def formatProgram (path : Bytes) : Option Bytes := textPutBytes false [] path

def needsQuotes (argument : Bytes) : Bool :=
  argument.isEmpty || argument.any fun v =>
    v == space || v == quote || v == backslash || !printable v

/-- One argument, after a space unless it is the first. -/
def putArgument (text argument : Bytes) (first : Bool) : Option Bytes :=
  (if first then some text else textPut text [space]).bind fun spaced =>
    if needsQuotes argument then
      ((textPut spaced [quote]).bind fun opened => textPutBytes true opened argument).bind
        fun written => textPut written [quote]
    else textPutBytes false spaced argument

def putArguments : Bytes → Bool → List Bytes → Option Bytes
  | text, _, [] => some text
  | text, first, argument :: rest =>
    (putArgument text argument first).bind fun t => putArguments t false rest

/-- `argv[0]` is not shown. -/
def formatArguments (args : Bytes) (argc : UInt32) : Option Bytes :=
  putArguments [] true ((strings argc.toNat args).drop 1)

/-! ## Wrapping -/

/-- The advances of the interface font, from the space to the tilde. -/
def advances : List Nat :=
  [3, 3, 5, 7, 6, 8, 6, 2, 3, 3, 4, 6, 3, 3, 3, 5, 6, 6, 6, 6, 6, 6, 6, 6, 6, 6, 3, 3, 6, 6, 6, 6,
    11, 7, 7, 7, 8, 7, 6, 8, 8, 3, 5, 7, 6, 9, 8, 8, 7, 8, 8, 7, 7, 8, 7, 11, 7, 7, 7, 3, 5, 3, 6,
    6, 3, 6, 6, 6, 6, 6, 3, 6, 6, 2, 2, 6, 2, 8, 6, 6, 6, 6, 3, 5, 3, 6, 6, 8, 5, 5, 5, 4, 2, 4, 7]

/-- The width of a text; every text that is measured here is printable, one glyph a
byte. -/
def gfxTextWidth (text : Bytes) : Nat :=
  (text.map fun v => advances.getD (v.toNat - 32) 3).sum

def gfxTextHeight : Nat := 13

/-- How many bytes fit the width after those already on the line. -/
def fitting (width : Nat) : Bytes → Bytes → Nat
  | _, [] => 0
  | probe, v :: rest =>
    if gfxTextWidth (probe ++ [v]) ≤ width then fitting width (probe ++ [v]) rest + 1 else 0

/-- The last space of the row that is not its first byte. -/
def lastSpace (row : Bytes) : Option Nat :=
  (List.range row.length).reverse.find? fun i => 0 < i && row[i]? == some space

/-- The length of the line that starts with these bytes. -/
def lineLength (width : Nat) (rest : Bytes) : Nat :=
  let fits := fitting width [] rest
  if fits = 0 then 1
  else if fits < rest.length then (lastSpace (rest.take fits)).getD fits
  else fits

/-- A line of a text: where it starts and its bytes. -/
structure Line where
  start : Nat
  bytes : Bytes
  deriving DecidableEq

/-- How many bytes are dropped after a line: the space there, if there is one. -/
def droppedAt (after : Bytes) : Nat := if after.head? = some space then 1 else 0

/-- The lines of the rest of a text from a position on, with so many lines left. -/
def wrapFrom (width : Nat) : Nat → Nat → Bytes → Option (List Line)
  | _, _, [] => some []
  | 0, _, _ :: _ => none
  | lines + 1, pos, rest =>
    let length := lineLength width rest
    let after := rest.drop length
    (wrapFrom width lines (pos + length + droppedAt after) (after.drop (droppedAt after))).map
      (⟨pos, rest.take length⟩ :: ·)

/-- `windowd_consent_text`. -/
structure Text where
  text : Bytes
  lines : List Line

/-- The strings that `draw_field` draws. -/
def Text.drawn (text : Text) : List Bytes := text.lines.map Line.bytes

def wrap (width : Nat) (text : Bytes) : Option Text :=
  (wrapFrom width maxLines 0 text).map (⟨text, ·⟩)

/-! ## The prompt -/

def consentWidth : Int := 480
def captionHeight : Int := 20
def padding : Int := 14
def buttonHeight : Int := 24

/-- `savanxp_fb_info`, as far as the prompt looks at it. -/
structure Screen where
  width : UInt32
  height : UInt32

/-- The C conversion to `int`. -/
def toInt (v : UInt32) : Int := v.toInt32.toInt

def lineHeight : Int := gfxTextHeight + 4

def requestedBy : Bytes := [82, 101, 113, 117, 101, 115, 116, 101, 100, 32, 98, 121, 58]
def argumentsLabel : Bytes := [65, 114, 103, 117, 109, 101, 110, 116, 115, 58]

def labelColumn : Nat := max (gfxTextWidth requestedBy) (gfxTextWidth argumentsLabel) + 10

inductive Refusal
  | EINVAL
  | E2BIG
  deriving DecidableEq

/-- What `prepare` leaves in the prompt. -/
structure Prepared where
  request : ConsentRequest
  requester : Bytes
  program : Text
  arguments : Text
  width : Int
  height : Int

def promptWidth (screen : Option Screen) : Int :=
  match screen with
  | some screen => min consentWidth (toInt screen.width)
  | none => consentWidth

def promptHeight (program arguments : Text) : Int :=
  3 + captionHeight + padding + 2 * lineHeight + lineHeight / 2 +
    ((program.lines.length + arguments.lines.length : Nat) + 1) * lineHeight + lineHeight / 2 +
    buttonHeight + padding

/-- The width left for the values, beside their labels. -/
def valueWidth (screen : Option Screen) : Int := promptWidth screen - 2 * padding - labelColumn

def prepare (request : ConsentRequest) (screen : Option Screen) : Except Refusal Prepared :=
  if requestValid request = false then .error .EINVAL
  else if valueWidth screen < gfxTextWidth [77, 77, 77, 77] then .error .E2BIG
  else
    match (formatProgram request.program).bind (wrap (valueWidth screen).toNat),
        (formatArguments request.args request.argc).bind (wrap (valueWidth screen).toNat) with
    | some program, some arguments =>
      if screen.any fun screen => decide (toInt screen.height < promptHeight program arguments) then
        .error .E2BIG
      else
        .ok { request, program, arguments
              requester := (firstString request.requesterName).map fun v =>
                if printable v then v else 63
              width := promptWidth screen
              height := promptHeight program arguments }
    | _, _ => .error .E2BIG

theorem prepare_ok {request : ConsentRequest} {screen : Option Screen} {prepared : Prepared}
    (accepted : prepare request screen = .ok prepared) :
    prepared.request = request ∧ requestValid request = true ∧
      (formatProgram request.program).bind (wrap (valueWidth screen).toNat) =
        some prepared.program ∧
      (formatArguments request.args request.argc).bind (wrap (valueWidth screen).toNat) =
        some prepared.arguments := by
  unfold prepare at accepted
  split at accepted
  · cases accepted
  next valid =>
    split at accepted
    · cases accepted
    split at accepted
    · next program arguments foundProgram foundArguments =>
      split at accepted <;> cases accepted
      exact ⟨rfl, by simpa using valid, foundProgram, foundArguments⟩
    · cases accepted

end SavanXP.Elevation
