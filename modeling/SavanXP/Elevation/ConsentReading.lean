import SavanXP.Elevation.ConsentText

/-!
# Reading the elevation prompt back

Escaping and quoting lose nothing: a text has one reading as a path and one as a
list of arguments.  Wrapping does lose something: a break at a space drops the
space, and a break inside a word that is too wide looks the same.  Where every word
fits the prompt, the drawn lines determine the command.
-/

namespace SavanXP.Elevation

open List

variable {text result : Bytes}

/-! ## Texts as concatenations -/

theorem textPut_some {piece : Bytes} (put : textPut text piece = some result) :
    result = text ++ piece := by
  unfold textPut at put
  split at put <;> simp_all

theorem textPutBytes_some {quoted : Bool} {bytes : Bytes}
    (put : textPutBytes quoted text bytes = some result) :
    result = text ++ bytes.flatMap (escape quoted) := by
  unfold textPutBytes at put
  induction bytes generalizing text with
  | nil => simp_all
  | cons v rest ih =>
    obtain ⟨middle, one, tail⟩ := Option.bind_eq_some_iff.mp put
    rw [ih tail, textPut_some one, flatMap_cons, append_assoc]

/-- An argument as it is shown. -/
def shownArgument (argument : Bytes) : Bytes :=
  if needsQuotes argument then quote :: (argument.flatMap (escape true) ++ [quote])
  else argument.flatMap (escape false)

/-- Arguments after the first, each behind a space. -/
def shownRest (arguments : List Bytes) : Bytes :=
  arguments.flatMap fun argument => space :: shownArgument argument

variable {argument : Bytes}

theorem putArgument_some {first : Bool} (put : putArgument text argument first = some result) :
    result = text ++ (if first then [] else [space]) ++ shownArgument argument := by
  obtain ⟨spaced, atStart, written⟩ := Option.bind_eq_some_iff.mp put
  have start : spaced = text ++ (if first then [] else [space]) := by
    cases first with
    | true => simp_all
    | false => exact textPut_some atStart
  unfold shownArgument
  split at written
  · next quoted =>
    obtain ⟨ins, filled, closed⟩ := Option.bind_eq_some_iff.mp written
    obtain ⟨opened, atQuote, bytes⟩ := Option.bind_eq_some_iff.mp filled
    rw [textPut_some closed, textPutBytes_some bytes, textPut_some atQuote, start, if_pos quoted]
    simp
  · next plain => rw [textPutBytes_some written, start, if_neg plain]

variable {arguments : List Bytes}

theorem putArguments_some {first : Bool} (put : putArguments text first arguments = some result) :
    result = text ++ (if first then (shownRest arguments).drop 1 else shownRest arguments) := by
  induction arguments generalizing text first with
  | nil =>
    cases put
    cases first <;> simp [shownRest]
  | cons argument rest ih =>
    obtain ⟨middle, one, tail⟩ := Option.bind_eq_some_iff.mp put
    rw [ih tail, putArgument_some one]
    cases first <;> simp [shownRest]

/-! ## One reading -/

/-- Reads one escaped byte. -/
def unescape : Bytes → Option (UInt8 × Bytes)
  | [] => none
  | v :: rest =>
    if v ≠ backslash then some (v, rest)
    else
      match rest with
      | 120 :: high :: low :: rest =>
        some ((range 16).findIdx (fun digit => hexDigit (UInt8.ofNat digit) == high) * 16 +
          (range 16).findIdx (fun digit => hexDigit (UInt8.ofNat digit) == low) |> UInt8.ofNat,
          rest)
      | v :: rest => some (v, rest)
      | [] => none

theorem escape_shapes : ∀ (quoted : Bool) (v : UInt8),
    (escape quoted v = [v] ∧ v ≠ backslash ∧ (quoted = true → v ≠ quote)) ∨
    (escape quoted v = [backslash, v] ∧ v ≠ 120) ∨
    ∃ high low, escape quoted v = [backslash, 120, high, low] ∧
      unescape [backslash, 120, high, low] = some (v, []) := by
  have finite : ∀ (quoted : Bool) (v : Fin 256),
      let byte := UInt8.ofNat v
      (escape quoted byte = [byte] ∧ byte ≠ backslash ∧ (quoted = true → byte ≠ quote)) ∨
      (escape quoted byte = [backslash, byte] ∧ byte ≠ 120) ∨
      (escape quoted byte = [backslash, 120, hexDigit (byte / 16), hexDigit (byte % 16)] ∧
        unescape [backslash, 120, hexDigit (byte / 16), hexDigit (byte % 16)] =
          some (byte, [])) := by
    decide +kernel
  intro quoted v
  have here := finite quoted ⟨v.toNat, v.toNat_lt⟩
  simp only [UInt8.ofNat_toNat] at here
  rcases here with plain | marked | hex
  · exact .inl plain
  · exact .inr (.inl marked)
  · exact .inr (.inr ⟨_, _, hex⟩)

theorem unescape_escape (quoted : Bool) (v : UInt8) (rest : Bytes) :
    unescape (escape quoted v ++ rest) = some (v, rest) := by
  rcases escape_shapes quoted v with ⟨shape, plain, _⟩ | ⟨shape, other⟩ | ⟨high, low, shape, read⟩
  · rw [shape]
    simp [unescape, plain]
  · rw [shape]
    cases rest <;> simp [unescape, other]
  · simp only [unescape] at read ⊢
    simp_all

variable {rest more : Bytes}

/-- The code is read off byte by byte. -/
theorem escape_append_inj {quoted : Bool} {v other : UInt8}
    (same : escape quoted v ++ rest = escape quoted other ++ more) : v = other ∧ rest = more := by
  have read := congrArg unescape same
  rw [unescape_escape, unescape_escape] at read
  exact Prod.mk.inj (Option.some.inj read)

theorem escape_ne_nil (quoted : Bool) (v : UInt8) (rest : Bytes) :
    escape quoted v ++ rest ≠ [] := by
  intro empty
  have read := unescape_escape quoted v rest
  rw [empty] at read
  cases read

variable {other : Bytes}

theorem flatMap_escape_inj {path : Bytes}
    (same : path.flatMap (escape false) = other.flatMap (escape false)) : path = other := by
  induction path generalizing other with
  | nil =>
    cases other with
    | nil => rfl
    | cons v rest => exact absurd same.symm (escape_ne_nil false v _)
  | cons v rest ih =>
    cases other with
    | nil => exact absurd same (escape_ne_nil false v _)
    | cons byte more =>
      obtain ⟨eq, tails⟩ := escape_append_inj same
      rw [eq, ih tails]

/-- Inside quotes no code starts with the closing quote. -/
theorem escape_quoted_ne (v : UInt8) (rest more : Bytes) :
    escape true v ++ rest ≠ quote :: more := by
  rcases escape_shapes true v with ⟨shape, _, plain⟩ | ⟨shape, _⟩ | ⟨high, low, shape, _⟩
  · simp [shape, plain rfl]
  all_goals simp [shape, backslash, quote]

theorem quoted_append_inj (same : argument.flatMap (escape true) ++ quote :: rest =
      other.flatMap (escape true) ++ quote :: more) : argument = other ∧ rest = more := by
  induction argument generalizing other with
  | nil =>
    cases other with
    | nil => exact ⟨rfl, (cons.inj same).2⟩
    | cons byte tail =>
      rw [flatMap_cons, append_assoc] at same
      exact absurd same.symm (escape_quoted_ne byte _ _)
  | cons v tail ih =>
    cases other with
    | nil =>
      rw [flatMap_cons, append_assoc] at same
      exact absurd same (escape_quoted_ne v _ _)
    | cons byte tail =>
      rw [flatMap_cons, flatMap_cons, append_assoc, append_assoc] at same
      obtain ⟨eq, tails⟩ := escape_append_inj same
      obtain ⟨rfl, ends⟩ := ih tails
      exact ⟨by rw [eq], ends⟩

/-- An argument without quotes is shown as it is, without spaces and quotes. -/
theorem plain_argument (plain : needsQuotes argument = false) :
    shownArgument argument = argument ∧ argument ≠ [] ∧ ∀ v ∈ argument, v ≠ space ∧ v ≠ quote := by
  have parts := plain
  simp only [needsQuotes, Bool.or_eq_false_iff, isEmpty_eq_false_iff, any_eq_false] at parts
  obtain ⟨filled, bytes⟩ := parts
  have each : ∀ v ∈ argument, escape false v = [v] ∧ v ≠ space ∧ v ≠ quote := by
    intro v mem
    have here := bytes v mem
    simp only [Bool.or_eq_true, beq_iff_eq, Bool.not_eq_true', not_or, Bool.not_eq_false] at here
    obtain ⟨⟨⟨notSpace, notQuote⟩, notBackslash⟩, shown⟩ := here
    exact ⟨by simp [escape, notBackslash, shown], notSpace, notQuote⟩
  refine ⟨?_, filled, fun v mem => (each v mem).2⟩
  rw [shownArgument, plain, if_neg Bool.false_ne_true]
  exact (flatMap_congr fun v mem => (each v mem).1).trans (flatMap_singleton' argument)

/-- What follows an argument: nothing, or a space and the next. -/
def Ended (rest : Bytes) : Prop := rest = [] ∨ rest.head? = some space

theorem plain_append_inj (one : ∀ v ∈ argument, v ≠ space)
    (two : ∀ v ∈ other, v ≠ space) (ended : Ended rest) (endedMore : Ended more)
    (same : argument ++ rest = other ++ more) : argument = other ∧ rest = more := by
  have read : ∀ {front back : Bytes}, (∀ v ∈ front, v ≠ space) → Ended back →
      (front ++ back).takeWhile (· ≠ space) = front := by
    intro front back ins closing
    rw [takeWhile_append_of_pos fun v mem => by simpa using ins v mem]
    rcases closing with rfl | head
    · simp
    · cases back with
      | nil => simp
      | cons v tail => simp_all
  have eq : argument = other := by
    rw [← read one ended, same, read two endedMore]
  exact ⟨eq, append_cancel_left (eq ▸ same)⟩

theorem shownArgument_append_inj (ended : Ended rest) (endedMore : Ended more)
    (same : shownArgument argument ++ rest = shownArgument other ++ more) :
    argument = other ∧ rest = more := by
  have apart : ∀ {front back : Bytes} {left right : Bytes}, needsQuotes front = true →
      needsQuotes back = false → shownArgument front ++ left ≠ shownArgument back ++ right := by
    intro front back left right quoted plain eq
    obtain ⟨shown, filled, bytes⟩ := plain_argument plain
    rw [shown, shownArgument, if_pos quoted] at eq
    cases back with
    | nil => exact filled rfl
    | cons v tail => exact (bytes v mem_cons_self).2 (cons.inj eq).1.symm
  cases one : needsQuotes argument <;> cases two : needsQuotes other
  · obtain ⟨shown, _, bytes⟩ := plain_argument one
    obtain ⟨shownOther, _, bytesOther⟩ := plain_argument two
    rw [shown, shownOther] at same
    exact plain_append_inj (fun v mem => (bytes v mem).1)
      (fun v mem => (bytesOther v mem).1) ended endedMore same
  · exact absurd same.symm (apart two one)
  · exact absurd same (apart one two)
  · rw [shownArgument, shownArgument, if_pos one, if_pos two] at same
    simp only [cons_append, append_assoc, nil_append] at same
    exact quoted_append_inj (cons.inj same).2

theorem shownRest_ended (arguments : List Bytes) : Ended (shownRest arguments) := by
  cases arguments with
  | nil => exact .inl rfl
  | cons argument rest => exact .inr rfl

theorem shownRest_inj {others : List Bytes} (same : shownRest arguments = shownRest others) :
    arguments = others := by
  induction arguments generalizing others with
  | nil =>
    cases others with
    | nil => rfl
    | cons argument rest => cases same
  | cons argument rest ih =>
    cases others with
    | nil => cases same
    | cons other more =>
      obtain ⟨eq, tails⟩ := shownArgument_append_inj (shownRest_ended rest)
        (shownRest_ended more) (cons.inj same).2
      rw [eq, ih tails]

theorem shownArgument_ne_nil (argument rest : Bytes) : shownArgument argument ++ rest ≠ [] := by
  cases quoted : needsQuotes argument with
  | true => simp [shownArgument, quoted]
  | false =>
    obtain ⟨shown, filled, _⟩ := plain_argument quoted
    simp [shown, filled]

theorem shownRest_drop_inj {others : List Bytes}
    (same : (shownRest arguments).drop 1 = (shownRest others).drop 1) : arguments = others := by
  cases arguments with
  | nil =>
    cases others with
    | nil => rfl
    | cons argument rest => exact absurd same.symm (shownArgument_ne_nil argument _)
  | cons argument rest =>
    cases others with
    | nil => exact absurd same (shownArgument_ne_nil argument _)
    | cons other more => exact shownRest_inj (congrArg (cons space) same)

/-! ## Lines and texts -/

variable {width lines pos : Nat} {found : List Line}

/-- Every word of a text fits the width together with the space before it, the last
one also with a space that ends the text. -/
def Legible (width : Nat) (text : Bytes) : Prop :=
  ∀ rest ∈ text.tails, ∀ word ∈ rest.inits, space ∉ word.tail →
    gfxTextWidth word ≤ width ∧
      (rest = word ++ [space] → gfxTextWidth (word ++ [space]) ≤ width)

instance : Decidable (Legible width text) :=
  inferInstanceAs (Decidable (∀ rest ∈ text.tails, ∀ word ∈ rest.inits, space ∉ word.tail →
    gfxTextWidth word ≤ width ∧
      (rest = word ++ [space] → gfxTextWidth (word ++ [space]) ≤ width)))

theorem Legible.drop (legible : Legible width text) (n : Nat) : Legible width (text.drop n) :=
  fun rest mem => legible rest (by
    rw [mem_tails] at mem ⊢
    exact mem.trans (drop_suffix n text))

/-- What fits is followed by a byte that does not. -/
theorem fitting_stops {probe : Bytes} (short : fitting width probe rest < rest.length) :
    width < gfxTextWidth (probe ++ rest.take (fitting width probe rest + 1)) := by
  induction rest generalizing probe with
  | nil => cases short
  | cons v rest ih =>
    unfold fitting at short ⊢
    split
    · next fits =>
      rw [if_pos fits] at short
      have later := ih (Nat.lt_of_succ_lt_succ short)
      rwa [append_assoc] at later
    · next wide => simpa using wide

theorem lastSpace_some {row : Bytes} {i : Nat} (last : lastSpace row = some i) :
    row[i]? = some space := by
  have here := find?_some last
  simp only [Bool.and_eq_true, beq_iff_eq] at here
  exact here.2

theorem lastSpace_none {row : Bytes} (last : lastSpace row = none) : space ∉ row.tail := by
  intro mem
  obtain ⟨i, here⟩ := mem_iff_getElem?.mp mem
  rw [getElem?_tail] at here
  have inside := (List.getElem?_eq_some_iff.mp here).1
  have passed := find?_eq_none.mp last (i + 1) (by simpa using inside)
  simp [here] at passed

/-- A line of a legible text ends with the text, or at a space that more follows. -/
theorem lineLength_legible (legible : Legible width rest) (filled : rest ≠ []) :
    rest.drop (lineLength width rest) = [] ∨ ∃ more, more ≠ [] ∧
      rest.drop (lineLength width rest) = space :: more := by
  set fits := fitting width [] rest with known
  by_cases whole : rest.length ≤ fits
  · have positive := length_pos_iff.mpr filled
    refine .inl (drop_eq_nil_iff.mpr ?_)
    rw [lineLength, ← known, if_neg (by omega), if_neg (by omega)]
    exact whole
  have stops := fitting_stops (by omega : fitting width [] rest < rest.length)
  rw [← known, nil_append] at stops
  have narrow := fun word mem => legible rest ((mem_tails ..).mpr suffix_rfl) word
    ((mem_inits ..).mpr mem)
  have some_fits : fits ≠ 0 := by
    intro zero
    rw [zero, Nat.zero_add] at stops
    have first := (narrow _ ( take_prefix 1 rest) (by cases rest <;> simp)).1
    omega
  have length : lineLength width rest = (lastSpace (rest.take fits)).getD fits := by
    rw [lineLength, ← known, if_neg some_fits, if_pos (by omega)]
  rw [length]
  -- the line ends at its last space, or else the next byte is one
  cases last : lastSpace (rest.take fits) with
  | some i =>
    have here := lastSpace_some last
    obtain ⟨inside, _⟩ := List.getElem?_eq_some_iff.mp here
    rw [length_take] at inside
    rw [getElem?_take, if_pos (by omega)] at here
    obtain ⟨_, here⟩ := List.getElem?_eq_some_iff.mp here
    rw [Option.getD_some, drop_eq_getElem_cons (by omega), here]
    refine .inr ⟨_, fun nothing => ?_, rfl⟩
    have short := drop_eq_nil_iff.mp nothing
    omega
  | none =>
    have word := lastSpace_none last
    have split := take_append_drop fits rest
    rw [Option.getD_none]
    rw [drop_eq_getElem_cons (by omega)] at split ⊢
    set next := rest[fits]
    have taken : rest.take (fits + 1) = rest.take fits ++ [next] := by
      rw [take_add_one, getElem?_eq_getElem (by omega), Option.toList_some]
    have longer : (rest.take fits ++ [next]).tail = (rest.take fits).tail ++ [next] := by
      refine tail_append_of_ne_nil fun nothing => some_fits ?_
      have empty := congrArg List.length nothing
      rw [length_take, length_nil] at empty
      omega
    have spaced : next = space := by
      by_contra other
      have fit := (narrow _ ( take_prefix (fits + 1) rest) (by
        rw [taken, longer, mem_append, mem_singleton, not_or]
        exact ⟨word, Ne.symm other⟩)).1
      omega
    rw [spaced]
    refine .inr ⟨_, fun nothing => ?_, rfl⟩
    rw [nothing, spaced] at split
    have fit := (narrow _ ( take_prefix fits rest) word).2 split.symm
    rw [taken, spaced] at stops
    omega

/-- The lines of a legible text are the text, with a space at each break. -/
theorem wrapFrom_join (legible : Legible width rest)
    (wrapped : wrapFrom width lines pos rest = some found) :
    rest = [space].intercalate (found.map Line.bytes) := by
  induction lines generalizing pos rest found with
  | zero =>
    cases rest with
    | nil => cases wrapped; rfl
    | cons v rest => cases wrapped
  | succ lines ih =>
    rcases eq_or_ne rest [] with rfl | filled
    · cases wrapped
      rfl
    have line := take_append_drop (lineLength width rest) rest
    have ends := lineLength_legible legible filled
    have tails := legible.drop (lineLength width rest)
    cases rest with
    | nil => exact absurd rfl filled
    | cons v rest =>
      simp only [wrapFrom] at wrapped
      generalize v :: rest = rest at *
      obtain ⟨after, wrappedAfter, rfl⟩ := Option.map_eq_some_iff.mp wrapped
      rcases ends with complete | ⟨more, some_more, follows⟩
      · rw [complete] at wrappedAfter line
        obtain rfl : after = [] := by cases lines <;> cases wrappedAfter <;> rfl
        simpa using line.symm
      · rw [follows] at wrappedAfter line tails
        have rests : more = _ := ih (tails.drop 1) wrappedAfter
        cases after with
        | nil => exact absurd rests some_more
        | cons one after =>
          refine line.symm.trans ?_
          rw [map_cons, map_cons, intercalate_cons_cons, ← map_cons, ← rests]
          simp

/-! ## What the prompt determines -/

theorem wrap_inj {one two : Bytes} {text other : Text} (legible : Legible width one)
    (legibleTwo : Legible width two) (wrapped : wrap width one = some text)
    (wrappedTwo : wrap width two = some other) (drawn : text.drawn = other.drawn) : one = two := by
  obtain ⟨_, lines, rfl⟩ := Option.map_eq_some_iff.mp wrapped
  obtain ⟨_, linesTwo, rfl⟩ := Option.map_eq_some_iff.mp wrappedTwo
  rw [wrapFrom_join legible lines, wrapFrom_join legibleTwo linesTwo]
  exact congrArg _ drawn

/-- What a request shows has no word that is too wide for the screen. -/
structure ConsentRequest.Legible (request : ConsentRequest) (screen : Option Screen) : Prop where
  program : Elevation.Legible (valueWidth screen).toNat (request.program.flatMap (escape false))
  arguments : Elevation.Legible (valueWidth screen).toNat
    ((shownRest (request.arguments.drop 1)).drop 1)

/-- A request to run `/b` with some arguments. -/
def runRequest (argc : UInt32) (args : Bytes) (fits : args.length ≤ argsCapacity) :
    ConsentRequest where
  magic := consentMagic
  version := consentVersion
  requesterPid := 7
  requesterUid := 1
  requesterName := replicate nameCapacity 0
  path := [47, 98] ++ replicate (pathCapacity - 2) 0
  argc := argc
  args := args ++ replicate (argsCapacity - args.length) 0
  nameSize := by decide
  pathSize := by decide
  argsSize := by simp [Nat.add_sub_cancel' fits]

def laptopScreen : Option Screen := some ⟨1024, 768⟩

/-- What is drawn for an accepted request. -/
def drawnFor (req : ConsentRequest) : Option (List Bytes × List Bytes) :=
  match prepare req laptopScreen with
  | .ok prepared => some (prepared.program.drawn, prepared.arguments.drawn)
  | .error _ => none

theorem drawnFor_some {req : ConsentRequest} {program arguments : List Bytes}
    (drawn : drawnFor req = some (program, arguments)) : ∃ prepared,
      prepare req laptopScreen = .ok prepared ∧ prepared.program.drawn = program ∧
        prepared.arguments.drawn = arguments := by
  unfold drawnFor at drawn
  split at drawn <;> cases drawn
  exact ⟨_, ‹_›, rfl, rfl⟩

/-- Forty letters, an argument with a space and a control byte in it, and forty
letters again; the program's name for itself is not shown. -/
def wrappedRequest (name : UInt8) : ConsentRequest :=
  runRequest 4 ([name, 0] ++ replicate 40 97 ++ [0, 98, 32, 1, 0] ++ replicate 40 99 ++ [0])
    (by simp [argsCapacity])

/-- A line of sixty-two letters fills the prompt. -/
def wideLine : Bytes := List.replicate 62 97

/-- `p aa…a b` and `p aa…ab`. -/
def spacedRequest : ConsentRequest := runRequest 3 ([112, 0] ++ wideLine ++ [0, 98, 0]) (by decide)
def joinedRequest : ConsentRequest := runRequest 2 ([112, 0] ++ wideLine ++ [98, 0]) (by decide)

end SavanXP.Elevation
