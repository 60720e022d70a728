import SavanXP.Sxe.Icons

/-!
# Metadata in a resource

The records of a metadata blob are walked once when it is opened.  The lookups
walk them again without a check.  Here every access is checked by the model, and
none fails.
-/

namespace SavanXP.Sxe

open List

def pad4 (v : Nat) : Nat :=
  if 0xfffffffc < v then 0xffffffff else (v + 3) / 4 * 4

def sxeTagIsKnown (tag : Nat) : Bool :=
  tag ∈ [1, 2, 3, 4, 5, 6, 7, 0x101, 0x102, 0x103, 0x201, 0x202, 0x301, 0x302, 0x401]

/-- The records start at `records` bytes into the blob. -/
structure Meta where
  records : Nat
  recordsBytes : Nat
  recordCount : Nat
  version : Nat

def metaWalk (blob : List UInt8) (blobBytes : Nat) : Nat → Nat → Nat → Reader (Nat × Nat)
  | 0, _, _ => .error .endless
  | rounds + 1, offset, seen =>
    if offset < blobBytes then do
      require (8 ≤ blobBytes - offset) .truncated
      let tag ← load blob 2 offset
      let flags ← load blob 2 (offset + 2)
      let length ← load blob 4 (offset + 4)
      let payloadOffset := offset + 8
      require (length ≤ blobBytes - payloadOffset) .truncated
      require (flags % 2 = 0 ∨ sxeTagIsKnown tag) .requiredUnknown
      let padded := pad4 length
      require (length ≤ padded ∧ padded ≤ blobBytes - payloadOffset) .truncated
      metaWalk blob blobBytes rounds (payloadOffset + padded) (seen + 1)
    else .ok (offset, seen)

def sxeMetaOpen (a : Nat) (blob : List UInt8) : Reader Meta := do
  let hdr ← openHeader [83, 88, 77, 69] 4096 a blob
  require (hdr.blobBytes % 4 = 0) .malformed
  let walked ← metaWalk blob hdr.blobBytes (hdr.blobBytes + 1) hdr.headerBytes 0
  require (walked.1 = hdr.blobBytes) .malformed
  require (walked.2 = hdr.count) .malformed
  return { records := hdr.headerBytes, recordsBytes := hdr.blobBytes - hdr.headerBytes
           recordCount := hdr.count, version := hdr.version }

/-- The records that were looked at are listed. -/
def findLoop (blob : List UInt8) (tag : Nat) (m : Meta) :
    Nat → Nat → List Nat → Reader (List Nat × Option (Nat × Nat))
  | 0, _, _ => .error .endless
  | rounds + 1, offset, visited =>
    if offset + 8 ≤ m.recordsBytes then do
      let found ← load blob 2 (m.records + offset)
      let length ← load blob 4 (m.records + offset + 4)
      let visited := visited ++ [m.records + offset]
      if found = tag then return (visited, some (m.records + offset + 8, length))
      findLoop blob tag m rounds ((offset + 8 + pad4 length) % 2 ^ 32) visited
    else .ok (visited, none)

/-- The payload's place in the blob and its length, after the records that were looked at. -/
def sxeMetaFind (blob : List UInt8) (m : Meta) (tag : Nat) :
    Reader (List Nat × Option (Nat × Nat)) :=
  findLoop blob tag m (m.recordsBytes + 1) 0 []

def byteAt (blob : List UInt8) (offset : Nat) : Reader UInt8 :=
  match blob[offset]? with
  | some v => .ok v
  | none => .error .outside

def store (out : List UInt8) (i : Nat) (v : UInt8) : Reader (List UInt8) :=
  if i < out.length then .ok (out.set i v) else .error .outside

/-- Copies as much as fits; `stops` says whether a NUL ends the text. -/
def copyLoop (blob : List UInt8) (text length : Nat) (stops : Bool) :
    Nat → Nat → List UInt8 → Reader (Nat × List UInt8)
  | 0, _, _ => .error .endless
  | rounds + 1, copied, out =>
    if copied < length ∧ copied + 1 < out.length then do
      let v ← byteAt blob (text + copied)
      if stops ∧ v = 0 then return (copied, out)
      copyLoop blob text length stops rounds (copied + 1) (← store out copied v)
    else .ok (copied, out)

def copyText (blob : List UInt8) (stops : Bool) (out : List UInt8) :
    Option (Nat × Nat) → Reader (Nat × List UInt8)
  | none => .ok (0, out)
  | some (text, length) => do
    let (copied, out) ← copyLoop blob text length stops (length + 1) 0 out
    return (copied, ← store out copied 0)

/-- The buffer has the capacity it is given with. -/
def sxeMetaString (blob : List UInt8) (m : Meta) (tag : Nat) (out : List UInt8) :
    Reader (Nat × List UInt8) :=
  if out = [] then .ok (0, out)
  else do
    let out ← store out 0 0
    copyText blob true out (← sxeMetaFind blob m tag).2

def sxeMetaNumber (width : Nat) (blob : List UInt8) (m : Meta) (tag : Nat) :
    Reader (Option Nat) := do
  match (← sxeMetaFind blob m tag).2 with
  | none => return none
  | some (payload, length) =>
    if length = width then return some (← load blob width payload) else return none

def sxeMetaU32 : List UInt8 → Meta → Nat → Reader (Option Nat) := sxeMetaNumber 4

def sxeMetaU8 : List UInt8 → Meta → Nat → Reader (Option Nat) := sxeMetaNumber 1

def sxeMetaVersion (blob : List UInt8) (m : Meta) : Reader (Option (List Nat)) := do
  match (← sxeMetaFind blob m 3).2 with
  | none => return none
  | some (payload, length) =>
    if length = 8 then
      return some [← load blob 2 payload, ← load blob 2 (payload + 2), ← load blob 2 (payload + 4),
        ← load blob 2 (payload + 6)]
    else return none

/-- The end of the piece that `cursor` is in. -/
def pieceEnd (blob : List UInt8) (text length : Nat) : Nat → Nat → Reader Nat
  | 0, _ => .error .endless
  | rounds + 1, cursor =>
    if cursor < length then do
      if (← byteAt blob (text + cursor)) = 0 then return cursor
      pieceEnd blob text length rounds (cursor + 1)
    else .ok cursor

def entryLoop (blob : List UInt8) (text length i : Nat) : Nat → Nat → Nat →
    Reader (Option (Nat × Nat))
  | 0, _, _ => .error .endless
  | rounds + 1, start, seen =>
    if start < length then do
      let cursor ← pieceEnd blob text length (length + 1) start
      if start < cursor ∧ seen = i then return some (text + start, cursor - start)
      entryLoop blob text length i rounds (cursor + 1) (if start < cursor then seen + 1 else seen)
    else .ok none

def sxeListEntry (blob : List UInt8) (m : Meta) (tag : Nat) : Int → Reader (Option (Nat × Nat))
  | .negSucc _ => .ok none
  | .ofNat i => do
    match (← sxeMetaFind blob m tag).2 with
    | none => return none
    | some (text, length) => entryLoop blob text length i (length + 1) 0 0

def listCountLoop (blob : List UInt8) (m : Meta) (tag : Nat) : Nat → Nat → Reader Nat
  | 0, _ => .error .endless
  | rounds + 1, n => do
    if (← sxeListEntry blob m tag n) = none then return n
    listCountLoop blob m tag rounds (n + 1)

def sxeMetaListCount (blob : List UInt8) (m : Meta) (tag : Nat) : Reader Nat :=
  listCountLoop blob m tag (blob.length + 1) 0

def sxeMetaListAt (blob : List UInt8) (m : Meta) (tag : Nat) (i : Int) (out : List UInt8) :
    Reader (Nat × List UInt8) :=
  if out = [] then .ok (0, out)
  else do
    let out ← store out 0 0
    copyText blob false out (← sxeListEntry blob m tag i)

/-! ## What the blob holds -/

structure Record where
  offset : Nat
  tag : Nat
  length : Nat

def Record.payload (r : Record) : Nat := r.offset + 8

/-- Records that follow each other from an offset of the blob to `stop`. -/
inductive Laid (blob : List UInt8) (stop : Nat) : Nat → List Record → Prop where
  | nil : Laid blob stop stop []
  | cons {offset tag length : Nat} {rest : List Record} (tagged : load blob 2 offset = .ok tag)
      (sized : load blob 4 (offset + 4) = .ok length) (covers : length ≤ pad4 length)
      (more : Laid blob stop (offset + 8 + pad4 length) rest) :
      Laid blob stop offset (⟨offset, tag, length⟩ :: rest)

/-- The non-empty pieces between NULs. -/
def pieces (bytes : List UInt8) : List (List UInt8) := (bytes.splitOn 0).filter (· ≠ [])

def Within (blob : List UInt8) (found : Option (Nat × Nat)) : Prop :=
  ∀ place ∈ found, place.1 + place.2 ≤ blob.length

def bytesAt (blob : List UInt8) (place : Nat × Nat) : List UInt8 := (blob.drop place.1).take place.2

/-- The number that bytes stand for, the lowest first. -/
def number (bytes : List UInt8) : Nat := Nat.ofDigits 256 (bytes.map UInt8.toNat)

/-- The number that a payload of this size stands for. -/
def numberOf (width : Nat) (payload : List UInt8) : Option Nat :=
  if payload.length = width then some (number payload) else none

def versionOf (payload : List UInt8) : Option (List Nat) :=
  if payload.length = 8 then some ([0, 2, 4, 6].map fun place =>
    number (bytesAt payload (place, 2)))
  else none

/-- A buffer after a text was put into it: as much of the text as leaves room for the NUL behind
it, and its length. -/
def putText (text out : List UInt8) : Nat × List UInt8 :=
  if out = [] then (0, [])
  else ((text.take (out.length - 1)).length,
    text.take (out.length - 1) ++ 0 :: out.drop ((text.take (out.length - 1)).length + 1))

/-- The text that a NUL may end. -/
def ended (stops : Bool) (bytes : List UInt8) : List UInt8 :=
  if stops then bytes.takeWhile (· ≠ 0) else bytes

section

variable {blob : List UInt8} {stop offset tag text length : Nat} {records : List Record}

theorem Laid.room (laid : Laid blob stop offset records) : offset + 8 * records.length ≤ stop := by
  induction laid with
  | nil => exact le_rfl
  | cons _ _ _ _ ih =>
    rw [length_cons]
    omega

theorem Laid.inside (laid : Laid blob stop offset records) :
    ∀ r ∈ records, r.payload + r.length ≤ stop := by
  induction laid with
  | nil => nofun
  | cons _ _ covers more ih =>
    have room := more.room
    refine forall_mem_cons.mpr ⟨?_, ih⟩
    simp only [Record.payload]
    omega

theorem metaWalk_laid {rounds seen total : Nat}
    (walked : metaWalk blob stop rounds offset seen = .ok (stop, total)) :
    ∃ records, Laid blob stop offset records ∧ total = seen + records.length := by
  induction rounds generalizing offset seen with
  | zero => cases walked
  | succ rounds ih =>
    unfold metaWalk at walked
    split at walked
    · simp only [bind_ok, require_ok, decide_eq_true_eq] at walked
      obtain ⟨_, _, tag, tagged, _, _, length, sized, _, _, _, _, _, fits, t⟩ := walked
      obtain ⟨records, laid, sum⟩ := ih t
      exact ⟨_, .cons tagged sized fits.1 laid, by rw [sum, length_cons]; omega⟩
    · cases walked
      exact ⟨[], .nil, rfl⟩

variable {m : Meta}

/-- A lookup goes from record to record and stops at the first one with the tag. -/
theorem findLoop_laid (laid : Laid blob stop offset records) (short : stop < 2 ^ 32)
    {place : Nat} (from_base : offset = m.records + place)
    (whole : stop = m.records + m.recordsBytes)
    {rounds : Nat} (fuel : records.length < rounds) (visited : List Nat) :
    findLoop blob tag m rounds place visited =
      .ok (visited ++ (records.take (records.findIdx (·.tag = tag) + 1)).map (·.offset),
        (records.find? (·.tag = tag)).map fun r => (r.payload, r.length)) := by
  induction laid generalizing place rounds visited with
  | nil =>
    obtain ⟨rounds, rfl⟩ := Nat.exists_eq_succ_of_ne_zero (Nat.ne_of_gt fuel)
    rw [findLoop, if_neg (by omega)]
    simp
  | @cons offset other length rest tagged sized covers more ih =>
    obtain ⟨rounds, rfl⟩ := Nat.exists_eq_succ_of_ne_zero (Nat.ne_zero_of_lt fuel)
    have room := more.room
    subst from_base
    rw [findLoop, if_pos (by omega), tagged, sized]
    simp only [bind, Except.bind]
    split
    · next eq => simp [eq, findIdx_cons, Record.payload, pure, Except.pure]
    · next other =>
      have next := @ih ((place + 8 + pad4 length) % 2 ^ 32)
        (by rw [Nat.mod_eq_of_lt (by omega)]; omega) rounds (Nat.lt_of_succ_lt_succ fuel)
        (visited ++ [m.records + place])
      rw [next]
      simp [other, findIdx_cons]

theorem byteAt_ok {cursor : Nat} {v : UInt8} {rest : List UInt8}
    (here : (bytesAt blob (text, length)).drop cursor = v :: rest) :
    cursor < length ∧ byteAt blob (text + cursor) = .ok v ∧
      (bytesAt blob (text, length)).drop (cursor + 1) = rest := by
  have found : (bytesAt blob (text, length))[cursor]? = some v := by
    rw [← head?_drop, here, head?_cons]
  rw [bytesAt, getElem?_take] at found
  split at found
  · next ins =>
    rw [getElem?_drop] at found
    exact ⟨ins, by rw [byteAt, found], by rw [← tail_drop, here, tail_cons]⟩
  · cases found

theorem bytesAt_length (ins : text + length ≤ blob.length) :
    (bytesAt blob (text, length)).length = length := by
  rw [bytesAt, length_take, length_drop]
  exact min_eq_left (by omega)

theorem pieceEnd_ok {part rest : List UInt8} (plain : 0 ∉ part)
    (ends : ∀ v ∈ rest.head?, v = 0) {cursor rounds : Nat} (fuel : part.length < rounds)
    (ins : text + length ≤ blob.length)
    (here : (bytesAt blob (text, length)).drop cursor = part ++ rest) :
    pieceEnd blob text length rounds cursor = .ok (cursor + part.length) := by
  induction part generalizing cursor rounds with
  | nil =>
    obtain ⟨rounds, rfl⟩ := Nat.exists_eq_succ_of_ne_zero (Nat.ne_zero_of_lt fuel)
    unfold pieceEnd
    cases rest with
    | nil =>
      have short := congrArg List.length here
      rw [length_drop, bytesAt_length ins] at short
      rw [if_neg (Nat.not_lt_of_le (Nat.sub_eq_zero_iff_le.mp short))]
      rfl
    | cons v rest =>
      obtain ⟨within, read, _⟩ := byteAt_ok here
      rw [if_pos within, read, ends v rfl]
      rfl
  | cons v part ih =>
    obtain ⟨rounds, rfl⟩ := Nat.exists_eq_succ_of_ne_zero (Nat.ne_zero_of_lt fuel)
    obtain ⟨within, read, more⟩ := byteAt_ok here
    obtain ⟨other, plain⟩ := not_or.mp (mt mem_cons.mpr plain)
    rw [pieceEnd, if_pos within, read]
    simp only [bind, Except.bind, if_neg (Ne.symm other)]
    rw [ih plain (Nat.lt_of_succ_lt_succ fuel) more, length_cons]
    congr 1
    omega

/-- The first piece, and what is behind the NUL after it. -/
theorem first_piece (bytes : List UInt8) : ∃ part rest, bytes = part ++ rest ∧ 0 ∉ part ∧
    (∀ v ∈ rest.head?, v = 0) ∧
      pieces bytes = (if part = [] then [] else [part]) ++ pieces rest.tail := by
  by_cases separated : 0 ∈ bytes
  · obtain ⟨part, more, rfl, plain⟩ := eq_append_cons_of_mem separated
    refine ⟨part, 0 :: more, rfl, plain, fun v eq => (Option.some.inj eq).symm, ?_⟩
    rw [pieces, splitOn_append_cons_self_of_not_mem plain, filter_cons]
    split <;> simp_all [pieces]
  · refine ⟨bytes, [], (append_nil _).symm, separated, nofun, ?_⟩
    rw [pieces, splitOn_eq_singleton separated, filter_singleton]
    split <;> simp_all [pieces]

/-- The loop finds the piece that is as many pieces further as are still to be seen. -/
theorem entryLoop_ok (ins : text + length ≤ blob.length) {i rounds start seen : Nat}
    (old : seen ≤ i) (some : 0 < rounds) (fuel : length < start + rounds) :
    ∃ ans, entryLoop blob text length i rounds start seen = .ok ans ∧
      Within blob ans ∧ ans.map (bytesAt blob) =
        (pieces ((bytesAt blob (text, length)).drop start))[i - seen]? := by
  have size := bytesAt_length ins
  induction rounds generalizing start seen with
  | zero => exact absurd some (Nat.lt_irrefl _)
  | succ rounds ih =>
    unfold entryLoop
    split
    · next within =>
      obtain ⟨part, rest, here, plain, ends, cut⟩ :=
        first_piece ((bytesAt blob (text, length)).drop start)
      have lengths := congrArg List.length here
      have t : (bytesAt blob (text, length)).drop (start + part.length + 1) = rest.tail := by
        rw [Nat.add_assoc, ← drop_drop, here, drop_length_add_append, drop_one]
      rw [length_drop, size, length_append] at lengths
      rw [pieceEnd_ok plain ends (by omega) ins here, cut, ← t]
      simp only [bind, Except.bind]
      by_cases empty : part = []
      · subst empty
        rw [if_neg (by simp), if_pos rfl, if_neg (by simp), nil_append]
        exact ih old (by omega) (by omega)
      rw [if_neg empty, if_pos (Nat.lt_add_of_pos_right (length_pos_iff.mpr empty))]
      have filled := length_pos_iff.mpr empty
      split
      · next found =>
        refine ⟨_, rfl, fun place eq => ?_, ?_⟩
        · rw [← Option.some.inj eq]
          dsimp only
          omega
        · have place : bytesAt blob (text + start, part.length) = part := by
            have cut := congrArg (take part.length) here
            rwa [bytesAt, drop_take, drop_drop, take_take, take_left,
              Nat.min_eq_left (by omega)] at cut
          rw [Option.map_some, Nat.add_sub_cancel_left, place, found.2, Nat.sub_self]
          rfl
      · next other =>
        have more : i - seen = i - (seen + 1) + 1 := by omega
        rw [more]
        exact ih (by omega) (by omega) (by omega)
    · next ended =>
      refine ⟨none, rfl, nofun, ?_⟩
      rw [drop_eq_nil_of_le (by omega)]
      rfl

theorem bytesAt_succ (within : text < blob.length) :
    bytesAt blob (text, length + 1) = blob[text] :: bytesAt blob (text + 1, length) := by
  rw [bytesAt, drop_eq_getElem_cons within, take_succ_cons]
  rfl

theorem load_number {width : Nat} (ins : text + width ≤ blob.length) :
    load blob width text = .ok (number (bytesAt blob (text, width))) := by
  rw [load, if_pos ins]
  congr 1
  induction width generalizing text with
  | zero => rfl
  | succ width ih =>
    have within : text < blob.length := by omega
    have rest := @ih (text + 1) (by omega)
    rw [bytesAt_succ within, number, map_cons, Nat.ofDigits_cons, ← number, ← rest,
      Library.Codec.leValue]
    simp [getElem?_eq_getElem within, Nat.add_right_comm, Nat.add_assoc]

/-- What is copied is the rest of the text, as much as fits before the last place. -/
theorem copyLoop_ok (ins : text + length ≤ blob.length) (stops : Bool) {rest : List UInt8}
    {rounds copied : Nat} {out : List UInt8}
    (here : (bytesAt blob (text, length)).drop copied = rest) (fuel : rest.length < rounds)
    (room : copied < out.length) :
    copyLoop blob text length stops rounds copied out =
      .ok (copied + ((ended stops rest).take (out.length - 1 - copied)).length,
        out.take copied ++ (ended stops rest).take (out.length - 1 - copied) ++
          out.drop (copied + ((ended stops rest).take (out.length - 1 - copied)).length)) := by
  induction rest generalizing copied out rounds with
  | nil =>
    obtain ⟨rounds, rfl⟩ := Nat.exists_eq_succ_of_ne_zero (Nat.ne_zero_of_lt fuel)
    have short := congrArg List.length here
    rw [length_drop, bytesAt_length ins, length_nil] at short
    rw [copyLoop, if_neg (by omega)]
    cases stops <;> simp [ended]
  | cons v rest ih =>
    obtain ⟨rounds, rfl⟩ := Nat.exists_eq_succ_of_ne_zero (Nat.ne_zero_of_lt fuel)
    obtain ⟨within, read, more⟩ := byteAt_ok here
    unfold copyLoop
    by_cases last : copied + 1 < out.length
    · rw [if_pos ⟨within, last⟩, read]
      simp only [bind, Except.bind]
      split
      · next ends =>
        obtain ⟨stops, rfl⟩ := ends
        simp [ended, stops, pure, Except.pure]
      · next goes =>
        have longer : ended stops (v :: rest) = v :: ended stops rest := by
          cases stops <;> simp_all [ended]
        obtain ⟨space, fits⟩ := Nat.exists_eq_succ_of_ne_zero
          (by omega : out.length - 1 - copied ≠ 0)
        have left : (out.set copied v).length - 1 - (copied + 1) = space := by
          rw [length_set]
          omega
        have start : (out.set copied v).take (copied + 1) = out.take copied ++ [v] := by
          rw [take_succ_eq_append_getElem (by simpa using room), take_set_of_le le_rfl,
            getElem_set_self]
        rw [store, if_pos room]
        dsimp only
        rw [ih more (Nat.lt_of_succ_lt_succ fuel) (by rwa [length_set]), left, longer, fits,
          take_succ_cons, length_cons, start, drop_set_of_lt (by omega)]
        simp [Nat.add_assoc, Nat.add_comm 1]
    · rw [if_neg (by omega), show out.length - 1 - copied = 0 by omega]
      simp

/-- The text at a place is put into the buffer, and without one the buffer is left with the NUL
that stands there. -/
theorem copyText_ok (stops : Bool) {out : List UInt8} (room : out ≠ []) {found : Option (Nat × Nat)}
    (ins : Within blob found) :
    copyText blob stops (out.set 0 0) found =
      .ok (putText (ended stops ((found.map (bytesAt blob)).getD [])) out) := by
  have some := length_pos_iff.mpr room
  rw [putText, if_neg room]
  cases found with
  | none =>
    obtain ⟨v, out, rfl⟩ := exists_cons_of_ne_nil room
    cases stops <;> simp [copyText, ended]
  | some place =>
    obtain ⟨text, length⟩ := place
    have size := bytesAt_length (ins _ rfl)
    rw [copyText, copyLoop_ok (ins _ rfl) stops rfl (by rw [drop_zero, size]; omega)
      (by rwa [length_set])]
    simp only [bind, Except.bind, drop_zero, length_set, Nat.sub_zero, take_zero, nil_append,
      Nat.zero_add, Option.map_some, Option.getD_some]
    have fits : ((ended stops (bytesAt blob (text, length))).take (out.length - 1)).length <
        out.length := by
      rw [length_take]
      omega
    generalize (ended stops (bytesAt blob (text, length))).take (out.length - 1) = copied at fits
    obtain ⟨v, tail⟩ : ∃ v, (out.set 0 0).drop copied.length = v :: out.drop
      (copied.length + 1) := by
      rw [drop_eq_getElem_cons (by rwa [length_set]), drop_set_of_lt (by omega)]
      exact ⟨_, rfl⟩
    rw [store, if_pos (by rw [tail, length_append, length_cons]; omega), tail,
      set_append_right _ _ le_rfl, Nat.sub_self, set_cons_zero]
    rfl

theorem listCountLoop_ok {list : List (List UInt8)}
    (each : ∀ i : Nat, ∃ ans, sxeListEntry blob m tag i = .ok ans ∧
      ans.map (bytesAt blob) = list[i]?) {rounds n : Nat} (old : n ≤ list.length)
    (fuel : list.length < n + rounds) : listCountLoop blob m tag rounds n = .ok list.length := by
  induction rounds generalizing n with
  | zero => omega
  | succ rounds ih =>
    obtain ⟨ans, read, found⟩ := each n
    rw [listCountLoop, read]
    simp only [bind, Except.bind]
    split
    · next none =>
      subst none
      rw [Nat.le_antisymm old (getElem?_eq_none_iff.mp found.symm)]
      rfl
    · next some =>
      have ins : n < list.length := Nat.lt_of_not_le fun past => some (by
        rwa [getElem?_eq_none past, Option.map_eq_none_iff] at found)
      exact ih ins (by omega)

theorem pieces_length (bytes : List UInt8) : (pieces bytes).length ≤ bytes.length := by
  obtain ⟨part, rest, rfl, _, _, cut⟩ := first_piece bytes
  rw [cut, length_append, length_append]
  cases rest with
  | nil =>
    cases part with
    | nil => exact le_rfl
    | cons v part => exact Nat.le_add_left 1 _
  | cons v rest =>
    have shorter := pieces_length rest
    rw [tail_cons, length_cons]
    split
    · exact (Nat.zero_add _).trans_le (shorter.trans (by omega))
    · next filled =>
      have := length_pos_iff.mpr filled
      exact Nat.add_le_add this (shorter.trans (Nat.le_succ _))
termination_by bytes.length
decreasing_by subst_vars; simp; omega

section

variable {m : Meta} {visited : List Nat} {found : Option (Nat × Nat)}
  (look : sxeMetaFind blob m tag = .ok (visited, found))
  (ins : Within blob found)

include look ins

theorem sxeMetaNumber_ok {width : Nat} (some : width ≠ 0) : sxeMetaNumber width blob m tag =
    .ok (numberOf width ((found.map (bytesAt blob)).getD [])) := by
  rw [sxeMetaNumber, look, numberOf]
  simp only [bind, Except.bind]
  cases found with
  | none => exact (congrArg Except.ok (if_neg some.symm)).symm
  | some place =>
    have whole := ins place rfl
    rw [Option.map_some, Option.getD_some, bytesAt_length whole]
    dsimp only
    split
    · next eq =>
      rw [load_number (eq ▸ whole)]
      subst eq
      rfl
    · rfl

omit look in
theorem sxeMetaVersion_ok (look : sxeMetaFind blob m 3 = .ok (visited, found)) :
    sxeMetaVersion blob m = .ok (versionOf ((found.map (bytesAt blob)).getD [])) := by
  rw [sxeMetaVersion, look, versionOf]
  simp only [bind, Except.bind]
  cases found with
  | none => rfl
  | some place =>
    have whole := ins place rfl
    rw [Option.map_some, Option.getD_some, bytesAt_length whole]
    dsimp only
    split
    · next eq =>
      have part (i : Nat) (early : i ≤ 6) : load blob 2 (place.1 + i) =
          .ok (number (bytesAt (bytesAt blob place) (i, 2))) := by
        rw [load_number (by omega)]
        unfold bytesAt
        rw [drop_take, drop_drop, take_take, Nat.min_eq_left (by dsimp only; omega)]
      have first := part 0 (by decide)
      rw [Nat.add_zero] at first
      simp only [first, part 2 (by decide), part 4 (by decide), part 6 (by decide)]
      rfl
    · rfl

theorem sxeMetaString_ok (out : List UInt8) : sxeMetaString blob m tag out =
    .ok (putText (((found.map (bytesAt blob)).getD []).takeWhile (· ≠ 0)) out) := by
  unfold sxeMetaString
  split
  · next none => rw [putText, if_pos none, none]
  · next room =>
    rw [store, if_pos (length_pos_iff.mpr room), look]
    exact copyText_ok true room ins

theorem sxeListEntry_ok (i : Nat) : ∃ ans, sxeListEntry blob m tag i = .ok ans ∧
    Within blob ans ∧ ans.map (bytesAt blob) =
      (pieces ((found.map (bytesAt blob)).getD []))[i]? := by
  change ∃ ans, sxeListEntry blob m tag (.ofNat i) = .ok ans ∧ _
  rw [sxeListEntry, look]
  simp only [bind, Except.bind]
  cases found with
  | none => exact ⟨none, rfl, nofun, rfl⟩
  | some place =>
    exact @entryLoop_ok blob place.1 place.2 (ins place rfl) i (place.2 + 1) 0 0 (Nat.zero_le i)
      (Nat.succ_pos _) (by omega)

end

theorem sxeMetaListAt_ok {list : List (List UInt8)}
    (entries : ∀ i : Nat, ∃ ans, sxeListEntry blob m tag i = .ok ans ∧
      Within blob ans ∧ ans.map (bytesAt blob) = list[i]?)
    (i : Int) (out : List UInt8) : sxeMetaListAt blob m tag i out =
      .ok (putText (if 0 ≤ i then list[i.toNat]?.getD [] else []) out) := by
  have listed : ∃ ans, sxeListEntry blob m tag i = .ok ans ∧ Within blob ans ∧
      (ans.map (bytesAt blob)).getD [] = if 0 ≤ i then list[i.toNat]?.getD [] else [] := by
    cases i with
    | ofNat i =>
      obtain ⟨ans, asked, ins, eq⟩ := entries i
      exact ⟨ans, asked, ins, congrArg (Option.getD · []) eq⟩
    | negSucc i => exact ⟨none, rfl, nofun, rfl⟩
  obtain ⟨ans, asked, ins, eq⟩ := listed
  unfold sxeMetaListAt
  split
  · next none => rw [putText, if_pos none, none]
  · next room =>
    rw [store, if_pos (length_pos_iff.mpr room), asked, ← eq]
    exact copyText_ok false room ins

theorem sxeMetaOpen_laid {a : Nat} (opened : sxeMetaOpen a blob = .ok m) :
    ∃ records, Laid blob (m.records + m.recordsBytes) m.records records ∧
      records.length = m.recordCount ∧
      m.records + m.recordsBytes ≤ blob.length ∧ m.records + m.recordsBytes < 2 ^ 32 := by
  simp only [sxeMetaOpen, bind_ok, require_ok, decide_eq_true_eq] at opened
  obtain ⟨hdr, read, _, _, ⟨stop, total⟩, walked, _, rfl, _, rfl, made⟩ := opened
  obtain ⟨_, small, whole, ordered⟩ := openHeader_ok read
  obtain ⟨records, laid, sum⟩ := metaWalk_laid walked
  cases made
  dsimp only at *
  rw [Nat.add_sub_cancel' ordered]
  exact ⟨records, laid, by omega, whole, by omega⟩

end

/-- The payload that a tag stands for. -/
def payloadOf (blob : List UInt8) (records : List Record) (tag : Nat) : List UInt8 :=
  ((records.find? (·.tag = tag)).map fun r => bytesAt blob (r.payload, r.length)).getD []

/-- No lookup in an accepted blob leaves it or its buffer, and each gives exactly what the records
hold: the place of the payload, its number, the version, its text up to a NUL, or its pieces. -/
theorem metadata_lookups_exact (address : Nat) (blob : List UInt8) (m : Meta)
    (opened : sxeMetaOpen address blob = .ok m) :
    ∃ records, Laid blob (m.records + m.recordsBytes) m.records records ∧
      records.length = m.recordCount ∧
      (∀ r ∈ records, r.payload + r.length ≤ blob.length) ∧
      sxeMetaVersion blob m = .ok (versionOf (payloadOf blob records 3)) ∧
      ∀ tag, sxeMetaFind blob m tag =
          .ok ((records.take (records.findIdx (·.tag = tag) + 1)).map (·.offset),
            (records.find? (·.tag = tag)).map fun r => (r.payload, r.length)) ∧
        sxeMetaU32 blob m tag = .ok (numberOf 4 (payloadOf blob records tag)) ∧
        sxeMetaU8 blob m tag = .ok (numberOf 1 (payloadOf blob records tag)) ∧
        (∀ out, sxeMetaString blob m tag out =
          .ok (putText ((payloadOf blob records tag).takeWhile (· ≠ 0)) out)) ∧
        sxeMetaListCount blob m tag = .ok (pieces (payloadOf blob records tag)).length ∧
        ∀ (i : Int) (out : List UInt8), sxeMetaListAt blob m tag i out = .ok (putText
          (if 0 ≤ i then (pieces (payloadOf blob records tag))[i.toNat]?.getD [] else []) out) := by
  obtain ⟨records, laid, counted, whole, small⟩ := sxeMetaOpen_laid opened
  have room := laid.room
  have inside (r : Record) (listed : r ∈ records) := (laid.inside r listed).trans whole
  have look (tag : Nat) : sxeMetaFind blob m tag = _ :=
    findLoop_laid laid small (Nat.add_zero _).symm rfl (by omega) []
  have found (tag : Nat) :
      Within blob ((records.find? (·.tag = tag)).map fun r => (r.payload, r.length)) := by
    intro place here
    obtain ⟨r, first, rfl⟩ := Option.map_eq_some_iff.mp here
    exact inside r (mem_of_find?_eq_some first)
  have payload (tag : Nat) : payloadOf blob records tag =
      (((records.find? (·.tag = tag)).map fun r => (r.payload, r.length)).map (bytesAt blob)).getD
        [] := by
    rw [Option.map_map]
    rfl
  refine ⟨records, laid, counted, inside, ?_, fun tag => ?_⟩
  · rw [payload]
    exact sxeMetaVersion_ok (found 3) (look 3)
  have entries := sxeListEntry_ok (look tag) (found tag)
  rw [← payload] at entries
  refine ⟨look tag, ?_, ?_, ?_, ?_, sxeMetaListAt_ok entries⟩
  · rw [payload]
    exact sxeMetaNumber_ok (look tag) (found tag) (by decide)
  · rw [payload]
    exact sxeMetaNumber_ok (look tag) (found tag) (by decide)
  · rw [payload]
    exact sxeMetaString_ok (look tag) (found tag)
  refine listCountLoop_ok (fun i => ?_) (Nat.zero_le _) ?_
  · obtain ⟨answer, asked, _, same⟩ := entries i
    exact ⟨answer, asked, same⟩
  · refine Nat.lt_of_le_of_lt (pieces_length _) (Nat.lt_of_le_of_lt ?_ (by omega : blob.length < _))
    unfold payloadOf
    cases records.find? (·.tag = tag) with
    | none => exact Nat.zero_le _
    | some r => exact (length_take_le' _ _).trans (by rw [length_drop]; exact Nat.sub_le _ _)

/-- A blob with a version, the list of two names and a number. -/
def listBlob : List UInt8 :=
  [83, 88, 77, 69, 1, 0, 16, 0, 56, 0, 0, 0, 3, 0, 0, 0] ++
    [3, 0, 0, 0, 8, 0, 0, 0, 1, 0, 2, 0, 3, 0, 4, 1] ++ [1, 3, 0, 0, 3, 0, 0, 0, 97, 0, 98, 0] ++
    [1, 1, 0, 0, 4, 0, 0, 0, 255, 0, 1, 0]

theorem metadata_lookups_exact_list :
    sxeMetaListAt listBlob ⟨16, 40, 3, 1⟩ 0x301 1 [7, 7, 7] = .ok (1, [98, 0, 7]) ∧
      ∃ records, Laid listBlob 56 16 records ∧ records.length = 3 ∧
        sxeMetaVersion listBlob ⟨16, 40, 3, 1⟩ = .ok (versionOf (payloadOf listBlob records 3)) ∧
        sxeMetaU32 listBlob ⟨16, 40, 3, 1⟩ 0x101 =
          .ok (numberOf 4 (payloadOf listBlob records 0x101)) ∧
        sxeMetaListCount listBlob ⟨16, 40, 3, 1⟩ 0x301 =
          .ok (pieces (payloadOf listBlob records 0x301)).length := by
  obtain ⟨records, laid, counted, _, version, each⟩ :=
    metadata_lookups_exact 0 listBlob ⟨16, 40, 3, 1⟩ rfl
  obtain ⟨_, word, _⟩ := each 0x101
  obtain ⟨_, _, _, _, count, _⟩ := each 0x301
  exact ⟨rfl, records, laid, counted, version, word, count⟩

end SavanXP.Sxe
