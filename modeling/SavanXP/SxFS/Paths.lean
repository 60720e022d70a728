import SavanXP.SxFS.Format

/-!
# Paths that can be written

`sxfs_path_valid` walks a path once and counts the bytes of its components.  The
count leaves the separators out, so it neither bounds the length of the path nor
says where a component starts: after the first separator the test for `.` and
`..` looks at other bytes.
-/

namespace SavanXP.SxFS

open List

def dot : UInt8 := 46

/-- The checks at the end of a component. -/
def componentEnds (path : Path) (length componentLength : Nat) : Bool :=
  !(componentLength = 0 ∨ maxNameLength < componentLength ∨ maxRelativePath < length ∨
    (componentLength = 1 ∧ path.getD (length - componentLength) 0 = dot) ∨
    (componentLength = 2 ∧ path.getD (length - componentLength) 0 = dot ∧
      path.getD (length - componentLength + 1) 0 = dot))

def pathValidFrom (path : Path) : Path → Nat → Nat → Bool
  | [], length, componentLength =>
    componentEnds path length componentLength && decide (length ≤ maxRelativePath)
  | v :: rest, length, componentLength =>
    if v = slash then
      componentEnds path length componentLength && pathValidFrom path rest length 0
    else if v < 0x20 ∨ v = 0x7f ∨ maxNameLength ≤ componentLength then false
    else pathValidFrom path rest (length + 1) (componentLength + 1)

def pathValid (path : Path) : Bool :=
  if path = [] ∨ path.head? = some slash then false else pathValidFrom path path 0 0

def Printable (part : Path) : Prop := ∀ v ∈ part, ¬ v < 0x20 ∧ v ≠ 0x7f

instance : DecidablePred Printable := fun part => part.decidableBAll _

def Dotted (bytes : Path) : Prop := bytes = [dot] ∨ bytes = [dot, dot]

instance : DecidablePred Dotted := fun _ => inferInstanceAs (Decidable (_ ∨ _))

/-- The bytes of a component, apart from its being `.` or `..`. -/
structure Spelled (part : Path) : Prop where
  length : part.length ≠ 0 ∧ part.length ≤ 63
  bytes : Printable part

/-- A component of a path that may be written. -/
structure Acceptable (part : Path) : Prop extends Spelled part where
  name : ¬ Dotted part

def AcceptablePath (path : Path) : Prop :=
  (∀ part ∈ path.splitOn slash, Acceptable part) ∧ path.length ≤ 255

/-- The bytes that the code compares with `.` and `..` for each component: as many as it has, but
from as far into the path as the components before it are long. -/
def comparedWith (path : Path) : Nat → List Path → List Path
  | _, [] => []
  | length, part :: rest =>
    (path.drop length).take part.length :: comparedWith path (length + part.length) rest

/-- The components are spelled well and have at most 255 bytes together. -/
def SpelledPath (path : Path) : Prop :=
  (∀ part ∈ path.splitOn slash, Spelled part) ∧ (path.splitOn slash).flatten.length ≤ 255

variable {path : Path} {length componentLength : Nat}

/-- The bytes of a component are counted one by one. -/
theorem pathValidFrom_append {part : Path} (plain : slash ∉ part) (rest : Path)
    (few : componentLength ≤ maxNameLength) :
    pathValidFrom path (part ++ rest) length componentLength = true ↔
      Printable part ∧ componentLength + part.length ≤ maxNameLength ∧
        pathValidFrom path rest (length + part.length) (componentLength + part.length) = true := by
  induction part generalizing length componentLength with
  | nil => simp [few, Printable]
  | cons v part ih =>
    obtain ⟨o, plain⟩ := not_or.mp (mt mem_cons.mpr plain)
    rw [cons_append, pathValidFrom, if_neg (Ne.symm o), Printable, forall_mem_cons]
    split
    · next refused =>
      refine iff_of_false Bool.false_ne_true fun ⟨⟨printable, _⟩, fits, _⟩ => ?_
      rw [length_cons] at fits
      exact refused.elim printable.1 fun refused => refused.elim printable.2 (by omega)
    · next passed =>
      rw [not_or, not_or] at passed
      rw [ih plain (by omega), length_cons, Nat.add_right_comm, Nat.add_assoc length,
        Nat.add_right_comm componentLength, Nat.add_assoc componentLength, Nat.add_comm 1]
      tauto

theorem pathValidFrom_last {part : Path} (plain : slash ∉ part) :
    pathValidFrom path part length 0 = true ↔ Printable part ∧
      part.length ≤ maxNameLength ∧ componentEnds path (length + part.length) part.length = true ∧
        length + part.length ≤ maxRelativePath := by
  rw [← append_nil part, pathValidFrom_append plain [] (Nat.zero_le _), append_nil, Nat.zero_add,
    pathValidFrom, Bool.and_eq_true, decide_eq_true_eq]

theorem pathValidFrom_more {part : Path} (plain : slash ∉ part) (rest : Path) :
    pathValidFrom path (part ++ slash :: rest) length 0 = true ↔
      Printable part ∧ part.length ≤ maxNameLength ∧
        componentEnds path (length + part.length) part.length = true ∧
          pathValidFrom path rest (length + part.length) 0 = true := by
  rw [pathValidFrom_append plain _ (Nat.zero_le _), Nat.zero_add, pathValidFrom, if_pos rfl,
    Bool.and_eq_true]

theorem componentEnds_iff (inside : length + componentLength ≤ path.length) :
    componentEnds path (length + componentLength) componentLength = true ↔
      (componentLength ≠ 0 ∧ componentLength ≤ 63) ∧ length + componentLength ≤ 255 ∧
        ¬ Dotted ((path.drop length).take componentLength) := by
  have size : ((path.drop length).take componentLength).length = componentLength := by
    rw [length_take, length_drop]
    omega
  unfold componentEnds Dotted
  match componentLength with
  | 0 => simp
  | 1 =>
    have here : (path.drop length).take 1 = [path[length]] := by
      rw [drop_eq_getElem_cons (by omega), take_succ_cons, take_zero]
    have first := getElem?_eq_getElem (show length < path.length by omega)
    simp [here, first, maxNameLength, inodeNameCapacity, maxRelativePath]
  | 2 =>
    have here : (path.drop length).take 2 = [path[length], path[length + 1]] := by
      rw [drop_eq_getElem_cons (by omega), drop_eq_getElem_cons (by omega), take_succ_cons,
        take_succ_cons, take_zero]
    have first := getElem?_eq_getElem (show length < path.length by omega)
    have second := getElem?_eq_getElem (show length + 1 < path.length by omega)
    simp [here, first, second, imp_iff_not_or, maxNameLength, inodeNameCapacity, maxRelativePath]
  | more + 3 =>
    have long (o : Path) (short : o.length ≤ 2) : (path.drop length).take (more + 3) ≠ o := by
      rintro rfl
      omega
    simp [long [dot] (by decide), long [dot, dot] (by decide), maxNameLength, inodeNameCapacity,
      maxRelativePath]

/-- What is accepted, component by component. -/
theorem pathValidFrom_iff (path : Path) (length : Nat) (rest : Path)
    (inside : length + rest.length ≤ path.length) :
    pathValidFrom path rest length 0 = true ↔ (∀ part ∈ rest.splitOn slash, Spelled part) ∧
      length + (rest.splitOn slash).flatten.length ≤ 255 ∧
        ∀ part ∈ comparedWith path length (rest.splitOn slash), ¬ Dotted part := by
  by_cases separated : slash ∈ rest
  · obtain ⟨part, more, rfl, plain⟩ := eq_append_cons_of_mem separated
    rw [length_append, length_cons] at inside
    have smaller : more.length < (part ++ slash :: more).length := by
      rw [length_append, length_cons]
      omega
    have t := pathValidFrom_iff path (length + part.length) more (by omega)
    rw [pathValidFrom_more plain, splitOn_append_cons_self_of_not_mem plain, forall_mem_cons,
      componentEnds_iff (by omega), t, comparedWith, forall_mem_cons, flatten_cons, length_append]
    constructor
    · rintro ⟨bytes, _, ⟨few, _, here⟩, others, short, later⟩
      exact ⟨⟨⟨few, bytes⟩, others⟩, by omega, here, later⟩
    · rintro ⟨⟨spelled, others⟩, short, here, later⟩
      exact ⟨spelled.bytes, spelled.length.2, ⟨spelled.length, by omega, here⟩, others, by omega,
        later⟩
  · rw [pathValidFrom_last separated, splitOn_eq_singleton separated, forall_mem_singleton,
      componentEnds_iff inside, comparedWith, comparedWith, forall_mem_singleton, flatten_singleton]
    constructor
    · rintro ⟨bytes, _, ⟨few, short, here⟩, _⟩
      exact ⟨⟨few, bytes⟩, short, here⟩
    · rintro ⟨spelled, short, here⟩
      exact ⟨spelled.bytes, spelled.length.2, ⟨spelled.length, short, here⟩, short⟩
termination_by rest.length

theorem flatten_splitOn_length (path : Path) :
    (path.splitOn slash).flatten.length ≤ path.length := by
  by_cases separated : slash ∈ path
  · obtain ⟨part, more, rfl, plain⟩ := eq_append_cons_of_mem separated
    have rest := flatten_splitOn_length more
    rw [splitOn_append_cons_self_of_not_mem plain, flatten_cons, length_append, length_append,
      length_cons]
    omega
  · rw [splitOn_eq_singleton separated, flatten_singleton]
termination_by path.length
decreasing_by
  subst_vars
  simp
  omega

theorem pathValid_iff (path : Path) : pathValid path = true ↔ SpelledPath path ∧
    ¬ ∃ part ∈ comparedWith path 0 (path.splitOn slash), Dotted part := by
  unfold pathValid
  split
  · next refused =>
    refine iff_of_false Bool.false_ne_true fun ⟨⟨each, _⟩, _⟩ => ?_
    have empty : [] ∈ path.splitOn slash := by
      rcases refused with rfl | first
      · exact mem_cons_self
      · obtain ⟨rest, rfl⟩ := head?_eq_some_iff.mp first
        exact splitOn_append_cons_self_of_not_mem not_mem_nil rest ▸ mem_cons_self
    exact (each [] empty).length.1 rfl
  · rw [pathValidFrom_iff path 0 path (Nat.zero_add _).le, Nat.zero_add, SpelledPath, and_assoc]
    simp only [not_exists, not_and]

theorem acceptablePath_iff (path : Path) : AcceptablePath path ↔ SpelledPath path ∧
    ¬ (255 < path.length ∨ ∃ part ∈ path.splitOn slash, Dotted part) := by
  constructor
  · rintro ⟨each, short⟩
    refine ⟨⟨fun part listed => (each part listed).toSpelled,
      (flatten_splitOn_length path).trans short⟩, ?_⟩
    rintro (long | ⟨part, listed, dotted⟩)
    · exact Nat.not_lt.mpr short long
    · exact (each part listed).name dotted
  · rintro ⟨⟨spelled, _⟩, right⟩
    exact ⟨fun part listed =>
      ⟨spelled part listed, fun dotted => right (.inr ⟨part, listed, dotted⟩)⟩,
      Nat.not_lt.mp fun long => right (.inl long)⟩

end SavanXP.SxFS
