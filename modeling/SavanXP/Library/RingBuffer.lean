import Mathlib

/-!
# Ring buffers

A ring keeps its elements in cells taken round and round.  Elements enter in
stretches that do not pass the last cell and leave in at most two of them.
`contents` is what a ring holds, in the order it will leave.
-/

namespace SavanXP.Library

open List

structure RingBuffer (α : Type) where
  cells : Nat → α
  readPos : Nat
  writePos : Nat
  size : Nat

namespace RingBuffer

variable {α : Type}

def contents (capacity : Nat) (ring : RingBuffer α) : List α :=
  (range ring.size).map fun off => ring.cells ((ring.readPos + off) % capacity)

/-- The cells from `pos` on replaced by `items`. -/
def blit (cells : Nat → α) (pos : Nat) (items : List α) : Nat → α := fun i =>
  if pos ≤ i then (items[i - pos]?).getD (cells i) else cells i

/-- One stretch of items put at the write position. -/
def putPiece (capacity : Nat) (ring : RingBuffer α) (items : List α) : RingBuffer α where
  cells := blit ring.cells ring.writePos items
  readPos := ring.readPos
  writePos := (ring.writePos + items.length) % capacity
  size := ring.size + items.length

/-- Items put in one stretch, or in two around the end. -/
def put (capacity : Nat) (ring : RingBuffer α) (items : List α) : RingBuffer α :=
  if ring.writePos + items.length ≤ capacity then ring.putPiece capacity items
  else
    (ring.putPiece capacity (items.take (capacity - ring.writePos))).putPiece capacity
      (items.drop (capacity - ring.writePos))

/-- How many of `n` elements stand before the end of the cells. -/
def firstLength (capacity : Nat) (ring : RingBuffer α) (n : Nat) : Nat :=
  if ring.readPos + n ≤ capacity then n else capacity - ring.readPos

/-- The elements before the end of the cells. -/
def firstPiece (capacity : Nat) (ring : RingBuffer α) (n : Nat) : List α :=
  (range (ring.firstLength capacity n)).map fun off => ring.cells (ring.readPos + off)

/-- The elements after it. -/
def secondPiece (capacity : Nat) (ring : RingBuffer α) (n : Nat) : List α :=
  (range (n - ring.firstLength capacity n)).map ring.cells

def advance (capacity : Nat) (ring : RingBuffer α) (n : Nat) : RingBuffer α :=
  { ring with readPos := (ring.readPos + n) % capacity, size := ring.size - n }

structure Ok (capacity : Nat) (ring : RingBuffer α) : Prop where
  readInside : ring.readPos < capacity
  fits : ring.size ≤ capacity
  writeAt : ring.writePos = (ring.readPos + ring.size) % capacity

variable {capacity : Nat} {ring : RingBuffer α}

@[simp]
theorem contents_length (ring : RingBuffer α) : (ring.contents capacity).length = ring.size := by
  rw [contents, length_map, length_range]

theorem contents_getElem? {off : Nat} (inside : off < ring.size) :
    (ring.contents capacity)[off]? = some (ring.cells ((ring.readPos + off) % capacity)) := by
  rw [contents, getElem?_map, getElem?_range inside]
  rfl

theorem Ok.writeInside (ok : ring.Ok capacity) : ring.writePos < capacity := by
  rw [ok.writeAt]
  exact Nat.mod_lt _ (Nat.zero_lt_of_lt ok.readInside)

/-- Different offsets below the capacity are different cells. -/
theorem offset_unique {start left right : Nat} (leftBound : left < capacity)
    (rightBound : right < capacity)
    (same : (start + left) % capacity = (start + right) % capacity) :
    left = right := by
  have cancelled : left ≡ right [MOD capacity] := Nat.ModEq.add_left_cancel' start same
  exact Nat.ModEq.eq_of_lt_of_lt cancelled leftBound rightBound

variable {items : List α}

theorem blit_outside {cells : Nat → α} {pos i : Nat}
    (outside : ¬ (pos ≤ i ∧ i < pos + items.length)) :
    blit cells pos items i = cells i := by
  unfold blit
  split
  · next above =>
    rw [getElem?_eq_none (by omega)]
    rfl
  · rfl

theorem blit_inside {cells : Nat → α} {pos off : Nat} (inside : off < items.length) :
    blit cells pos items (pos + off) = items[off] := by
  unfold blit
  rw [if_pos (Nat.le_add_right _ _), Nat.add_sub_cancel_left, getElem?_eq_getElem inside]
  rfl

section

variable (ok : ring.Ok capacity)
include ok

theorem Ok.putPiece (room : ring.size + items.length ≤ capacity)
    (stretch : ring.writePos + items.length ≤ capacity) :
    (ring.putPiece capacity items).Ok capacity ∧
      (ring.putPiece capacity items).contents capacity = ring.contents capacity ++ items := by
  have reached : ∀ off < items.length,
      (ring.readPos + (ring.size + off)) % capacity = ring.writePos + off := by
    intro off inside
    rw [← Nat.add_assoc, Nat.add_mod, ← ok.writeAt, Nat.mod_eq_of_lt (show off < capacity by omega)]
    exact Nat.mod_eq_of_lt (by omega)
  constructor
  · refine ⟨ok.readInside, room, ?_⟩
    change (ring.writePos + items.length) % capacity =
      (ring.readPos + (ring.size + items.length)) % capacity
    rw [ok.writeAt, Nat.mod_add_mod, Nat.add_assoc]
  · apply ext_getElem?
    intro off
    rcases Nat.lt_or_ge off ring.size with old | new
    · rw [getElem?_append_left (by rwa [contents_length]), contents_getElem? old,
        contents_getElem? (old.trans_le (Nat.le_add_right _ _))]
      congr 1
      apply blit_outside
      rintro ⟨above, below⟩
      have there := reached ((ring.readPos + off) % capacity - ring.writePos) (by
        change ring.writePos ≤ (ring.readPos + off) % capacity at above
        change (ring.readPos + off) % capacity < ring.writePos + items.length at below
        omega)
      change ring.writePos ≤ (ring.readPos + off) % capacity at above
      change (ring.readPos + off) % capacity < ring.writePos + items.length at below
      rw [Nat.add_sub_cancel' above] at there
      have same := offset_unique (by omega) (by omega) there
      omega
    · rw [getElem?_append_right (by rwa [contents_length]), contents_length]
      rcases Nat.lt_or_ge (off - ring.size) items.length with inside | past
      · rw [contents_getElem? (show off < ring.size + items.length by omega),
          getElem?_eq_getElem inside]
        change some (blit ring.cells ring.writePos items ((ring.readPos + off) % capacity)) = _
        have pos := reached (off - ring.size) inside
        rw [Nat.add_sub_cancel' new] at pos
        rw [pos, blit_inside inside]
      · rw [getElem?_eq_none past, getElem?_eq_none]
        rw [contents_length]
        change ring.size + items.length ≤ off
        omega

/-- Items that fit join the end of the contents. -/
theorem Ok.put (room : ring.size + items.length ≤ capacity) :
    (ring.put capacity items).Ok capacity ∧
      (ring.put capacity items).contents capacity = ring.contents capacity ++ items := by
  unfold RingBuffer.put
  split
  · next stretch => exact ok.putPiece room stretch
  · next wraps =>
    have inside := ok.writeInside
    have takes : (items.take (capacity - ring.writePos)).length = capacity - ring.writePos := by
      rw [length_take]
      omega
    have drops : (items.drop (capacity - ring.writePos)).length =
        items.length - (capacity - ring.writePos) := length_drop
    obtain ⟨middle, first⟩ := @Ok.putPiece α capacity ring (items.take (capacity - ring.writePos))
      ok (by rw [takes]; omega) (by rw [takes]; omega)
    have size : (ring.putPiece capacity (items.take (capacity - ring.writePos))).size =
        ring.size + (capacity - ring.writePos) := by
      change ring.size + _ = _
      rw [takes]
    have pos : (ring.putPiece capacity (items.take (capacity - ring.writePos))).writePos = 0 := by
      change (ring.writePos + _) % capacity = 0
      rw [takes, Nat.add_sub_cancel' (Nat.le_of_lt inside), Nat.mod_self]
    obtain ⟨last, second⟩ := @Ok.putPiece α capacity _ (items.drop (capacity - ring.writePos))
      middle (by rw [size, drops]; omega) (by rw [pos, drops]; omega)
    refine ⟨last, ?_⟩
    rw [second, first, append_assoc, take_append_drop]

/-- The two stretches are what leaves first. -/
theorem pieces_eq {n : Nat} (enough : n ≤ ring.size) :
    ring.firstPiece capacity n ++ ring.secondPiece capacity n =
      (ring.contents capacity).take n := by
  have inside := ok.readInside
  have fits := ok.fits
  have short : ring.firstLength capacity n ≤ n := by
    unfold firstLength
    split <;> omega
  have firstSize : (ring.firstPiece capacity n).length = ring.firstLength capacity n := by
    rw [firstPiece, length_map, length_range]
  apply ext_getElem?
  intro off
  rcases Nat.lt_or_ge off n with early | late
  · rw [getElem?_take_of_lt early, contents_getElem? (by omega)]
    rcases Nat.lt_or_ge off (ring.firstLength capacity n) with before | after
    · have straight : (ring.readPos + off) % capacity = ring.readPos + off := by
        apply Nat.mod_eq_of_lt
        unfold firstLength at before
        split at before <;> omega
      rw [getElem?_append_left (by rwa [firstSize]), firstPiece, getElem?_map,
        getElem?_range before, straight]
      rfl
    · have wrapped : (ring.readPos + off) % capacity = off - ring.firstLength capacity n := by
        unfold firstLength at after ⊢
        split at after
        · omega
        · next crosses =>
          rw [if_neg crosses, Nat.mod_eq_sub_mod (by omega)]
          rw [Nat.mod_eq_of_lt (by omega)]
          omega
      rw [getElem?_append_right (by rwa [firstSize]), firstSize, secondPiece,
        getElem?_map, getElem?_range (by omega), wrapped]
      rfl
  · rw [getElem?_take_eq_none late, getElem?_eq_none]
    rw [length_append, firstSize, secondPiece, length_map, length_range]
    omega

theorem Ok.advance {n : Nat} (enough : n ≤ ring.size) : (ring.advance capacity n).Ok capacity ∧
      (ring.advance capacity n).contents capacity = (ring.contents capacity).drop n := by
  have positive : 0 < capacity := Nat.zero_lt_of_lt ok.readInside
  constructor
  · refine ⟨Nat.mod_lt _ positive, Nat.le_trans (Nat.sub_le _ _) ok.fits, ?_⟩
    change ring.writePos = ((ring.readPos + n) % capacity + (ring.size - n)) % capacity
    rw [ok.writeAt, Nat.mod_add_mod]
    congr 1
    omega
  · apply ext_getElem?
    intro off
    rw [getElem?_drop]
    rcases Nat.lt_or_ge (n + off) ring.size with inside | past
    · rw [contents_getElem? inside, contents_getElem? (show off < ring.size - n by omega)]
      change some (ring.cells (((ring.readPos + n) % capacity + off) % capacity)) = _
      rw [Nat.mod_add_mod, Nat.add_assoc]
    · have gone : (ring.advance capacity n).size ≤ off := Nat.sub_le_of_le_add (by omega)
      rw [getElem?_eq_none (by rwa [contents_length]),
        getElem?_eq_none (by rwa [contents_length])]

end

/-- A ring with nothing in it. -/
def empty (cells : Nat → α) : RingBuffer α := ⟨cells, 0, 0, 0⟩

theorem empty_ok (cells : Nat → α) (positive : 0 < capacity) : (empty cells).Ok capacity :=
  ⟨positive, Nat.zero_le _, (Nat.zero_mod capacity).symm⟩

end RingBuffer

end SavanXP.Library
