import Mathlib

/-!
# Lines between two pixels

A line is drawn with one error term: each pixel is the nearest one to the ideal
line. Where that passes exactly between two pixels the choice follows the
direction of travel, and the pixels depend on which end is the first. The error
term can also leave `int` on long lines; which values it takes is settled by the
greatest common divisor of the two sides.
-/

namespace SavanXP.Gfx

abbrev Pixel := Int × Int

abbrev IsInt (value : Int) : Prop := -2 ^ 31 ≤ value ∧ value < 2 ^ 31

/-- The value of an `int` expression, undefined where it overflows. -/
def int (value : Int) : Option Int :=
  if IsInt value then some value else none

def fillRect (x y width height : Int) : List Pixel :=
  (List.range width.toNat).flatMap fun i =>
    (List.range height.toNat).map fun j => (x + (i : Nat), y + (j : Nat))

def hline (x y width : Int) : List Pixel := fillRect x y width 1

def vline (x y height : Int) : List Pixel := fillRect x y 1 height

/-- One of the two steps of a round: the error and a coordinate move together. -/
def advance (moves : Prop) [Decidable moves] (error change x step : Int) : Option (Int × Int) :=
  if moves then do return (← int (error + change), ← int (x + step)) else some (error, x)

/-- The loop of `sx_painter_draw_line`; the pixels it sets, in order. -/
def plot (dx dy stepX stepY x1 y1 : Int) : Nat → Int → Int → Int → Option (List Pixel)
  | 0, _, _, _ => none
  | fuel + 1, x0, y0, error =>
    if x0 = x1 ∧ y0 = y1 then some [(x0, y0)]
    else do
      let doubled ← int (error * 2)
      let (error, x) ← advance (doubled > -dy) error (-dy) x0 stepX
      let (error, y) ← advance (doubled < dx) error dx y0 stepY
      let rest ← plot dx dy stepX stepY x1 y1 fuel x y error
      return (x0, y0) :: rest

/-- The pixels of `sx_painter_draw_line` before they are clipped. -/
def drawLine (fuel : Nat) (x0 y0 x1 y1 : Int) : Option (List Pixel) :=
  if y0 = y1 then do
    let left := if x0 < x1 then x0 else x1
    let length ← int (if x0 < x1 then x1 - x0 else x0 - x1)
    return hline left y0 (← int (length + 1))
  else if x0 = x1 then do
    let top := if y0 < y1 then y0 else y1
    let length ← int (if y0 < y1 then y1 - y0 else y0 - y1)
    return vline x0 top (← int (length + 1))
  else do
    let dx ← int (if x1 > x0 then x1 - x0 else x0 - x1)
    let dy ← int (if y1 > y0 then y1 - y0 else y0 - y1)
    let error ← int (dx - dy)
    plot dx dy (if x0 < x1 then 1 else -1) (if y0 < y1 then 1 else -1) x1 y1 fuel x0 y0 error

/-! ## The nearest pixels -/

/-- `d * i / m`, rounded to the nearest, downwards half way. -/
def near (m d i : Nat) : Nat := (2 * (d * i) + m - 1) / (2 * m)

section

variable {m d i q : Nat}

theorem near_eq (above : 2 * (m * q) < 2 * (d * i) + m) (below : 2 * (d * i) ≤ 2 * (m * q) + m) :
    near m d i = q := by
  have times : ∀ q, q * (2 * m) = 2 * (m * q) := fun q => by ring
  apply Nat.div_eq_of_lt_le
  · rw [times]
    omega
  · rw [times, Nat.mul_succ m]
    omega

theorem near_bounds (d i : Nat) (pos : 0 < m) : 2 * (m * near m d i) < 2 * (d * i) + m ∧
    2 * (d * i) ≤ 2 * (m * near m d i) + m := by
  have parts := Nat.div_add_mod (2 * (d * i) + m - 1) (2 * m)
  have short := Nat.mod_lt (2 * (d * i) + m - 1) (Nat.mul_pos Nat.two_pos pos)
  rw [Nat.mul_assoc] at parts
  unfold near
  omega

theorem near_self (pos : 0 < m) : near m m i = i := near_eq (by omega) (by omega)

theorem near_succ (pos : 0 < m) (shorter : d ≤ m) : near m d (i + 1) = near m d i +
    if 2 * (m * near m d i) + m < 2 * (d * i) + 2 * d then 1 else 0 := by
  have bounds := near_bounds d i pos
  split <;> apply near_eq <;> simp only [Nat.mul_add_one, Nat.add_zero] <;> omega

/-- By Bézout the distances to the ideal line, times `m`, are all the multiples of
the greatest common divisor that rounding allows. -/
theorem near_attains (pos : 0 < m) {r : Int} (divides : (Nat.gcd m d : Int) ∣ r)
    (low : -(m : Int) ≤ 2 * r) (high : 2 * r < m) : ∃ i < m,
      (m * near m d i : Int) = d * i + r := by
  obtain ⟨k, rfl⟩ := divides
  have bezout := Nat.gcd_eq_gcd_ab m d
  set u := Nat.gcdA m d
  set v := Nat.gcdB m d
  have parts := Int.mul_ediv_add_emod (-(v * k)) m
  have least := Int.emod_nonneg (-(v * k)) (Int.natCast_ne_zero.mpr (Nat.pos_iff_ne_zero.mp pos))
  have most := Int.emod_lt_of_pos (-(v * k)) (Int.natCast_pos.mpr pos)
  obtain ⟨i, remainder⟩ := Int.eq_ofNat_of_zero_le least
  rw [remainder] at parts most
  have multiple : (d * i + Nat.gcd m d * k : Int) = m * (u * k - d * (-(v * k) / m)) := by
    rw [bezout, show (i : Int) = -(v * k) - m * (-(v * k) / m) by omega]
    ring
  have whole : 0 ≤ u * k - d * (-(v * k) / m) := by
    by_contra negative
    have below : (m : Int) * (u * k - d * (-(v * k) / m)) ≤ m * -1 :=
      Int.mul_le_mul_of_nonneg_left (by omega) (by omega)
    have product : (0 : Int) ≤ d * i := by positivity
    omega
  obtain ⟨q, quotient⟩ := Int.eq_ofNat_of_zero_le whole
  rw [quotient] at multiple
  refine ⟨i, by omega, ?_⟩
  rw [multiple, @near_eq m d i q]
  · zify
    omega
  · zify
    omega

/-- Away from ties the rounding does not depend on the end it starts from. -/
theorem near_rev (pos : 0 < m) (inside : i ≤ m) (noTie : 2 * (d * i) ≠ 2 * (m * near m d i) + m) :
    near m d (m - i) = d - near m d i := by
  have bounds := near_bounds d i pos
  have back : d * (m - i) + d * i = d * m := by rw [← Nat.mul_add, Nat.sub_add_cancel inside]
  have rest : m * (d - near m d i) = d * m - m * near m d i := by rw [Nat.mul_sub, Nat.mul_comm d]
  apply near_eq <;> omega

theorem near_tie (pos : 0 < m) (inside : i ≤ m) (tie : 2 * (d * i) = 2 * (m * near m d i) + m) :
    near m d (m - i) + near m d i + 1 = d := by
  have back : d * (m - i) + d * i = d * m := by rw [← Nat.mul_add, Nat.sub_add_cancel inside]
  have below : near m d i < d := by
    by_contra above
    have most := Nat.mul_le_mul_left m (Nat.le_of_not_lt above)
    have least := Nat.mul_le_mul_left d inside
    rw [Nat.mul_comm m] at most
    omega
  have rest : m * (d - near m d i - 1) = d * m - m * near m d i - m := by
    rw [Nat.mul_sub, Nat.mul_sub, Nat.mul_comm m d, Nat.mul_one]
  have room : m * near m d i + m ≤ d * m := by
    rw [← Nat.mul_succ, Nat.mul_comm d]
    exact Nat.mul_le_mul_left m below
  rw [@near_eq m d (m - i) (d - near m d i - 1) (by omega) (by omega)]
  omega

variable {dx dy : Nat}

/-- The error term after `i` rounds. -/
def slack (m dx dy i : Nat) : Int := dx * (near m dy i + 1) - dy * (near m dx i + 1)

section

variable (longer : max dx dy = m) (pos : 0 < m)
include longer pos

/-- The error term says which of the coordinates go on. -/
theorem near_turn (i : Nat) : near m dy (i + 1) = near m dy i +
    if slack m dx dy i * 2 < dx then 1 else 0 := by
  have row := near_bounds dy i pos
  have column := near_bounds dx i pos
  rw [near_succ pos (by omega), slack, mul_add, mul_add]
  refine congrArg _ (if_congr ?_ rfl rfl)
  rcases Nat.lt_or_ge dy dx with wide | tall
  · obtain rfl : dx = m := by omega
    rw [near_self pos]
    omega
  · obtain rfl : dy = m := by omega
    rw [near_self pos] at row ⊢
    rcases Nat.lt_or_eq_of_le tall with tall | rfl
    · omega
    · rw [near_self pos]
      omega

theorem near_across (i : Nat) : near m dx (i + 1) = near m dx i +
    if slack m dx dy i * 2 > -(dy : Int) then 1 else 0 := by
  rw [near_turn (max_comm dx dy ▸ longer) pos, slack, slack]
  refine congrArg _ (if_congr ?_ rfl rfl)
  omega

end

theorem near_zero (zero : d * i = 0) : near m d i = 0 := Nat.div_eq_zero_iff.mpr (by omega)

/-- What a round computes stays in `int`: the doubled error term, the error term
between the two steps and the next one. -/
structure Round (m dx dy i : Nat) : Prop where
  doubled : IsInt (slack m dx dy i * 2)
  between : IsInt (slack m dx dy i + -dy * (near m dx (i + 1) - near m dx i))
  next : IsInt (slack m dx dy (i + 1))

/-- The error terms of a slanted line stay in `int`, whatever multiple `r` of the
greatest common divisor the rounding leaves. -/
def Fits (dx dy : Nat) : Prop :=
  ∀ r : Int, (Nat.gcd dx dy : Int) ∣ r → -(max dx dy : Nat) ≤ 2 * r → 2 * r < (max dx dy : Nat) →
    if dy ≤ dx then 2 * (r + dx - dy) < 2 ^ 31 ∧ -2 ^ 31 ≤ r + dx - 2 * dy
    else 2 * (r + dy - dx) ≤ 2 ^ 31 ∧ (2 * (r + dy - dx) < dy → r + 2 * dy - dx ≤ 2 ^ 31)

theorem slack_wide (pos : 0 < dx) :
    slack dx dx dy i = (dx * near dx dy i - dy * i : Int) + dx - dy := by
  rw [slack, near_self pos]
  ring

theorem slack_tall (pos : 0 < dy) :
    slack dy dx dy i = -((dy * near dy dx i - dx * i : Int) + dy - dx) := by
  rw [slack, near_self pos]
  ring

/-- What rounding leaves after `i` steps along the longer side. -/
theorem near_leaves (pos : 0 < m) (i : Nat) : (Nat.gcd m d : Int) ∣ m * near m d i - d * i ∧
    -(m : Int) ≤ 2 * (m * near m d i - d * i) ∧ 2 * (m * near m d i - d * i : Int) < m := by
  have bounds := near_bounds d i pos
  zify at bounds
  refine ⟨dvd_sub (Dvd.dvd.mul_right ?_ _) (Dvd.dvd.mul_right ?_ _), by omega, by omega⟩
  · exact Int.natCast_dvd_natCast.mpr (Nat.gcd_dvd_left ..)
  · exact Int.natCast_dvd_natCast.mpr (Nat.gcd_dvd_right ..)

theorem round_wide (wide : dy ≤ dx) (pos : 0 < dx) (small : dx < 2 ^ 31) :
    (∀ i < dx, Round dx dx dy i) ↔ Fits dx dy := by
  simp only [Fits, if_pos wide, max_eq_left wide]
  constructor
  · intro rounds r divides low high
    obtain ⟨i, inside, leaves⟩ := near_attains pos divides low high
    have ⟨doubled, between, _⟩ := rounds i inside
    rw [slack_wide pos, leaves] at doubled between
    rw [near_self pos, near_self pos] at between
    push_cast at between
    exact ⟨by omega, by omega⟩
  · intro fits i inside
    have ⟨divides, low, high⟩ := @near_leaves dx dy pos i
    have ⟨divides', low', high'⟩ := @near_leaves dx dy pos (i + 1)
    have here := fits _ divides low high
    have after := fits _ divides' low' high'
    constructor
    · rw [slack_wide pos]
      omega
    · rw [slack_wide pos, near_self pos, near_self pos]
      push_cast
      omega
    · rw [slack_wide pos]
      omega

theorem round_tall (tall : dx < dy) (small : dy < 2 ^ 31) :
    (∀ i < dy, Round dy dx dy i) ↔ Fits dx dy := by
  have pos : 0 < dy := by omega
  have longer : max dx dy = dy := max_eq_right tall.le
  simp only [Fits, if_neg (Nat.not_le_of_lt tall), longer, Nat.gcd_comm dx dy]
  constructor
  · intro rounds r divides low high
    obtain ⟨i, inside, leaves⟩ := near_attains pos divides low high
    have ⟨doubled, between, _⟩ := rounds i inside
    rw [near_across longer pos] at between
    rw [slack_tall pos, leaves] at doubled between
    refine ⟨by omega, fun moves => ?_⟩
    rw [if_pos (by omega)] at between
    push_cast at between
    omega
  · intro fits i inside
    have ⟨divides, low, high⟩ := @near_leaves dy dx pos i
    have ⟨divides', low', high'⟩ := @near_leaves dy dx pos (i + 1)
    have here := fits _ divides low high
    have after := fits _ divides' low' high'
    constructor
    · rw [slack_tall pos]
      omega
    · rw [near_across longer pos, slack_tall pos]
      split <;> push_cast <;> omega
    · rw [slack_tall pos]
      omega

theorem near_last (pos : 0 < m) : near m d m = d := by
  have swap := Nat.mul_comm m d
  exact near_eq (by omega) (by omega)

theorem near_le (pos : 0 < m) (inside : i ≤ m) : near m d i ≤ d := by
  have most := Nat.mul_le_mul_left d inside
  have bounds := near_bounds d i pos
  by_contra more
  have past := Nat.mul_le_mul_left m (Nat.lt_of_not_le more)
  rw [Nat.mul_succ, Nat.mul_comm m] at past
  omega

end

/-! ## Both directions -/

/-- The longer side of the rectangle between two pixels. -/
def extent (a b : Pixel) : Nat :=
  max (b.1 - a.1).natAbs (b.2 - a.2).natAbs

/-- No value of the drawing leaves `int`. -/
def Drawable (a b : Pixel) : Prop :=
  if a.1 = b.1 ∨ a.2 = b.2 then extent a b + 1 < 2 ^ 31
  else extent a b < 2 ^ 31 ∧ Fits (b.1 - a.1).natAbs (b.2 - a.2).natAbs

theorem eq_of_extent {a b : Pixel} (zero : extent a b = 0) : a = b := by
  unfold extent at zero
  exact Prod.ext (by omega) (by omega)

/-- Two pixels that share an edge or a corner. -/
def Adjacent (p q : Pixel) : Prop := extent p q = 1

/-- A path over adjacent pixels that visits none of them twice. -/
structure IsPath (a b : Pixel) (length : Nat) (path : Nat → Pixel) : Prop where
  first : path 0 = a
  last : path length = b
  connected : ∀ i < length, Adjacent (path i) (path (i + 1))
  distinct : ∀ i ≤ length, ∀ j ≤ length, path i = path j → i = j

/-- A coordinate after `i` of `m` steps. -/
def spot (m : Nat) (x0 x1 : Int) (i : Nat) : Int :=
  x0 + (if x0 < x1 then 1 else -1) * near m (x1 - x0).natAbs i

def pixel (a b : Pixel) (i : Nat) : Pixel :=
  (spot (extent a b) a.1 b.1 i, spot (extent a b) a.2 b.2 i)

section

variable {m i : Nat} {x0 x1 : Int}

theorem spot_last (pos : 0 < m) : spot m x0 x1 m = x1 := by
  unfold spot
  rw [near_last pos]
  split <;> omega

theorem spot_succ (pos : 0 < m) (shorter : (x1 - x0).natAbs ≤ m) :
    (spot m x0 x1 (i + 1) - spot m x0 x1 i).natAbs ≤ 1 := by
  unfold spot
  rw [near_succ pos shorter]
  split <;> split <;> omega

theorem spot_longest (longest : (x1 - x0).natAbs = m) (inside : i ≤ m) :
    spot m x0 x1 i = x0 + (if x0 < x1 then 1 else -1) * (i : Int) := by
  rcases Nat.eq_zero_or_pos m with rfl | pos
  · rw [Nat.le_zero.mp inside, spot, near_zero (Nat.mul_zero _)]
  · rw [spot, longest, near_self pos]

theorem spot_same (m : Nat) (x : Int) (i : Nat) : spot m x x i = x := by
  simp [spot, near_zero]

/-- The coordinates of a straight line. -/
theorem spot_cover (longest : (x1 - x0).natAbs = m) {x : Int} :
    (∃ i ≤ m, spot m x0 x1 i = x) ↔ min x0 x1 ≤ x ∧ x < min x0 x1 + (m + 1) := by
  constructor
  · rintro ⟨i, inside, rfl⟩
    rw [spot_longest longest inside]
    split <;> omega
  · intro within
    refine ⟨(x - x0).natAbs, by omega, ?_⟩
    rw [spot_longest longest (by omega)]
    split <;> omega

theorem spot_int (pos : 0 < m) (inside : i ≤ m)
    (first : IsInt x0) (last : IsInt x1) :
    int (spot m x0 x1 i) = some (spot m x0 x1 i) := by
  have bound := @near_le m (x1 - x0).natAbs i pos inside
  apply if_pos
  unfold spot
  split <;> omega

theorem spot_rev (pos : 0 < m) (inside : i ≤ m)
    (noTie : ∀ q, 2 * ((x1 - x0).natAbs * i) ≠ 2 * (m * q) + m) :
    spot m x1 x0 i = spot m x0 x1 (m - i) := by
  have swap : (x0 - x1).natAbs = (x1 - x0).natAbs := by omega
  have bound := @near_le m (x1 - x0).natAbs i pos inside
  unfold spot
  rw [swap, near_rev pos inside (noTie _)]
  split <;> split <;> omega

/-- At a tie the two directions take different pixels. -/
theorem spot_tie {y0 y1 : Int} (longest : (x1 - x0).natAbs = m) (pos : 0 < m)
    (tie : 2 * Nat.gcd m (y1 - y0).natAbs ∣ m) :
    ∃ i ≤ m, ∀ j ≤ m, spot m x1 x0 j = spot m x0 x1 i → spot m y1 y0 j ≠ spot m y0 y1 i := by
  obtain ⟨k, half⟩ := tie
  obtain ⟨i, inside, leaves⟩ := @near_attains m (y1 - y0).natAbs pos
    (-(Nat.gcd m (y1 - y0).natAbs * k : Nat)) (by simp) (by rw [Nat.mul_assoc] at half; omega)
    (by omega)
  refine ⟨i, inside.le, fun j within columns rows => ?_⟩
  rw [spot_longest longest inside.le, spot_longest (by omega) within] at columns
  obtain rfl : j = m - i := by split at columns <;> split at columns <;> omega
  have split := @near_tie m (y1 - y0).natAbs i pos inside.le (by
    rw [Nat.mul_assoc] at half
    exact_mod_cast (by omega : (2 * ((y1 - y0).natAbs * i) : Int) =
      2 * (m * near m (y1 - y0).natAbs i) + m))
  unfold spot at rows
  rw [show (y0 - y1).natAbs = (y1 - y0).natAbs by omega] at rows
  split at rows <;> split at rows <;> omega

end

theorem mem_fillRect {x y width height : Int} {p : Pixel} : p ∈ fillRect x y width height ↔
    (x ≤ p.1 ∧ p.1 < x + width) ∧ y ≤ p.2 ∧ p.2 < y + height := by
  unfold fillRect
  simp only [List.mem_flatMap, List.mem_map, List.mem_range]
  constructor
  · rintro ⟨i, columns, j, rows, rfl⟩
    omega
  · intro ⟨columns, rows⟩
    refine ⟨(p.1 - x).toNat, by omega, (p.2 - y).toNat, by omega, Prod.ext ?_ ?_⟩ <;> simp <;> omega

section

variable {a b : Pixel}

theorem pixel_path : IsPath a b (extent a b) (pixel a b) := by
  have first : pixel a b 0 = a := by
    simp [pixel, spot, near_zero]
  rcases Nat.eq_zero_or_pos (extent a b) with zero | pos
  · rw [zero]
    exact ⟨first, first.trans (eq_of_extent zero), nofun, by omega⟩
  have distinct : ∀ i ≤ extent a b, ∀ j ≤ extent a b, pixel a b i = pixel a b j → i = j := by
    intro i onI j onJ same
    have ⟨columns, rows⟩ := Prod.mk.inj same
    have longest : extent a b = _ ∨ extent a b = _ := max_choice ..
    rcases longest with longest | longest
    · rw [spot_longest longest.symm onI, spot_longest longest.symm onJ] at columns
      split at columns <;> omega
    · rw [spot_longest longest.symm onI, spot_longest longest.symm onJ] at rows
      split at rows <;> omega
  refine ⟨first, Prod.ext (spot_last pos) (spot_last pos), fun i inside => le_antisymm ?_ ?_,
    distinct⟩
  · exact max_le (spot_succ pos (le_max_left ..)) (spot_succ pos (le_max_right ..))
  · refine Nat.pos_of_ne_zero fun zero => ?_
    have stays := distinct i (by omega) (i + 1) inside (eq_of_extent zero)
    omega

theorem advance_eq {moves : Prop} [Decidable moves] {error change x step : Int} {p q : Nat}
    (turn : q = p + if moves then 1 else 0) (known : IsInt error)
    (moved : int (x + step * q) = some (x + step * q)) :
    advance moves error change (x + step * p) step =
      (int (error + change * (q - p))).map fun error => (error, x + step * q) := by
  unfold advance
  split at turn <;> subst turn
  · push_cast [add_sub_cancel_left, mul_add, mul_one, ← add_assoc] at moved ⊢
    rw [if_pos ‹_›, moved]
    cases int (error + change) <;> rfl
  · have stays : int error = some error := if_pos known
    simp [*]

theorem distance (x0 x1 : Int) : (if x0 < x1 then x1 - x0 else x0 - x1) = (x1 - x0).natAbs ∧
    (if x0 < x1 then x0 else x1) = min x0 x1 := by
  split <;> omega

theorem length_next {n : Nat} {pixels : List Pixel} (line : Int → List Pixel) :
    (do let length ← int n; return line (← int (length + 1))) = some pixels ↔
      n + 1 < 2 ^ 31 ∧ line (n + 1) = pixels := by
  by_cases small : n + 1 < 2 ^ 31
  · rw [int, if_pos (by omega), Option.bind_eq_bind, Option.bind_some, int, if_pos (by omega)]
    simp only [Option.bind_some, Option.pure_def, Option.some.injEq, small, true_and]
  · simp only [small, false_and, iff_false]
    by_cases fits : n < 2 ^ 31
    · rw [int, if_pos (by omega), Option.bind_eq_bind, Option.bind_some, int, if_neg (by omega)]
      simp
    · rw [int, if_neg (by omega)]
      simp

theorem drawLine_level (row : a.2 = b.2) (fuel : Nat) {pixels : List Pixel} :
    drawLine fuel a.1 a.2 b.1 b.2 = some pixels ↔
      Drawable a b ∧ hline (min a.1 b.1) a.2 (extent a b + 1) = pixels := by
  have longer : (b.1 - a.1).natAbs = extent a b := by
    unfold extent
    omega
  have drawable : Drawable a b ↔ extent a b + 1 < 2 ^ 31 := by
    rw [Drawable, if_pos (.inr row)]
  rw [drawable, drawLine, if_pos row, (distance a.1 b.1).1, (distance a.1 b.1).2, longer]
  exact length_next fun length => hline (min a.1 b.1) a.2 length

theorem drawLine_upright (column : a.1 = b.1) (row : a.2 ≠ b.2) (fuel : Nat)
    {pixels : List Pixel} :
    drawLine fuel a.1 a.2 b.1 b.2 = some pixels ↔
      Drawable a b ∧ vline a.1 (min a.2 b.2) (extent a b + 1) = pixels := by
  have longer : (b.2 - a.2).natAbs = extent a b := by
    unfold extent
    omega
  have drawable : Drawable a b ↔ extent a b + 1 < 2 ^ 31 := by
    rw [Drawable, if_pos (.inl column)]
  rw [drawable, drawLine, if_neg row, if_pos column, (distance a.2 b.2).1, (distance a.2 b.2).2,
    longer]
  exact length_next fun length => vline a.1 (min a.2 b.2) length

variable (ints : ∀ p ∈ [a, b], ∀ x ∈ [p.1, p.2], IsInt x)
include ints

/-- A round of the loop is defined if its error terms are. -/
theorem plot_round (pos : 0 < extent a b) {i : Nat} (inside : i < extent a b) {fuel : Nat}
    {pixels : List Pixel} :
    plot (b.1 - a.1).natAbs (b.2 - a.2).natAbs (if a.1 < b.1 then 1 else -1)
      (if a.2 < b.2 then 1 else -1) b.1 b.2 (fuel + 1) (pixel a b i).1 (pixel a b i).2
      (slack (extent a b) (b.1 - a.1).natAbs (b.2 - a.2).natAbs i) = some pixels ↔
    Round (extent a b) (b.1 - a.1).natAbs (b.2 - a.2).natAbs i ∧ ∃ rest,
      plot (b.1 - a.1).natAbs (b.2 - a.2).natAbs (if a.1 < b.1 then 1 else -1)
        (if a.2 < b.2 then 1 else -1) b.1 b.2 fuel (pixel a b (i + 1)).1 (pixel a b (i + 1)).2
        (slack (extent a b) (b.1 - a.1).natAbs (b.2 - a.2).natAbs (i + 1)) = some rest ∧
      pixel a b i :: rest = pixels := by
  have path := @pixel_path a b
  have going : ¬ ((pixel a b i).1 = b.1 ∧ (pixel a b i).2 = b.2) := by
    rintro ⟨column, row⟩
    have arrived := path.distinct i inside.le (extent a b) le_rfl
      ((Prod.ext column row).trans path.last.symm)
    omega
  have column := @spot_int _ (i + 1) a.1 b.1 pos inside (ints a (by simp) _ (by simp))
    (ints b (by simp) _ (by simp))
  have row := @spot_int _ (i + 1) a.2 b.2 pos inside (ints a (by simp) _ (by simp))
    (ints b (by simp) _ (by simp))
  have longer : max (b.1 - a.1).natAbs (b.2 - a.2).natAbs = extent a b := rfl
  dsimp only [pixel, spot] at going column row ⊢
  set dx := (b.1 - a.1).natAbs
  set dy := (b.2 - a.2).natAbs
  set m := extent a b
  have next : slack m dx dy i + -dy * (near m dx (i + 1) - near m dx i) +
      dx * (near m dy (i + 1) - near m dy i) = slack m dx dy (i + 1) := by
    unfold slack
    ring
  rw [plot, if_neg going]
  by_cases doubled : IsInt (slack m dx dy i * 2)
  · have known : IsInt (slack m dx dy i) := by omega
    rw [int, if_pos doubled, Option.bind_eq_bind, Option.bind_some,
      advance_eq (near_across longer pos i) known column]
    by_cases between : IsInt (slack m dx dy i + -dy * (near m dx (i + 1) - near m dx i))
    · rw [int, if_pos between, Option.map_some, Option.bind_eq_bind, Option.bind_some]
      dsimp only
      rw [advance_eq (near_turn longer pos i) between row, next]
      by_cases last : IsInt (slack m dx dy (i + 1))
      · rw [int, if_pos last, Option.map_some, Option.bind_some]
        simp [Option.bind_eq_some_iff, Round.mk doubled between last]
      · rw [int, if_neg last]
        simp [show ¬ Round m dx dy i from fun round => last round.next]
    · rw [int, if_neg between]
      simp [show ¬ Round m dx dy i from fun round => between round.between]
  · rw [int, if_neg doubled]
    simp [show ¬ Round m dx dy i from fun round => doubled round.doubled]

/-- The loop sets the pixels of the path from where it is. -/
theorem plot_run (pos : 0 < extent a b) {n i : Nat} (done : i + n = extent a b) (fuel : Nat)
    {pixels : List Pixel} :
    plot (b.1 - a.1).natAbs (b.2 - a.2).natAbs (if a.1 < b.1 then 1 else -1)
      (if a.2 < b.2 then 1 else -1) b.1 b.2 (fuel + n + 1) (pixel a b i).1 (pixel a b i).2
      (slack (extent a b) (b.1 - a.1).natAbs (b.2 - a.2).natAbs i) = some pixels ↔
    (∀ j, i ≤ j → j < extent a b → Round (extent a b) (b.1 - a.1).natAbs (b.2 - a.2).natAbs j) ∧
      (List.range' i (n + 1)).map (pixel a b) = pixels := by
  induction n generalizing i pixels with
  | zero =>
    have last : pixel a b i = b := by
      rw [show i = extent a b from done]
      exact pixel_path.last
    have none_left : ∀ j, i ≤ j → j < extent a b →
        Round (extent a b) (b.1 - a.1).natAbs (b.2 - a.2).natAbs j := by omega
    rw [plot, last, if_pos ⟨rfl, rfl⟩, List.range'_one, List.map_singleton, last,
      Option.some.injEq]
    exact ⟨fun same => ⟨none_left, same⟩, And.right⟩
  | succ n ih =>
    have rest := @ih (i + 1) (by omega)
    rw [← Nat.add_assoc, plot_round ints pos (by omega)]
    simp only [rest]
    constructor
    · rintro ⟨round, _, ⟨rounds, rfl⟩, rfl⟩
      refine ⟨fun j since inside => ?_, rfl⟩
      rcases Nat.eq_or_lt_of_le since with rfl | later
      · exact round
      · exact rounds j later inside
    · rintro ⟨rounds, rfl⟩
      exact ⟨rounds i le_rfl (by omega), _, ⟨fun j since => rounds j (by omega), rfl⟩, rfl⟩

/-- The loop of a slanted line sets the pixels of the path, or some error term leaves
`int`. -/
theorem drawLine_slanted (column : a.1 ≠ b.1) (row : a.2 ≠ b.2) (fuel : Nat)
    {pixels : List Pixel} :
    drawLine (fuel + extent a b + 1) a.1 a.2 b.1 b.2 = some pixels ↔
      Drawable a b ∧ (List.range' 0 (extent a b + 1)).map (pixel a b) = pixels := by
  have longer : max (b.1 - a.1).natAbs (b.2 - a.2).natAbs = extent a b := rfl
  have pos : 0 < extent a b := by omega
  have drawable : Drawable a b ↔ extent a b < 2 ^ 31 ∧
      Fits (b.1 - a.1).natAbs (b.2 - a.2).natAbs := by
    rw [Drawable, if_neg (by tauto)]
  rw [drawable, drawLine, if_neg row, if_neg column]
  simp only [gt_iff_lt, distance]
  by_cases small : extent a b < 2 ^ 31
  · have run := @plot_run a b ints pos _ 0 (Nat.zero_add _) fuel pixels
    rw [pixel_path.first, slack, near_zero (Nat.mul_zero _), near_zero (Nat.mul_zero _)] at run
    rw [int, if_pos (by omega), Option.bind_eq_bind, Option.bind_some, int, if_pos (by omega),
      Option.bind_some, int, if_pos (by omega)]
    have fits : (∀ i < extent a b, Round (extent a b) (b.1 - a.1).natAbs (b.2 - a.2).natAbs i) ↔
        Fits (b.1 - a.1).natAbs (b.2 - a.2).natAbs := by
      rcases le_or_gt (b.2 - a.2).natAbs (b.1 - a.1).natAbs with wide | tall
      · rw [show extent a b = _ from max_eq_left wide]
        exact round_wide wide (by omega) (by omega)
      · rw [show extent a b = _ from max_eq_right tall.le]
        exact round_tall tall (by omega)
    rw [and_iff_right small, ← fits]
    simpa using run
  · simp only [small, false_and, iff_false]
    rcases Nat.lt_or_ge (b.1 - a.1).natAbs (2 ^ 31) with narrow | broad
    · rw [int, if_pos (by omega), Option.bind_eq_bind, Option.bind_some, int, if_neg (by omega)]
      simp
    · rw [int, if_neg (by omega)]
      simp

/-- A line is drawn if its values stay in `int`, and then over the pixels of the path. -/
theorem drawLine_pixels : ∃ pixels,
    (∀ fuel drawn, drawLine (fuel + extent a b + 1) a.1 a.2 b.1 b.2 = some drawn ↔
      Drawable a b ∧ pixels = drawn) ∧
      ∀ p, p ∈ pixels ↔ ∃ i ≤ extent a b, pixel a b i = p := by
  have longer : max (b.1 - a.1).natAbs (b.2 - a.2).natAbs = extent a b := rfl
  by_cases row : a.2 = b.2
  · refine ⟨_, fun fuel drawn => drawLine_level row _, fun p => ?_⟩
    simp only [hline, mem_fillRect, pixel, Prod.ext_iff, row, spot_same, ← and_assoc,
      exists_and_right, @spot_cover (extent a b) a.1 b.1 (by omega) p.1]
    omega
  by_cases column : a.1 = b.1
  · refine ⟨_, fun fuel drawn => drawLine_upright column row _, fun p => ?_⟩
    simp only [vline, mem_fillRect, pixel, Prod.ext_iff, column, spot_same, and_left_comm,
      exists_and_left, @spot_cover (extent a b) a.2 b.2 (by omega) p.2]
    omega
  · refine ⟨_, fun fuel drawn => drawLine_slanted ints column row fuel, fun p => ?_⟩
    simp

end

section

variable {a b : Pixel}

theorem extent_symm : extent b a = extent a b := by
  unfold extent
  omega

theorem Drawable.symm (drawable : Drawable a b) : Drawable b a := by
  have columns : (a.1 - b.1).natAbs = (b.1 - a.1).natAbs := by omega
  have rows : (a.2 - b.2).natAbs = (b.2 - a.2).natAbs := by omega
  unfold Drawable at drawable ⊢
  rw [extent_symm, columns, rows]
  simpa only [eq_comm] using drawable

/-- Away from ties the way back visits the same pixels. -/
theorem pixel_rev (noTie : ¬ 2 * Int.gcd (b.1 - a.1) (b.2 - a.2) ∣ extent a b) {i : Nat}
    (inside : i ≤ extent a b) : pixel b a i = pixel a b (extent a b - i) := by
  have pos : 0 < extent a b := Nat.pos_of_ne_zero fun zero => noTie (zero ▸ dvd_zero _)
  have apart : ∀ d, Int.gcd (b.1 - a.1) (b.2 - a.2) ∣ d → ∀ q,
      2 * (d * i) ≠ 2 * (extent a b * q) + extent a b := by
    intro d divides q tie
    have longest : extent a b = _ ∨ extent a b = _ := max_choice ..
    have whole : Int.gcd (b.1 - a.1) (b.2 - a.2) ∣ extent a b := by
      rcases longest with longest | longest <;> rw [longest]
      · exact Nat.gcd_dvd_left ..
      · exact Nat.gcd_dvd_right ..
    have halved := Nat.mul_dvd_mul_left 2 (Nat.dvd_sub (divides.mul_right i) (whole.mul_right q))
    rw [show 2 * (d * i - extent a b * q) = extent a b by omega] at halved
    exact noTie halved
  unfold pixel
  rw [extent_symm]
  exact Prod.ext (spot_rev pos inside (apart _ (Nat.gcd_dvd_left ..)))
    (spot_rev pos inside (apart _ (Nat.gcd_dvd_right ..)))

/-- At a tie a pixel of the way there is none of the way back. -/
theorem pixel_tie (apart : a ≠ b) (tie : 2 * Int.gcd (b.1 - a.1) (b.2 - a.2) ∣ extent a b) :
    ∃ i ≤ extent a b, ∀ j ≤ extent a b, pixel b a j ≠ pixel a b i := by
  have pos : 0 < extent a b := Nat.pos_of_ne_zero fun zero => apart (eq_of_extent zero)
  have longest : extent a b = _ ∨ extent a b = _ := max_choice ..
  simp only [pixel, @extent_symm a b]
  rcases longest with longest | longest
  · rw [Int.gcd, ← longest] at tie
    obtain ⟨i, inside, differs⟩ := spot_tie longest.symm pos tie
    refine ⟨i, inside, fun j within same => ?_⟩
    exact differs j within (Prod.ext_iff.mp same).1 (Prod.ext_iff.mp same).2
  · rw [Int.gcd, Nat.gcd_comm, ← longest] at tie
    obtain ⟨i, inside, differs⟩ := spot_tie longest.symm pos tie
    refine ⟨i, inside, fun j within same => ?_⟩
    exact differs j within (Prod.ext_iff.mp same).2 (Prod.ext_iff.mp same).1

end

/-- Both directions draw the same path between the two ends exactly if no value leaves
`int` and the ideal line nowhere passes half way between two pixels. -/
theorem drawLine_symmetric (a b : Pixel) (ints : ∀ p ∈ [a, b], ∀ x ∈ [p.1, p.2], IsInt x) :
    (∃ forth back path,
      (∀ fuel, extent a b < fuel → drawLine fuel a.1 a.2 b.1 b.2 = some forth ∧
        drawLine fuel b.1 b.2 a.1 a.2 = some back) ∧
      IsPath a b (extent a b) path ∧ (∀ p, p ∈ forth ↔ ∃ i ≤ extent a b, path i = p) ∧
      ∀ p, p ∈ back ↔ p ∈ forth) ↔
    Drawable a b ∧ (a = b ∨ ¬ 2 * Int.gcd (b.1 - a.1) (b.2 - a.2) ∣ extent a b) := by
  obtain ⟨forth, runs, drawn⟩ := drawLine_pixels ints
  obtain ⟨back, returns, redrawn⟩ := @drawLine_pixels b a fun p mem =>
    ints p (by simpa [or_comm] using mem)
  rw [extent_symm] at returns redrawn
  constructor
  · rintro ⟨_, _, _, draws, _, _, same⟩
    have ⟨there, again⟩ := draws (0 + extent a b + 1) (by omega)
    obtain ⟨drawable, rfl⟩ := (runs ..).mp there
    obtain ⟨_, rfl⟩ := (returns ..).mp again
    refine ⟨drawable, or_iff_not_imp_left.mpr fun apart tie => ?_⟩
    obtain ⟨i, inside, differs⟩ := pixel_tie apart tie
    obtain ⟨j, within, met⟩ := (redrawn _).mp ((same _).mpr ((drawn _).mpr ⟨i, inside, rfl⟩))
    exact differs j within met
  · rintro ⟨drawable, noTie⟩
    refine ⟨forth, back, pixel a b, fun fuel enough => ?_, pixel_path, drawn, fun p => ?_⟩
    · obtain ⟨more, rfl⟩ := Nat.exists_eq_add_of_lt enough
      rw [Nat.add_comm _ more]
      exact ⟨(runs ..).mpr ⟨drawable, rfl⟩, (returns ..).mpr ⟨drawable.symm, rfl⟩⟩
    rw [drawn, redrawn]
    rcases noTie with rfl | noTie
    · rfl
    constructor
    · rintro ⟨i, inside, rfl⟩
      exact ⟨_, Nat.sub_le .., (pixel_rev noTie inside).symm⟩
    · rintro ⟨i, inside, rfl⟩
      refine ⟨extent a b - i, Nat.sub_le .., (pixel_rev noTie (Nat.sub_le ..)).trans ?_⟩
      rw [Nat.sub_sub_self inside]

theorem drawLine_symmetric_steep : ∃ forth back : List Pixel,
    drawLine 6 0 0 (-1) 5 = some forth ∧ drawLine 6 (-1) 5 0 0 = some back ∧
      ∀ p, p ∈ back ↔ p ∈ forth := by
  have fits : Fits 1 5 := by
    intro r _ low high
    simp only [show max 1 5 = 5 from rfl] at low high
    rw [if_neg (by decide)]
    omega
  obtain ⟨forth, back, _, runs, _, _, same⟩ :=
    (drawLine_symmetric (0, 0) (-1, 5) (by decide)).mpr ⟨by
      rw [Drawable, if_neg (by decide)]
      exact ⟨by decide, fits⟩, .inr (by decide)⟩
  have ⟨there, again⟩ := runs 6 (by decide)
  exact ⟨forth, back, there, again, same⟩

/-- The ideal line passes exactly between two pixels of the middle column. -/
theorem drawLine_depends_on_order :
    drawLine 3 0 0 2 1 = some [(0, 0), (1, 0), (2, 1)] ∧
      drawLine 3 2 1 0 0 = some [(2, 1), (1, 1), (0, 0)] := by
  decide

end SavanXP.Gfx
