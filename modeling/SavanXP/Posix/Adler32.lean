import Mathlib

/-!
# The Adler-32 sum of image data

The sums are reduced once a block of bytes. An addition that would not fit in
32 bits makes the computation undefined here, so that a defined result says
that none wrapped.
-/

namespace SavanXP.Posix.Adler32

def uint32 (value : Nat) : Option Nat :=
  if value < 2 ^ 32 then some value else none

/-- The inner loop over one block of bytes. -/
def addBytes (a b : Nat) : List UInt8 → Option (Nat × Nat)
  | [] => some (a, b)
  | byte :: data => do
    let a ← uint32 (a + byte.toNat)
    let b ← uint32 (b + a)
    addBytes a b data

def addBlocks (a b : Nat) (data : List UInt8) : Option (Nat × Nat) :=
  if data = [] then some (a, b)
  else do
    let sums ← addBytes a b (data.take 5552)
    addBlocks (sums.1 % 65521) (sums.2 % 65521) (data.drop 5552)
termination_by data.length
decreasing_by
  have nonempty := List.length_pos_iff.mpr ‹data ≠ []›
  rw [List.length_drop]
  omega

def sxAdler32 (data : List UInt8) : Option Nat := do
  let sums ← addBlocks 1 0 data
  let high ← uint32 (sums.2 <<< 16)
  return high ||| sums.1

/-- The defining recurrence, reduced at every byte. -/
def step (sums : Nat × Nat) (byte : UInt8) : Nat × Nat :=
  let a := (sums.1 + byte.toNat) % 65521
  (a, (sums.2 + a) % 65521)

-- `n` bytes add at most `n * a + 255 * (1 + … + n)` to the second sum
theorem addBytes_exact {a b : Nat} {data : List UInt8}
    (fits : 2 * b + data.length * (2 * a + 255 * (data.length + 1)) < 2 ^ 33)
    (first : a + 255 * data.length < 2 ^ 32) :
    ∃ sums, addBytes a b data = some sums ∧
      data.foldl step (a % 65521, b % 65521) = (sums.1 % 65521, sums.2 % 65521) := by
  induction data generalizing a b with
  | nil => exact ⟨_, rfl, rfl⟩
  | cons byte data ih =>
    have small := Nat.le_of_lt_succ byte.toNat_lt
    have scaled := Nat.mul_le_mul_left (data.length + 1) small
    rw [List.length_cons] at fits first
    have rest : 2 * (b + (a + byte.toNat)) +
        data.length * (2 * (a + byte.toNat) + 255 * (data.length + 1)) < 2 ^ 33 := by linarith
    have second : b + (a + byte.toNat) < 2 ^ 32 := by omega
    obtain ⟨sums, added, same⟩ := ih rest (by omega)
    refine ⟨sums, ?_, ?_⟩
    · rw [addBytes, uint32, if_pos (by omega), Option.bind_eq_bind, Option.bind_some, uint32,
        if_pos second]
      exact added
    · rw [← same, List.foldl_cons, step, Nat.mod_add_mod, Nat.add_mod_mod, Nat.mod_add_mod]

theorem addBlocks_exact {a b : Nat} {data : List UInt8} (first : a < 65521) (second : b < 65521) :
    ∃ sums, addBlocks a b data = some sums ∧ data.foldl step (a, b) = sums ∧
      sums.1 < 65521 ∧ sums.2 < 65521 := by
  induction a, b, data using addBlocks.induct with
  | case1 a b => exact ⟨(a, b), by rw [addBlocks, if_pos rfl], rfl, first, second⟩
  | case2 a b data nonempty ih =>
    have short : (data.take 5552).length ≤ 5552 := List.length_take_le ..
    have most := Nat.mul_le_mul short (show 2 * a + 255 * ((data.take 5552).length + 1) ≤
      2 * 65520 + 255 * 5553 by omega)
    obtain ⟨block, added, same⟩ := @addBytes_exact a b (data.take 5552) (by omega) (by omega)
    obtain ⟨sums, rest, all, bounds⟩ := ih block (Nat.mod_lt _ (by omega)) (Nat.mod_lt _ (by omega))
    rw [Nat.mod_eq_of_lt first, Nat.mod_eq_of_lt second] at same
    refine ⟨sums, ?_, ?_, bounds⟩
    · rw [addBlocks, if_neg nonempty, added]
      exact rest
    · rw [← List.take_append_drop 5552 data, List.foldl_append, same]
      exact all

theorem sxAdler32_recurrence (data : List UInt8) :
    sxAdler32 data =
      let sums := data.foldl step (1, 0)
      some (sums.2 * 2 ^ 16 + sums.1) := by
  obtain ⟨sums, computed, same, first, second⟩ :=
    @addBlocks_exact 1 0 data (by omega) (by omega)
  have fits : sums.2 <<< 16 < 2 ^ 32 := by
    rw [Nat.shiftLeft_eq]
    omega
  rw [sxAdler32, computed, Option.bind_eq_bind, Option.bind_some, uint32, if_pos fits, same]
  exact congrArg some (by
    rw [← Nat.shiftLeft_add_eq_or_of_lt (by omega), Nat.shiftLeft_eq])

end SavanXP.Posix.Adler32
