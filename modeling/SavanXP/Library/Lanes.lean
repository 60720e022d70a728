import Mathlib

/-!
# Numbers as rows of bytes

A mask with the same byte in every place works on each byte of a number alone.
What masks and shifts do to a word is then known from what they do to a byte.
-/

namespace SavanXP.Library.Lanes

/-- The number with the same byte in each of its first places. -/
def repeated (byte : Nat) : Nat → Nat
  | 0 => 0
  | n + 1 => byte + 256 * repeated byte n

/-- The first bytes of a number, each of them changed. -/
def each (change : Nat → Nat) : Nat → Nat → Nat
  | 0, _ => 0
  | n + 1, v => change (v % 256) + 256 * each change n (v / 256)

/-- What the first bytes of a number amount to. -/
def total (amount : Nat → Nat) : Nat → Nat → Nat
  | 0, _ => 0
  | n + 1, v => amount (v % 256) + total amount n (v / 256)

variable {change next : Nat → Nat} {byte : Nat} (n v : Nat)

theorem and_repeated (small : byte < 256) : v &&& repeated byte (n + 1) =
    (v % 256 &&& byte) + 256 * (v / 256 &&& repeated byte n) := by
  have low : repeated byte (n + 1) % 2 ^ 8 = byte := by
    rw [repeated]
    omega
  have high : repeated byte (n + 1) / 2 ^ 8 = repeated byte n := by
    rw [repeated]
    omega
  rw [← Nat.mod_add_div (v &&& _) (2 ^ 8), Nat.and_mod_two_pow, Nat.and_div_two_pow, low, high]
  rfl

/-- One change after the other. -/
theorem each_each (bytes : ∀ byte < 256, change byte < 256) :
    each next n (each change n v) = each (fun byte => next (change byte)) n v := by
  induction n generalizing v with
  | zero => rfl
  | succ n ih =>
    have small := bytes _ (Nat.mod_lt v (by decide))
    rw [each, each, Nat.add_mul_mod_self_left, Nat.add_mul_div_left _ _ (by decide),
      Nat.mod_eq_of_lt small,
      Nat.div_eq_of_lt small, Nat.zero_add, ih, each]

/-- The bits of a number are those of its bytes. -/
theorem countP_testBit (counts : ∀ byte < 256, change byte = (List.range 8).countP byte.testBit) :
    (List.range (8 * n)).countP v.testBit = total change n v := by
  induction n generalizing v with
  | zero => rfl
  | succ n ih =>
    have shifted : v.testBit ∘ (8 + ·) = (v / 256).testBit := by
      funext place
      rw [Function.comp, Nat.add_comm, Nat.testBit_add]
    rw [Nat.mul_succ, Nat.add_comm, List.range_add, List.countP_append, List.countP_map, shifted,
      ih, total,
      counts _ (Nat.mod_lt v (by decide))]
    congr 1
    refine List.countP_congr fun place listed => ?_
    rw [show 256 = 2 ^ 8 from rfl, Nat.testBit_mod_two_pow,
      decide_eq_true (List.mem_range.mp listed),
      Bool.true_and]

end SavanXP.Library.Lanes
