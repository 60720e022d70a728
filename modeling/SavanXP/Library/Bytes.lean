import Mathlib

/-!
# Fixed-size binary records and bit arrays

A record format is a bijection between the values of a type and the byte
strings of one length: every byte string of that length decodes, and encoding
gives it back.  Formats of integers are little-endian, formats of records
concatenate those of their fields, and formats of arrays repeat one.

Bit arrays store bit `b` in byte `b / 8`, least significant bit first.
-/

namespace SavanXP.Library

open Function

abbrev Bytes (size : Nat) : Type := Fin size → UInt8

/-- A record format of `size` bytes. -/
abbrev Codec (α : Type) (size : Nat) : Type := α ≃ Bytes size

namespace Codec

/-! ## Little-endian integers -/

def leBytes (size v : Nat) : Bytes size :=
  fun i => UInt8.ofNat (v / 256 ^ i.val)

def leValue : {size : Nat} → Bytes size → Nat
  | 0, _ => 0
  | _ + 1, bytes => (bytes 0).toNat + 256 * leValue (fun i => bytes i.succ)

theorem leValue_lt {size : Nat} (bytes : Bytes size) : leValue bytes < 256 ^ size := by
  induction size with
  | zero => exact Nat.one_pos
  | succ size ih =>
    have low := (bytes 0).toNat_lt
    have high := ih (fun i => bytes i.succ)
    rw [leValue, Nat.pow_succ]
    omega

theorem leValue_leBytes (size v : Nat) : leValue (leBytes size v) = v % 256 ^ size := by
  induction size generalizing v with
  | zero => rw [leValue, Nat.pow_zero, Nat.mod_one]
  | succ size ih =>
    have shifted : (fun i : Fin size => leBytes (size + 1) v i.succ) = leBytes size (v / 256) := by
      funext i
      simp only [leBytes, Fin.val_succ, Nat.pow_succ, Nat.div_div_eq_div_mul, Nat.mul_comm]
    rw [leValue, shifted, ih, Nat.pow_succ, Nat.mul_comm (256 ^ size) 256, Nat.mod_mul]
    simp [leBytes]

theorem leBytes_leValue {size : Nat} (bytes : Bytes size) :
    leBytes size (leValue bytes) = bytes := by
  induction size with
  | zero => exact funext (fun i => i.elim0)
  | succ size ih =>
    have low := (bytes 0).toNat_lt
    funext i
    refine Fin.cases ?_ (fun rest => ?_) i
    · apply UInt8.toNat_inj.mp
      rw [leBytes, leValue, Fin.val_zero, Nat.pow_zero, Nat.div_one, UInt8.toNat_ofNat']
      omega
    · have tail := congrFun (ih (fun i => bytes i.succ)) rest
      rw [leBytes, leValue, Fin.val_succ, Nat.pow_succ', ← Nat.div_div_eq_div_mul,
        Nat.add_mul_div_left _ _ (by decide : 0 < 256), Nat.div_eq_of_lt low, Nat.zero_add]
      exact tail

/-- The format of an integer type whose values are the numbers below `256 ^ size`. -/
def int {α : Type} (size : Nat) (toNat : α → Nat) (ofNat : Nat → α)
    (ofNat_toNat : ∀ v, ofNat (toNat v) = v)
    (toNat_lt : ∀ v, toNat v < 256 ^ size)
    (toNat_ofNat : ∀ number, number < 256 ^ size → toNat (ofNat number) = number) :
    Codec α size where
  toFun v := leBytes size (toNat v)
  invFun bytes := ofNat (leValue bytes)
  left_inv v := by
    change ofNat (leValue (leBytes size (toNat v))) = v
    rw [leValue_leBytes, Nat.mod_eq_of_lt (toNat_lt v), ofNat_toNat]
  right_inv bytes := by
    change leBytes size (toNat (ofNat (leValue bytes))) = bytes
    rw [toNat_ofNat _ (leValue_lt bytes), leBytes_leValue]

def u8 : Codec UInt8 1 :=
  int 1 UInt8.toNat UInt8.ofNat (fun _ => UInt8.ofNat_toNat) UInt8.toNat_lt
    (fun _ small => UInt8.toNat_ofNat_of_lt' small)

def u16 : Codec UInt16 2 :=
  int 2 UInt16.toNat UInt16.ofNat (fun _ => UInt16.ofNat_toNat) UInt16.toNat_lt
    (fun _ small => UInt16.toNat_ofNat_of_lt' small)

def u32 : Codec UInt32 4 :=
  int 4 UInt32.toNat UInt32.ofNat (fun _ => UInt32.ofNat_toNat) UInt32.toNat_lt
    (fun _ small => UInt32.toNat_ofNat_of_lt' small)

def u64 : Codec UInt64 8 :=
  int 8 UInt64.toNat UInt64.ofNat (fun _ => UInt64.ofNat_toNat) UInt64.toNat_lt
    (fun _ small => UInt64.toNat_ofNat_of_lt' small)

/-! ## Records and arrays -/

def raw (size : Nat) : Codec (Bytes size) size :=
  Equiv.refl _

/-- One format after another. -/
def pair {α β : Type} {first second : Nat} (left : Codec α first) (right : Codec β second) :
    Codec (α × β) (first + second) :=
  (Equiv.prodCongr left right).trans (Fin.appendEquiv first second)

theorem pair_early {α β : Type} {first second : Nat} (left : Codec α first)
    (right : Codec β second) (v : α × β) (pos : Fin (first + second))
    (early : pos.val < first) : pair left right v pos = left v.1 ⟨pos.val, early⟩ :=
  Fin.append_left _ _ ⟨pos.val, early⟩

theorem pair_late {α β : Type} {first second : Nat} (left : Codec α first)
    (right : Codec β second) (v : α × β) (pos : Fin second) :
    pair left right v (Fin.natAdd first pos) = right v.2 pos :=
  Fin.append_right _ _ pos

/-- `n` values of one format. -/
def array {α : Type} {size : Nat} (n : Nat) (element : Codec α size) :
    Codec (Fin n → α) (n * size) :=
  ((Equiv.arrowCongr (Equiv.refl (Fin n)) element).trans
    (Equiv.curry (Fin n) (Fin size) UInt8).symm).trans
      (Equiv.arrowCongr finProdFinEquiv (Equiv.refl UInt8))

section

variable {α : Type} {size : Nat} (n : Nat) (element : Codec α size) (values : Fin n → α)

theorem array_apply (i : Fin n) (off : Fin size) :
    array n element values (finProdFinEquiv (i, off)) = element (values i) off := by
  simp [array, Equiv.arrowCongr]

/-- Byte `pos` of an array is byte `pos % size` of value `pos / size`. -/
theorem array_get (pos : Fin (n * size)) : array n element values pos =
      element (values pos.divNat) pos.modNat := by
  have found := array_apply n element values pos.divNat pos.modNat
  rwa [show finProdFinEquiv (pos.divNat, pos.modNat) = pos from
    finProdFinEquiv.apply_symm_apply pos] at found

end

end Codec

/-! ## Bit arrays -/

namespace Bits

variable {size : Nat}

def mask (bit : Nat) : UInt8 := UInt8.ofNat (1 <<< (bit % 8))

def test (bitmap : Bytes size) (bit : Nat) : Bool :=
  if inside : bit / 8 < size then bitmap ⟨bit / 8, inside⟩ &&& mask bit != 0 else false

def set (bitmap : Bytes size) (bit : Nat) (v : Bool) : Bytes size :=
  if inside : bit / 8 < size then
    update bitmap ⟨bit / 8, inside⟩
      (if v then bitmap ⟨bit / 8, inside⟩ ||| mask bit
        else bitmap ⟨bit / 8, inside⟩ &&& ~~~mask bit)
  else bitmap

theorem mask_toNat (bit : Nat) : (mask bit).toNat = 2 ^ (bit % 8) := by
  rw [mask, UInt8.toNat_ofNat', Nat.one_shiftLeft]
  exact Nat.mod_eq_of_lt (Nat.pow_lt_pow_right (by decide) (Nat.mod_lt _ (by decide)))

/-- The byte-level test reads one bit. -/
theorem and_mask_ne_zero (byte : UInt8) (bit : Nat) :
    (byte &&& mask bit != 0) = byte.toNat.testBit (bit % 8) := by
  rw [bne, Bool.eq_iff_iff, Bool.not_eq_true', beq_eq_false_iff_ne, Ne, ← UInt8.toNat_inj,
    UInt8.toNat_and, mask_toNat, Nat.and_two_pow]
  cases byte.toNat.testBit (bit % 8) <;> simp

theorem testBit_or_mask (byte : UInt8) (bit other : Nat) :
    (byte ||| mask bit).toNat.testBit (other % 8) =
      (byte.toNat.testBit (other % 8) || decide (bit % 8 = other % 8)) := by
  rw [UInt8.toNat_or, mask_toNat, Nat.testBit_or, Nat.testBit_two_pow]

theorem testBit_and_not_mask (byte : UInt8) (bit other : Nat) :
    (byte &&& ~~~mask bit).toNat.testBit (other % 8) =
      (byte.toNat.testBit (other % 8) && !decide (bit % 8 = other % 8)) := by
  have small : other % 8 < 8 := Nat.mod_lt _ (by decide)
  have mask_lt : 2 ^ (bit % 8) < 2 ^ 8 :=
    Nat.pow_lt_pow_right (by decide) (Nat.mod_lt _ (by decide))
  have complement : (~~~mask bit).toNat = 2 ^ 8 - (2 ^ (bit % 8) + 1) := by
    rw [UInt8.toNat_not, mask_toNat, UInt8.size]
    omega
  rw [UInt8.toNat_and, complement, Nat.testBit_and, Nat.testBit_two_pow_sub_succ mask_lt,
    Nat.testBit_two_pow]
  simp [small]

theorem test_eq (bitmap : Bytes size) (bit : Nat) (inside : bit / 8 < size) :
    test bitmap bit = (bitmap ⟨bit / 8, inside⟩).toNat.testBit (bit % 8) := by
  rw [test, dif_pos inside, and_mask_ne_zero]

/-- Setting one bit changes that bit and no other. -/
theorem test_set (bitmap : Bytes size) {bit : Nat} (inside : bit / 8 < size) (v : Bool)
    (other : Nat) :
    test (set bitmap bit v) other = if other = bit then v else test bitmap other := by
  by_cases known : other / 8 < size
  · rw [test_eq _ _ known, test_eq _ _ known, set, dif_pos inside]
    by_cases sameByte : other / 8 = bit / 8
    · have i : (⟨other / 8, known⟩ : Fin size) = ⟨bit / 8, inside⟩ := Fin.ext sameByte
      rw [i, update_self]
      have sameBit : bit % 8 = other % 8 ↔ other = bit := by omega
      cases v with
      | false =>
        rw [if_neg (by decide), testBit_and_not_mask]
        by_cases same : other = bit <;> simp [sameBit, same]
      | true =>
        rw [if_pos rfl, testBit_or_mask]
        by_cases same : other = bit <;> simp [sameBit, same]
    · rw [update_of_ne (fun equal => sameByte (Fin.val_eq_of_eq equal)),
        if_neg (fun same => sameByte (congrArg (· / 8) same))]
  · have different : other ≠ bit := fun same => known (same ▸ inside)
    rw [test, dif_neg known, if_neg different, test, dif_neg known]

end Bits

end SavanXP.Library
