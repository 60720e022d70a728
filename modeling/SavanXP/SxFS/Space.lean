import SavanXP.Library.Lanes
import SavanXP.Library.Runs
import SavanXP.SxFS.Mkfs
import SavanXP.SxFS.Placement

/-!
# Counting and finding free sectors

The driver counts the data sectors in use a word at a time, and it grows an
inode by more than was asked for.  The count is exact.  Growing fails although
the sectors that were asked for are there, if those beyond them are not.
-/

namespace SavanXP.SxFS

open SavanXP.Library List Lanes

/-! ## The sectors in use -/

def popcount64 (v : UInt64) : UInt32 :=
  let v := v - ((v >>> 1) &&& (0x5555555555555555 : UInt64))
  let v := (v &&& (0x3333333333333333 : UInt64)) +
    ((v >>> 2) &&& (0x3333333333333333 : UInt64))
  let v := (v + (v >>> 4)) &&& (0x0f0f0f0f0f0f0f0f : UInt64)
  ((v * 0x0101010101010101) >>> 56).toUInt32

/-- The eight bytes from the one with the bit of `sector` on. -/
def bitmapWord {size : Nat} (bitmap : Bytes size) (sector : Nat) : UInt64 :=
  Codec.u64.symm fun i =>
    if inside : sector / 8 + i.val < size then bitmap ⟨sector / 8 + i.val, inside⟩ else 0

/-- A loop that adds up amounts in strides; it goes on as long as `more` says. -/
def countLoop (more : Nat → Bool) (stride : Nat) (amount : Nat → Nat) :
    Nat → Nat × Nat → Nat × Nat
  | 0, reached => reached
  | rounds + 1, (sector, n) =>
    if more sector then countLoop more stride amount rounds (sector + stride, n + amount sector)
    else (sector, n)

/-- The loops before the first whole word and after the last one. -/
def countBits (blockBitmap : Bytes 262144) (stop : Nat) (more : Nat → Bool) :
    Nat × Nat → Nat × Nat :=
  countLoop more 1 (fun sector => if bitmapTest blockBitmap sector then 1 else 0) stop

/-- The difference that bounds this loop is one of 32-bit numbers. -/
def countWords (blockBitmap : Bytes 262144) (stop : Nat) : Nat × Nat → Nat × Nat :=
  countLoop (fun sector => 64 ≤ (stop + 2 ^ 32 - sector) % 2 ^ 32) 64
    (fun sector => (popcount64 (bitmapWord blockBitmap sector)).toNat) stop

def allocatedDataSectorCount (sb : Superblock) (blockBitmap : Bytes 262144) : Nat :=
  let stop := sb.totalSectors.toNat
  let head := countBits blockBitmap stop (fun sector => sector < stop ∧ sector % 64 ≠ 0)
    (sb.dataLba.toNat, 0)
  (countBits blockBitmap stop (fun sector => sector < stop) (countWords blockBitmap stop head)).2

/-- The steps of the count on one byte. -/
def bytePairs (byte : Nat) : Nat := byte - (byte / 2 &&& 0x55)

def byteFours (byte : Nat) : Nat := (bytePairs byte &&& 0x33) + (bytePairs byte / 4 &&& 0x33)

def byteCount (byte : Nat) : Nat := (byteFours byte + byteFours byte / 16) &&& 0x0f

theorem pairs_each (n v : Nat) (small : v < 256 ^ n) :
    v - (v / 2 &&& repeated 0x55 n) = each bytePairs n v := by
  induction n generalizing v with
  | zero => rw [Nat.lt_one_iff.mp small]; rfl
  | succ n ih =>
    have parts : v / 2 % 256 = v % 256 / 2 + 128 * (v / 256 % 2) ∧
        v / 2 / 256 = v / 256 / 2 := by omega
    have hidden : ∀ byte < 256, ∀ spill < 2, (byte / 2 + 128 * spill) &&& 0x55 =
      byte / 2 &&& 0x55 := by
      decide +kernel
    have low : v % 256 / 2 &&& 0x55 ≤ v % 256 / 2 := Nat.and_le_left
    have high : v / 256 / 2 &&& repeated 0x55 n ≤ v / 256 / 2 := Nat.and_le_left
    rw [and_repeated n _ (by decide), parts.1, parts.2, each, ← ih (v / 256) (by omega), bytePairs,
      hidden _ (Nat.mod_lt _ (by decide)) _ (Nat.mod_lt _ (by decide))]
    omega

theorem fours_each (n v : Nat) : (v &&& repeated 0x33 n) + (v / 4 &&& repeated 0x33 n) =
    each (fun byte => (byte &&& 0x33) + (byte / 4 &&& 0x33)) n v := by
  induction n generalizing v with
  | zero => rw [repeated, Nat.and_zero, Nat.and_zero, each]
  | succ n ih =>
    have parts : v / 4 % 256 = v % 256 / 4 + 64 * (v / 256 % 4) ∧
        v / 4 / 256 = v / 256 / 4 := by omega
    have hidden : ∀ byte < 256, ∀ spill < 4, (byte / 4 + 64 * spill) &&& 0x33 =
      byte / 4 &&& 0x33 := by
      decide +kernel
    rw [and_repeated n _ (by decide), and_repeated n _ (by decide), parts.1, parts.2, each,
      ← ih (v / 256),
      hidden _ (Nat.mod_lt _ (by decide)) _ (Nat.mod_lt _ (by decide))]
    omega

/-- Two digits of at most four make no carry. -/
theorem counts_each (n v : Nat) :
    (each byteFours n v + each byteFours n v / 16) &&& repeated 0x0f n = each byteCount n v := by
  have light : ∀ byte < 256, byteFours byte ≤ 68 ∧ byteFours byte % 16 ≤ 4 := by decide +kernel
  induction n generalizing v with
  | zero => exact Nat.and_zero _
  | succ n ih =>
    have next : each byteFours n (v / 256) % 16 ≤ 4 := by
      cases n with
      | zero => exact Nat.zero_le _
      | succ n =>
        have := (light _ (Nat.mod_lt (v / 256) (by decide : 0 < 256))).2
        rw [each]
        omega
    have here := (light _ (Nat.mod_lt v (by decide : 0 < 256))).1
    have fifteen (w : Nat) : w &&& 0x0f = w % 16 := Nat.and_two_pow_sub_one_eq_mod w 4
    rw [and_repeated n _ (by decide), fifteen, each, each, byteCount, fifteen, ← ih]
    generalize each byteFours n (v / 256) = rest at *
    have high : (byteFours (v % 256) + 256 * rest + (byteFours (v % 256) + 256 * rest) / 16) / 256 =
      rest + rest / 16 := by omega
    rw [high]
    omega

theorem shifted_toNat (word bits : UInt64) :
    (word >>> bits).toNat = word.toNat / 2 ^ (bits.toNat % 64) := by
  rw [UInt64.toNat_shiftRight, Nat.shiftRight_eq_div_pow]

/-- Multiplying adds up the bytes in the last one. -/
theorem sum_bytes {a b c d e f g h : Nat} (few : ∀ byte ∈ [a, b, c, d, e, f, g, h], byte ≤ 8) :
    (a + 256 * (b + 256 * (c + 256 * (d + 256 * (e + 256 * (f + 256 * (g + 256 * h))))))) *
      0x0101010101010101 % 2 ^ 64 / 2 ^ 56 = a + (b + (c + (d + (e + (f + (g + h)))))) := by
  simp only [mem_cons, not_mem_nil, or_false, forall_eq_or_imp, forall_eq] at few
  have carried : (a + 256 * (b + 256 * (c + 256 *
    (d + 256 * (e + 256 * (f + 256 * (g + 256 * h))))))) *
      0x0101010101010101 / 2 ^ 64 = b + 0x101 * c + 0x10101 * d + 0x1010101 * e + 0x101010101 * f +
        0x10101010101 * g + 0x1010101010101 * h := by omega
  omega

theorem popcount64_toNat (v : UInt64) :
    (popcount64 v).toNat = (range 64).countP v.toNat.testBit := by
  have first : (v - ((v >>> 1) &&& (0x5555555555555555 : UInt64))).toNat =
    each bytePairs 8 v.toNat := by
    have below : ((v >>> 1) &&& (0x5555555555555555 : UInt64)).toNat ≤ v.toNat := by
      rw [UInt64.toNat_and, shifted_toNat]
      exact Nat.and_le_left.trans (Nat.div_le_self _ _)
    rw [UInt64.toNat_sub_of_le _ _ (UInt64.le_iff_toNat_le.mpr below), UInt64.toNat_and,
      shifted_toNat]
    exact pairs_each 8 _ v.toNat_lt
  unfold popcount64
  dsimp only
  generalize v - ((v >>> 1) &&& (0x5555555555555555 : UInt64)) = pairs at *
  have second : ((pairs &&& (0x3333333333333333 : UInt64)) +
      ((pairs >>> 2) &&& (0x3333333333333333 : UInt64))).toNat = each byteFours 8 v.toNat ∧
        each byteFours 8 v.toNat ≤ 0x6666666666666666 := by
    have most (word : UInt64) :
        (word &&& (0x3333333333333333 : UInt64)).toNat ≤ 0x3333333333333333 := by
      rw [UInt64.toNat_and]
      exact Nat.and_le_right
    have low := most pairs
    have high := most (pairs >>> 2)
    have sum := (fours_each 8 _).trans (@each_each bytePairs _ 8 v.toNat (by decide +kernel))
    rw [← first] at sum
    rw [UInt64.toNat_add, Nat.mod_eq_of_lt (by omega)]
    rw [UInt64.toNat_and, shifted_toNat] at high
    rw [UInt64.toNat_and] at low
    rw [UInt64.toNat_and, UInt64.toNat_and, shifted_toNat]
    exact ⟨sum, sum ▸ Nat.add_le_add low high⟩
  generalize (pairs &&& (0x3333333333333333 : UInt64)) +
    ((pairs >>> 2) &&& (0x3333333333333333 : UInt64)) = fours at *
  have third : ((fours + (fours >>> 4)) &&& (0x0f0f0f0f0f0f0f0f : UInt64)).toNat =
    each byteCount 8 v.toNat := by
    rw [UInt64.toNat_and, UInt64.toNat_add, shifted_toNat, second.1, Nat.mod_eq_of_lt]
    · exact counts_each 8 _
    · change _ + _ / 16 < _
      omega
  have counts : ∀ byte < 256, byteCount byte = (range 8).countP byte.testBit := by decide +kernel
  have few (v : Nat) : byteCount (v % 256) ≤ 8 := by
    rw [counts _ (Nat.mod_lt v (by decide))]
    exact countP_le_length
  have sum : each byteCount 8 v.toNat * 0x0101010101010101 % 2 ^ 64 / 2 ^ 56 =
    total byteCount 8 v.toNat := by
    simp only [each, total, Nat.mul_zero, Nat.add_zero]
    exact sum_bytes (by simp [few])
  rw [← countP_testBit 8 _ counts] at sum
  rw [UInt64.toNat_toUInt32, shifted_toNat, UInt64.toNat_mul, third]
  refine (congrArg (· % 2 ^ 32) sum).trans (Nat.mod_eq_of_lt ?_)
  exact countP_le_length.trans_lt (by simp)

/-- The bits of a number are those of its bytes. -/
theorem leValue_testBit {size : Nat} (bytes : Bytes size) (bit : Nat) :
    (Codec.leValue bytes).testBit bit = bitmapTest bytes bit := by
  unfold bitmapTest Bits.test
  induction size generalizing bit with
  | zero => simp [Codec.leValue]
  | succ size ih =>
    have split := Nat.testBit_two_pow_mul_add
      (Codec.leValue fun i => bytes i.succ) (bytes 0).toNat_lt bit
    rw [Codec.leValue, Nat.add_comm, show 256 = 2 ^ 8 from rfl, split]
    by_cases low : bit < 8
    · have here : (⟨bit / 8, by omega⟩ : Fin (size + 1)) = 0 := Fin.ext (Nat.div_eq_of_lt low)
      rw [if_pos low, dif_pos (by omega), here, Bits.and_mask_ne_zero, Nat.mod_eq_of_lt low]
    · have next : bit / 8 = (bit - 8) / 8 + 1 := by omega
      have same : Bits.mask (bit - 8) = Bits.mask bit := by
        rw [Bits.mask, Bits.mask, ← Nat.mod_eq_sub_mod (Nat.le_of_not_lt low)]
      rw [if_neg low, ih, same]
      by_cases inside : (bit - 8) / 8 < size
      · have place : (⟨bit / 8, by omega⟩ : Fin (size + 1)) =
            Fin.succ ⟨(bit - 8) / 8, inside⟩ := Fin.ext next
        rw [dif_pos inside, dif_pos (by omega), place]
      · rw [dif_neg inside, dif_neg (by omega)]

theorem bitmapWord_testBit {size : Nat} (bitmap : Bytes size) {sector : Nat}
    (aligned : sector % 8 = 0)
    {bit : Nat} (short : bit < 64) :
    (bitmapWord bitmap sector).toNat.testBit bit = bitmapTest bitmap (sector + bit) := by
  have v (bytes : Bytes 8) : (Codec.u64.symm bytes).toNat = Codec.leValue bytes :=
    UInt64.toNat_ofNat_of_lt' (Codec.leValue_lt bytes)
  have place : (sector + bit) / 8 = sector / 8 + bit / 8 := by omega
  have same : Bits.mask (sector + bit) = Bits.mask bit := by
    rw [Bits.mask, Bits.mask, show (sector + bit) % 8 = bit % 8 by omega]
  rw [bitmapWord, v, leValue_testBit]
  unfold bitmapTest Bits.test
  rw [dif_pos (by omega), same]
  by_cases inside : sector / 8 + bit / 8 < size
  · rw [dif_pos (by omega)]
    simp only [place, dif_pos inside]
  · rw [dif_neg (by omega)]
    simp [inside]

section

variable {bitmap : Bytes 262144} {start stop stride : Nat} {more : Nat → Bool} {amount : Nat → Nat}
  {reached : Nat × Nat}

/-- What has been counted from `start` on. -/
def Counted (bitmap : Bytes 262144) (start stop : Nat) (reached : Nat × Nat) : Prop :=
  start ≤ reached.1 ∧ reached.1 ≤ stop ∧
    reached.2 = (range' start (reached.1 - start)).countP (bitmapTest bitmap)

/-- A loop whose rounds count what they skip ends when it is told to. -/
theorem countLoop_counted (kept : Nat → Prop) (forward : 0 < stride)
    (adds : ∀ sector, kept sector → sector ≤ stop → more sector = true →
      sector + stride ≤ stop ∧ kept (sector + stride) ∧
        amount sector = (range' sector stride).countP (bitmapTest bitmap))
    (rounds : Nat) (counted : Counted bitmap start stop reached) (holds : kept reached.1)
    (enough : stop ≤ reached.1 + rounds) :
    let t := countLoop more stride amount rounds reached
    Counted bitmap start stop t ∧ (t.1 = stop ∨ more t.1 = false) := by
  induction rounds generalizing reached with
  | zero => exact ⟨counted, .inl (Nat.le_antisymm counted.2.1 enough)⟩
  | succ rounds ih =>
    obtain ⟨sector, n⟩ := reached
    obtain ⟨low, high, sum⟩ := counted
    dsimp only at low high sum
    unfold countLoop
    split
    · next going =>
      obtain ⟨room, still, exact⟩ := adds sector holds high going
      refine ih ⟨Nat.le_add_right_of_le low, room, ?_⟩ still (by simp only at enough ⊢; omega)
      rw [sum, exact, Nat.sub_add_comm low, ← range'_append_1, countP_append,
        Nat.add_sub_cancel' low]
    · next ended => exact ⟨⟨low, high, sum⟩, .inr (Bool.eq_false_of_not_eq_true ended)⟩

theorem countBits_counted (below : ∀ sector, more sector = true → sector < stop)
    (counted : Counted bitmap start stop reached) :
    let t := countBits bitmap stop more reached
    Counted bitmap start stop t ∧ (t.1 = stop ∨ more t.1 = false) := by
  refine countLoop_counted (fun _ => True) Nat.one_pos
    (fun sector _ _ going => ?_) stop counted trivial
    (Nat.le_add_left _ _)
  refine ⟨below sector going, trivial, ?_⟩
  cases set : bitmapTest bitmap sector <;> simp [set]

theorem countWords_counted (counted : Counted bitmap start stop reached)
    (ready : reached.1 = stop ∨ reached.1 % 64 = 0) :
    Counted bitmap start stop (countWords bitmap stop reached) := by
  refine (countLoop_counted (fun sector => sector = stop ∨ sector % 64 = 0) (by decide)
    (fun sector aligned inside going => ?_) stop counted ready (Nat.le_add_left _ _)).1
  have room := of_decide_eq_true going
  refine ⟨by omega, by omega, ?_⟩
  rw [popcount64_toNat, range'_eq_map_range, countP_map]
  refine countP_congr fun bit listed => ?_
  rw [bitmapWord_testBit bitmap (by omega) (mem_range.mp listed), Function.comp]

end

/-- The count is the number of set bits from the first data sector to the last sector. -/
theorem allocatedDataSectorCount_exact (sb : Superblock) (blockBitmap : Bytes 262144)
    (large : sb.dataLba < sb.totalSectors) :
    allocatedDataSectorCount sb blockBitmap =
      (range' sb.dataLba.toNat (sb.totalSectors.toNat - sb.dataLba.toNat)).countP
        (bitmapTest blockBitmap) := by
  have none : Counted blockBitmap sb.dataLba.toNat sb.totalSectors.toNat (sb.dataLba.toNat, 0) :=
    ⟨le_rfl, Nat.le_of_lt large, by simp⟩
  unfold allocatedDataSectorCount
  generalize sb.totalSectors.toNat = stop at *
  obtain ⟨head, ready⟩ := @countBits_counted blockBitmap _ stop
    (fun sector => sector < stop ∧ sector % 64 ≠ 0) _
    (fun sector going => (of_decide_eq_true going).1) none
  have words := countWords_counted head (ready.elim .inl fun ended => by
    have stopped := of_decide_eq_false ended
    have inside := head.2.1
    omega)
  obtain ⟨⟨_, high, tail⟩, ended⟩ := @countBits_counted blockBitmap _ stop
    (fun sector => sector < stop) _
    (fun sector going => of_decide_eq_true going) words
  have last := ended.elim id fun ended =>
    Nat.le_antisymm high (Nat.le_of_not_lt (of_decide_eq_false ended))
  exact tail.trans (by rw [last])

theorem allocatedDataSectorCount_exact_mixed :
    allocatedDataSectorCount { mkfsSuperblock 200 with dataLba := 61 }
      (fun i => if i.val < 9 then 0x6f else 0) = 8 :=
  (allocatedDataSectorCount_exact _ _ (by decide)).trans (by decide +kernel)

/-! ## Growing an inode -/

/-- Enough free sectors in a row. -/
def FreeRun (sb : Superblock) (blockBitmap : Bytes 262144) (n : Nat) : Prop :=
  ∃ start, sb.dataLba.toNat ≤ start ∧ start + n ≤ sb.totalSectors.toNat ∧
    ∀ sector, start ≤ sector → sector < start + n → bitmapTest blockBitmap sector = false

/-- The metadata is valid, and the data sectors marked as used are those that inodes claim. -/
structure Accounted (sb : Superblock) (md : Metadata) : Prop where
  valid : homeMetadataIsValid sb md = true
  marked : ∀ sector, sb.dataLba.toNat ≤ sector → sector < sb.totalSectors.toNat →
    (bitmapTest md.blockBitmap sector = true ↔ ∃ id, sector ∈ (md.inodes id).sectors)

/-- First fit finds a run when there is one; the part of it behind `sector` has been counted. -/
theorem findFreeRunFrom_found {blockBitmap : Bytes 262144} {required start : Nat}
    (left sector runStart runLength : Nat) (positive : 0 < sector)
    (opened : runLength ≠ 0 → runStart ≠ 0)
    (short : runLength < required) (counted : sector ≤ start + runLength)
    (inside : start + required ≤ sector + left)
    (free : ∀ sector, start ≤ sector → sector < start + required →
      bitmapTest blockBitmap sector = false) :
    findFreeRunFrom blockBitmap required left sector runStart runLength ≠ 0 := by
  induction left generalizing sector runStart runLength with
  | zero => omega
  | succ left ih =>
    unfold findFreeRunFrom
    split
    · have started : (if runLength = 0 then sector else runStart) ≠ 0 := by
        split
        · omega
        · exact opened ‹_›
      dsimp only
      split
      · exact started
      · exact ih _ _ _ (by omega) (fun _ => started) (by omega) (by omega) (by omega)
    · next used =>
      have outside : ¬ start ≤ sector := fun reached => used (by
        rw [show Bits.test blockBitmap sector = false from free sector reached (by omega)]
        rfl)
      exact ih _ _ _ (by omega) (absurd rfl) (by omega) (by omega) (by omega)

def FreeSector (sb : Superblock) (blockBitmap : Bytes 262144) (sector : Nat) : Prop :=
  sb.dataLba.toNat ≤ sector ∧ sector < sb.totalSectors.toNat ∧
    bitmapTest blockBitmap sector = false

section

variable {sb : Superblock} (lay : sb.layoutValid = true) {blockBitmap : Bytes 262144}
  {limit best runStart : Nat} (found : bestFreeRun sb blockBitmap limit = (best, runStart))
include lay found

theorem bestFreeRun_free : (best ≤ limit ∧ (best = 0 → runStart = 0)) ∧
    ∀ v ∈ range' runStart best, FreeSector sb blockBitmap v := by
  refine ⟨?_, fun v listed => ?_⟩
  · clear lay
    induction limit with
    | zero =>
      cases found
      exact ⟨le_rfl, fun _ => rfl⟩
    | succ limit ih =>
      rw [bestFreeRun] at found
      split at found
      · cases found
        exact ⟨le_rfl, fun none => absurd none (Nat.succ_ne_zero _)⟩
      · exact (ih found).imp_left Nat.le_succ_of_le
  · rw [mem_range'_1] at listed
    obtain ⟨low, high, free⟩ := bestFreeRun_bounds lay found (by omega)
    rw [← (sb.layout lay).dataLba] at low
    exact ⟨by omega, by omega, free v listed.1 listed.2⟩

/-- A run shorter than the limit is a longest one. -/
theorem bestFreeRun_longest (less : best < limit) :
    Longest (FreeSector sb blockBitmap) runStart best := by
  refine ⟨(bestFreeRun_free lay found).2, fun first free => ?_⟩
  have place := (sb.layout lay).dataLba
  induction limit with
  | zero => omega
  | succ limit ih =>
    rw [bestFreeRun] at found
    split at found
    · cases found; omega
    · next nothing =>
      rcases Nat.lt_or_ge best limit with further | last
      · exact ih found further
      obtain rfl : best = limit := Nat.le_antisymm (bestFreeRun_free lay found).1.1 last
      have low := free first (mem_range'_1.mpr (by omega))
      have high := free (first + best) (mem_range'_1.mpr (by omega))
      refine nothing (findFreeRunFrom_found _ _ _ _ (by rw [place]; decide) (absurd rfl) (by omega)
        low.1 ?_ fun v above below => (free v (mem_range'_1.mpr ⟨above, below⟩)).2.2)
      have := high.2.1
      omega

end

/-- Where the last extent ends. -/
def Inode.tail (inode : Inode) : Option UInt32 :=
  let last := inode.extentAt (inode.extentCount.toNat - 1)
  if inode.extentCount = 0 then none else some (last.startLba + last.sectorCount)

variable {inode : Inode}

/-- One if a run that starts there continues the last extent. -/
def Inode.joins (inode : Inode) (runStart : Nat) : Nat :=
  if inode.tail = some (UInt32.ofNat runStart) then 1 else 0

theorem joins_eq_one {runStart : Nat} :
    inode.joins runStart = 1 ↔ inode.tail = some (UInt32.ofNat runStart) := by
  unfold Inode.joins
  split <;> simp [*]

/-- A run takes an extent unless it continues the last one, and ends the last one then. -/
theorem appendExtent_tail (few : inode.extentCount.toNat ≤ maxExtents)
    {runStart n : Nat} (long : UInt32.ofNat n ≠ 0) :
    (appendExtent inode (UInt32.ofNat runStart) (UInt32.ofNat n) = none ∧
      maxExtents + inode.joins runStart = inode.extentCount.toNat) ∨
    ∃ t, appendExtent inode (UInt32.ofNat runStart) (UInt32.ofNat n) = some t ∧
      t.extentCount.toNat + inode.joins runStart = inode.extentCount.toNat + 1 ∧
      t.extentCount.toNat ≤ maxExtents ∧ t.tail = .some (UInt32.ofNat (runStart + n)) := by
  have sum : UInt32.ofNat (runStart + n) = UInt32.ofNat runStart + UInt32.ofNat n :=
    UInt32.ofNat_add ..
  unfold appendExtent
  dsimp only
  rw [if_neg long]
  split
  · next adjacent =>
    have joined : inode.joins runStart = 1 := by
      rw [joins_eq_one, Inode.tail, if_neg adjacent.1, adjacent.2]
    have filled : inode.extentCount.toNat ≠ 0 := fun none => adjacent.1 (UInt32.toNat_inj.mp none)
    refine .inr ⟨_, rfl, ?_, few, ?_⟩
    · rw [joined]
      rfl
    · unfold maxExtents at few
      have here : inode.extentCount.toNat - 1 < 8 := by omega
      rw [Inode.tail, sum, ← adjacent.2]
      simp only [Inode.setExtent, Inode.extentAt, adjacent.1, if_false, dif_pos here, if_true]
      rw [UInt32.add_assoc]
  · next apart =>
    have fresh : inode.joins runStart = 0 := by
      refine if_neg fun same => apart ?_
      unfold Inode.tail at same
      dsimp only at same
      split at same
      · cases same
      · next filled => exact ⟨filled, Option.some.inj same⟩
    rw [fresh]
    split
    · next full => exact .inl ⟨rfl, Nat.le_antisymm full few⟩
    · next room =>
      unfold maxExtents at room ⊢
      have next : (inode.extentCount + 1).toNat = inode.extentCount.toNat + 1 := by
        rw [UInt32.toNat_add, show (1 : UInt32).toNat = 1 from rfl]
        omega
      refine .inr ⟨_, rfl, by rw [next], by rw [next]; omega, ?_⟩
      have filled : inode.extentCount + 1 ≠ 0 := fun none => by
        rw [none] at next
        cases next
      have here : inode.extentCount.toNat < 8 := by omega
      simp only [Inode.tail, filled, if_false, next, Nat.add_sub_cancel, Inode.setExtent,
        Inode.extentAt, dif_pos here, if_true, sum]

theorem bitmapTest_setAll {size : Nat} (bits : List Nat) (bitmap : Bytes size)
    (inside : ∀ bit ∈ bits, bit / 8 < size) (sector : Nat) :
    bitmapTest (bitmapSetAll bitmap bits true) sector =
      (bitmapTest bitmap sector || decide (sector ∈ bits)) := by
  induction bits generalizing bitmap with
  | nil => simp [bitmapSetAll]
  | cons bit bits ih =>
    rw [bitmapSetAll, foldl_cons]
    refine (ih _ (forall_mem_cons.mp inside).2).trans ?_
    rw [bitmapTest_bitmapSet bitmap (inside bit mem_cons_self)]
    by_cases here : sector = bit <;> simp [here]

theorem mem_runSectors {runStart n v : Nat} :
    v ∈ runSectors runStart n ↔ v ∈ range' runStart n := by
  simp only [runSectors, mem_map, mem_range, mem_range'_1]
  exact ⟨fun ⟨off, small, same⟩ => by omega, fun listed => ⟨v - runStart, by omega, by omega⟩⟩

section

variable {sb : Superblock} (lay : sb.layoutValid = true) {blockBitmap : Bytes 262144}
  {limit best runStart : Nat}
include lay

/-- The sectors of a run are not free any more. -/
theorem freeSector_marked (free : ∀ v ∈ range' runStart best, FreeSector sb blockBitmap v) :
    FreeSector sb (bitmapSetAll blockBitmap (runSectors runStart best) true) =
      fun v => FreeSector sb blockBitmap v ∧ v ∉ range' runStart best := by
  have small : ∀ bit ∈ runSectors runStart best, bit / 8 < 262144 := by
    intro bit listed
    have below := (free bit (mem_runSectors.mp listed)).2.1
    have total : sb.totalSectors.toNat ≤ 2097152 := (sb.layout lay).totalMax
    omega
  funext v
  unfold FreeSector
  rw [bitmapTest_setAll _ _ small, Bool.or_eq_false_iff, decide_eq_false_iff_not, mem_runSectors,
    and_assoc, and_assoc]

/-- The run after a longest one does not continue it. -/
theorem joins_after (found : bestFreeRun sb blockBitmap limit = (best, runStart))
    (some : best ≠ 0) (less : best < limit) {taken : Bytes 262144}
    (outside : FreeSector sb taken =
      fun v => FreeSector sb blockBitmap v ∧ v ∉ range' runStart best)
    (tail : inode.tail = .some (UInt32.ofNat (runStart + best))) (left : Nat) :
    inode.joins (bestFreeRun sb taken left).2 = 0 := by
  generalize next : bestFreeRun sb taken left = run
  obtain ⟨n, start⟩ := run
  have longest := bestFreeRun_longest lay found less
  refine if_neg fun same => ?_
  rw [tail] at same
  have bounded := sb.totalSectors.toNat_lt
  have high := (bestFreeRun_bounds lay found some).2.1
  obtain ⟨⟨_, none⟩, free⟩ := bestFreeRun_free lay next
  have below : start < 2 ^ 32 := by
    rcases Nat.eq_zero_or_pos n with zero | positive
    · rw [none zero]
      decide
    · exact (free start (mem_range'_1.mpr (by omega))).2.1.trans bounded
  have place : runStart + best = start := by
    have equal := congrArg UInt32.toNat (Option.some.inj same)
    rwa [ofNat_toNat (by omega), ofNat_toNat below] at equal
  have further := free start (mem_range'_1.mpr (by have := mt none; omega))
  rw [outside] at further
  -- the run would have been one sector longer
  refine longest.longest runStart fun v listed => ?_
  rw [mem_range'_1] at listed
  rcases Nat.lt_or_ge v start with front | last
  · exact longest.isFree v (mem_range'_1.mpr (by omega))
  · obtain rfl : v = start := by omega
    exact further.1

end

/-- The loop succeeds exactly when few enough free runs have the sectors that are missing. -/
theorem allocateLoop_iff {sb : Superblock} (lay : sb.layoutValid = true) {fuel additional : Nat}
    (enough : additional ≤ fuel) {blockBitmap : Bytes 262144}
    (few : inode.extentCount.toNat ≤ maxExtents) :
    (allocateLoop sb fuel additional blockBitmap inode).1 = true ↔
      Coverable (FreeSector sb blockBitmap) additional (maxExtents - inode.extentCount.toNat +
        inode.joins (bestFreeRun sb blockBitmap additional).2) := by
  induction fuel generalizing additional blockBitmap inode with
  | zero =>
    refine iff_of_true rfl ⟨[], Nat.zero_le _, nodup_nil, forall_mem_nil _, ?_⟩
    exact enough.trans (Nat.zero_le _)
  | succ fuel ih =>
    rw [allocateLoop]
    split
    · next nothing =>
      rw [nothing]
      exact iff_of_true rfl ⟨[], Nat.zero_le _, nodup_nil, forall_mem_nil _, le_rfl⟩
    next missing =>
    generalize found : bestFreeRun sb blockBitmap additional = run
    obtain ⟨best, runStart⟩ := run
    obtain ⟨⟨most, _⟩, free⟩ := bestFreeRun_free lay found
    have longest := bestFreeRun_longest lay found
    dsimp only
    split
    · next none =>
      -- a run of a free sector would have been found
      subst none
      refine iff_of_false Bool.false_ne_true ?_
      rintro ⟨runs, _, _, allFree, total⟩
      obtain ⟨v, listed⟩ := exists_mem_of_length_pos ((Nat.pos_of_ne_zero missing).trans_le total)
      refine (longest (Nat.pos_of_ne_zero missing)).longest v fun w here => ?_
      obtain rfl : w = v := by simpa using here
      exact allFree w listed
    next some =>
    have volume : runStart + best ≤ sb.totalSectors.toNat := (bestFreeRun_bounds lay found some).2.1
    have bounded := sb.totalSectors.toNat_lt
    have nonzero : UInt32.ofNat best ≠ 0 := fun zero => some (by
      have same := congrArg UInt32.toNat zero
      rwa [ofNat_toNat (by omega)] at same)
    rcases @appendExtent_tail inode few runStart best nonzero with
      ⟨refused, full⟩ | ⟨t, taken, extents, fewer, tail⟩
    · rw [refused]
      refine iff_of_false Bool.false_ne_true ?_
      rintro ⟨runs, short, _, _, total⟩
      have none : runs = [] := length_eq_zero_iff.mp (by omega)
      rw [none] at total
      exact missing (Nat.le_zero.mp total)
    · have outside := freeSector_marked lay (bestFreeRun_free lay found).2
      have more : maxExtents - inode.extentCount.toNat + inode.joins runStart =
          maxExtents - t.extentCount.toNat + 1 := by omega
      rw [taken, more]
      dsimp only
      rw [ih (by omega) fewer, outside]
      constructor
      · intro rest
        rcases Nat.lt_or_ge best additional with less | all
        · rw [joins_after lay found some less outside tail] at rest
          have grown := rest.add free
          rwa [Nat.sub_add_cancel most] at grown
        · have whole : Coverable (fun v => FreeSector sb blockBitmap v ∧ v ∉ range' runStart best) 0
              (maxExtents - t.extentCount.toNat) :=
            ⟨[], Nat.zero_le _, nodup_nil, forall_mem_nil _, le_rfl⟩
          have grown := whole.add free
          rwa [Nat.zero_add, Nat.le_antisymm most all] at grown
      · intro cover
        rcases Nat.lt_or_ge best additional with less | all
        · rw [joins_after lay found some less outside tail]
          exact (longest less).cover cover
        · exact ⟨[], Nat.zero_le _, nodup_nil, forall_mem_nil _, by omega⟩

/-- An inode with an extent to spare grows exactly when all of its growth is in free runs, one
for each extent to spare and one more if the first run continues the last extent. -/
theorem ensureInodeCapacity_grows (sb : Superblock) (layout : sb.layoutValid = true) (md : Metadata)
    (id : Fin 4096) (few : (md.inodes id).extentCount.toNat < maxExtents) (requiredSize : Nat) :
    let current := inodeCapacitySectors (md.inodes id)
    let missing := (growthTarget current (sectorsFor requiredSize) - current).toNat
    (ensureInodeCapacity sb id requiredSize md).1 = true ↔
      sectorsFor requiredSize ≤ current ∨
      Coverable (FreeSector sb md.blockBitmap) missing
        (maxExtents - (md.inodes id).extentCount.toNat +
          (md.inodes id).joins (bestFreeRun sb md.blockBitmap missing).2) := by
  intro current missing
  unfold ensureInodeCapacity
  dsimp only
  split
  · next enough => exact iff_of_true rfl (.inl enough)
  · next more =>
    rw [or_iff_right more]
    exact allocateLoop_iff layout le_rfl (Nat.le_of_lt few)

/-- The superblock of a volume with `data` data sectors. -/
def volumeOf (data : UInt32) : Superblock := mkfsSuperblock (UInt32.ofNat dataLba + data)

def freshMetadata : Metadata := mkfsMetadata (initInode 1 inodeDirectory [])

theorem bitmapTest_marked {n : Nat} (small : n ≤ 262144) (sector : Nat) :
    bitmapTest ((range n).foldl (fun bitmap sector => bitmapSet bitmap sector true)
      (fun _ => 0 : Bytes 262144)) sector = decide (sector < n) := by
  refine (bitmapTest_setAll (range n) (fun _ => 0) (fun bit listed => ?_) sector).trans ?_
  · exact (Nat.div_le_self _ _).trans_lt ((mem_range.mp listed).trans_le small)
  · rw [bitmapTest_zero, Bool.false_or]
    exact decide_eq_decide.mpr mem_range

theorem bitmapTest_mkfs (sector : Nat) :
    bitmapTest mkfsBlockBitmap sector = decide (sector < dataLba) := by
  delta mkfsBlockBitmap
  exact bitmapTest_marked (by decide) sector

/-- A fresh volume of 65 data sectors with the one in the middle taken. -/
def splitMetadata : Metadata :=
  { freshMetadata with blockBitmap := bitmapSet mkfsBlockBitmap (dataLba + 32) true }

/-- The growth is put together from the runs on both sides of the sector in the middle. -/
theorem ensureInodeCapacity_grows_split :
    (ensureInodeCapacity (volumeOf 65) 0 80 splitMetadata).1 = true := by
  refine (ensureInodeCapacity_grows (volumeOf 65) (mkfsSuperblock_layout (by decide) (by decide))
    splitMetadata 0 (by decide) 80).mpr (.inr ⟨[(dataLba, 32), (dataLba + 33, 32)], ?_, ?_, ?_, ?_⟩)
  · exact Nat.le_add_right_of_le (by decide)
  · decide
  · intro v listed
    have inside : dataLba ≤ v ∧ v < dataLba + 65 ∧ v ≠ dataLba + 32 := by
      simp only [numbers_cons, mem_append, mem_range'_1] at listed
      rcases listed with first | second | none
      · omega
      · omega
      · cases none
    refine ⟨inside.1, inside.2.1, ?_⟩
    refine (bitmapTest_bitmapSet mkfsBlockBitmap (by decide) true v).trans ?_
    rw [if_neg inside.2.2, bitmapTest_mkfs]
    exact decide_eq_false (Nat.not_lt_of_le inside.1)
  · decide

theorem bestFreeRun_single (blockBitmap : Bytes 262144) (limit : Nat) :
    bestFreeRun (volumeOf 1) blockBitmap (limit + 1) =
      if bitmapTest blockBitmap dataLba then (0, 0) else (1, dataLba) := by
  have one (required : Nat) : findFreeRun blockBitmap (volumeOf 1).dataLba.toNat
      (volumeOf 1).totalSectors.toNat (required + 1) =
        if bitmapTest blockBitmap dataLba then 0 else if required = 0 then dataLba else 0 := by
    change findFreeRunFrom blockBitmap (required + 1) 1 dataLba 0 0 = _
    unfold findFreeRunFrom findFreeRunFrom bitmapTest
    cases Bits.test blockBitmap dataLba <;> simp
  induction limit with
  | zero =>
    rw [bestFreeRun, one]
    split <;> rfl
  | succ limit ih =>
    rw [bestFreeRun, one, ih]
    split <;> rfl

/-- More than the only data sector cannot be had. -/
theorem allocateLoop_single (fuel additional : Nat) {blockBitmap : Bytes 262144} (inode : Inode)
    (free : bitmapTest blockBitmap dataLba = false) :
    (allocateLoop (volumeOf 1) (fuel + 2) (additional + 2) blockBitmap inode).1 = false := by
  have taken : bitmapTest (bitmapSetAll blockBitmap (runSectors dataLba 1) true) dataLba =
    true := by
    rw [bitmapTest_setAll _ _ (by decide)]
    simp [runSectors]
  rw [allocateLoop, if_neg (Nat.succ_ne_zero _), bestFreeRun_single, free,
    if_neg Bool.false_ne_true]
  dsimp only
  rw [if_neg Nat.one_ne_zero]
  split
  · rfl
  · rw [allocateLoop, if_neg (by omega), show additional + 2 - 1 = additional + 1 from rfl,
      bestFreeRun_single, taken]
    rfl

/-- The root of a fresh volume with one data sector cannot get it. -/
theorem ensureInodeCapacity_refuses_free_sector :
    (volumeOf 1).layoutValid = true ∧ Accounted (volumeOf 1) freshMetadata ∧
      (freshMetadata.inodes 0).extentCount.toNat < maxExtents ∧
      FreeRun (volumeOf 1) freshMetadata.blockBitmap
        ((sectorsFor 80).toNat - (inodeCapacitySectors (freshMetadata.inodes 0)).toNat) ∧
      (ensureInodeCapacity (volumeOf 1) 0 80 freshMetadata).1 = false := by
  have layout : (volumeOf 1).layoutValid = true := mkfsSuperblock_layout (by decide) (by decide)
  have free : bitmapTest freshMetadata.blockBitmap dataLba = false :=
    (bitmapTest_mkfs dataLba).trans (decide_eq_false (Nat.lt_irrefl _))
  have only {sector : Nat} (low : dataLba ≤ sector) (high : sector < dataLba + 1) :
      sector = dataLba :=
    Nat.le_antisymm (Nat.le_of_lt_succ high) low
  refine ⟨layout, ⟨?_, fun sector low high => ?_⟩, by decide, ⟨dataLba, by decide, by decide,
    fun sector low high => only low high ▸ free⟩, ?_⟩
  · have made : mkfs (UInt32.ofNat dataLba + 1) 0 0 0 (fun _ => zeroSector) = some _ :=
      if_neg (by decide)
    obtain ⟨root, rooted, _, valid⟩ := mkfs_sound made le_rfl []
    cases rooted
    exact valid _ layout rfl
  · rw [only low high, free]
    refine iff_of_false Bool.false_ne_true fun ⟨id, claimed⟩ => ?_
    rw [sectors_of_no_extents] at claimed
    · cases claimed
    · change (if _ then _ else _ : Inode).extentCount = 0
      split <;> rfl
  · have short : inodeCapacitySectors (freshMetadata.inodes 0) = 0 := by decide
    unfold ensureInodeCapacity
    rw [short]
    exact allocateLoop_single 62 62 _ free

end SavanXP.SxFS
