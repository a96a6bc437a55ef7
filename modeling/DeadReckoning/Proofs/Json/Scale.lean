import DeadReckoning.Proofs.Binary64.Arithmetic
import DeadReckoning.Proofs.Binary64.Finite

namespace DeadReckoning.Json

/-!
# Reading numbers — a significand and a power of ten

The reader rounds the significand, rounds the power of ten, multiplies or divides, and rounds again.

* `Close` — a number is another one up to the errors of some roundings
* `unrounded` — the magnitude before the last rounding
* `unrounded_close` — it is close to the decimal that was read
* `scaleByTen_eq` — the reader rounds it
* `unrounded_eq` — it is that decimal if significand and power of ten are small
-/

open Binary64

variable {q : ℚ} {s : ℕ} {k : ℤ} {x : Float}

/-! ### Relative errors -/

/-- One rounding changes a number by less than this ratio. -/
def ratio : ℚ := 2 ^ 53 / (2 ^ 53 - 1)

theorem one_lt_ratio : 1 < ratio := by norm_num [ratio]

theorem ratio_pow_pos (n : ℕ) : 0 < ratio ^ n := pow_pos (zero_lt_one.trans one_lt_ratio) n

/-- Two numbers differ as `n` roundings could make them differ. -/
structure Close (n : ℕ) (a b : ℚ) : Prop where
  low : b ≤ a * ratio ^ n
  high : a ≤ b * ratio ^ n

namespace Close

variable {m n : ℕ} {a b c d : ℚ}

/-- What is close to a positive number is positive. -/
theorem pos (h : Close n a b) (b_pos : 0 < b) : 0 < a := by
  have scaled : 0 < a * ratio ^ n := b_pos.trans_le h.low
  exact pos_of_mul_pos_left scaled (ratio_pow_pos n).le

theorem symm (h : Close n a b) : Close n b a := ⟨h.high, h.low⟩

theorem refl (nonneg : 0 ≤ a) : Close n a a := by
  have more : a ≤ a * ratio ^ n :=
    le_mul_of_one_le_right nonneg (one_le_pow₀ one_lt_ratio.le)
  exact ⟨more, more⟩

/-- Errors one after the other add up. -/
theorem trans (h : Close m a b) (h' : Close n b c) : Close (m + n) a c := by
  constructor
  · calc c ≤ b * ratio ^ n := h'.low
      _ ≤ a * ratio ^ m * ratio ^ n := mul_le_mul_of_nonneg_right h.low (ratio_pow_pos n).le
      _ = a * ratio ^ (m + n) := by rw [pow_add, mul_assoc]
  · calc a ≤ b * ratio ^ m := h.high
      _ ≤ c * ratio ^ n * ratio ^ m := mul_le_mul_of_nonneg_right h'.high (ratio_pow_pos m).le
      _ = c * ratio ^ (m + n) := by rw [add_comm m n, pow_add, mul_assoc]

theorem mono (h : Close m a b) (b_pos : 0 < b) (le : m ≤ n) : Close n a b := by
  have power : ratio ^ m ≤ ratio ^ n := pow_le_pow_right₀ one_lt_ratio.le le
  exact ⟨h.low.trans (mul_le_mul_of_nonneg_left power (h.pos b_pos).le),
    h.high.trans (mul_le_mul_of_nonneg_left power b_pos.le)⟩

/-- The errors of factors add up. -/
theorem mul (h : Close m a b) (h' : Close n c d) (b_pos : 0 < b) (d_pos : 0 < d) :
    Close (m + n) (a * c) (b * d) := by
  have a_pos := h.pos b_pos
  have c_pos := h'.pos d_pos
  constructor
  · calc b * d ≤ a * ratio ^ m * (c * ratio ^ n) :=
          mul_le_mul h.low h'.low d_pos.le (mul_pos a_pos (ratio_pow_pos m)).le
      _ = a * c * ratio ^ (m + n) := by rw [pow_add]; ring
  · calc a * c ≤ b * ratio ^ m * (d * ratio ^ n) :=
          mul_le_mul h.high h'.high c_pos.le (mul_pos b_pos (ratio_pow_pos m)).le
      _ = b * d * ratio ^ (m + n) := by rw [pow_add]; ring

/-- A factor without an error adds none. -/
theorem scale (h : Close n a b) (nonneg : 0 ≤ c) : Close n (a * c) (b * c) := by
  constructor
  · calc b * c ≤ a * ratio ^ n * c := mul_le_mul_of_nonneg_right h.low nonneg
      _ = a * c * ratio ^ n := by ring
  · calc a * c ≤ b * ratio ^ n * c := mul_le_mul_of_nonneg_right h.high nonneg
      _ = b * c * ratio ^ n := by ring

/-- The inverses of close numbers are as close. -/
theorem inv (h : Close n a b) (b_pos : 0 < b) : Close n a⁻¹ b⁻¹ := by
  have a_pos := h.pos b_pos
  constructor
  · rw [inv_mul_eq_div, le_div_iff₀ a_pos, inv_mul_le_iff₀ b_pos]
    exact h.high
  · rw [inv_mul_eq_div, le_div_iff₀ b_pos, inv_mul_le_iff₀ a_pos]
    exact h.low

/-- The errors of a dividend and a divisor add up, too. -/
theorem div (h : Close m a b) (h' : Close n c d) (b_pos : 0 < b) (d_pos : 0 < d) :
    Close (m + n) (a / c) (b / d) := by
  rw [div_eq_mul_inv, div_eq_mul_inv]
  exact h.mul (h'.inv d_pos) b_pos (inv_pos.mpr d_pos)

/-- A number that is off by a part `r` of it. -/
theorem of_abs_le {r : ℚ} (b_pos : 0 < b) (off : |a - b| ≤ r * b) (low : 1 ≤ (1 - r) * ratio ^ n)
    (high : 1 + r ≤ ratio ^ n) : Close n a b := by
  rw [abs_le] at off
  constructor
  · calc b ≤ (1 - r) * ratio ^ n * b := le_mul_of_one_le_left b_pos.le low
      _ = (1 - r) * b * ratio ^ n := by ring
      _ ≤ a * ratio ^ n := mul_le_mul_of_nonneg_right (by linarith) (ratio_pow_pos n).le
  · calc a ≤ (1 + r) * b := by linarith
      _ ≤ ratio ^ n * b := mul_le_mul_of_nonneg_right high b_pos.le
      _ = b * ratio ^ n := mul_comm _ _

/-- Numbers with the same eighteen digits in front are close. -/
theorem of_front (large : 10 ^ 18 ≤ c) (ha : c ≤ a ∧ a ≤ c + 1) (hb : c ≤ b ∧ b ≤ c + 1) :
    Close 1 a b := by
  have step : c + 1 ≤ c * ratio := by
    have part : ratio = 1 + 1 / (2 ^ 53 - 1) := by norm_num [ratio]
    rw [part, mul_add, mul_one, mul_one_div, add_le_add_iff_left, le_div_iff₀ (by norm_num)]
    exact le_trans (by norm_num) large
  have ratio_pos : 0 ≤ ratio := (zero_lt_one.trans one_lt_ratio).le
  rw [← pow_one ratio] at step
  constructor
  · exact (hb.2.trans step).trans (mul_le_mul_of_nonneg_right ha.1 (ratio_pow_pos 1).le)
  · exact (ha.2.trans step).trans (mul_le_mul_of_nonneg_right hb.1 (ratio_pow_pos 1).le)

/-- Rounding makes one error. -/
theorem nearest (h : 1 ≤ q) : Close 1 (nearest q) q := by
  -- above one the least step does not matter, and the error is relative
  have size : 2 ^ 52 * leastStep ≤ q := by
    refine le_trans ?_ h
    rw [leastStep, two_pow_mul_two_zpow]
    exact zpow_le_one_of_nonpos₀ one_le_two (by norm_num)
  refine of_abs_le (r := 1 / 2 ^ 53) (zero_lt_one.trans_le h) ?_ ?_ ?_
  · rw [one_div_mul_eq_div]
    exact abs_nearest_sub_le_part size
  · norm_num [ratio]
  · norm_num [ratio]

end Close

/-- A number from one on is not rounded to zero. -/
theorem nearest_pos (h : 1 ≤ q) : 0 < nearest q :=
  (Close.nearest h).pos (zero_lt_one.trans_le h)

theorem one_le_ten_pow (n : ℕ) : (1 : ℚ) ≤ 10 ^ n := one_le_pow₀ (by norm_num)

/-! ### What the reader computes -/

/-- The magnitude that the reader makes of a significand and a power of ten, before it is rounded.
Powers that no double reaches are divided by in two steps. -/
def unrounded (s : ℕ) (k : ℤ) : ℚ :=
  if 0 ≤ k then nearest s * nearest (10 ^ k.toNat)
  else if (-k).toNat ≤ 308 then nearest s / nearest (10 ^ (-k).toNat)
  else nearest (nearest s / nearest (10 ^ 308)) / nearest (10 ^ ((-k).toNat - 308))

/-- The least step of all grids is a small part of the first power of ten that is divided by. -/
theorem leastStep_le_part : leastStep / 2 * ratio ^ 2 ≤ 4 / 2 ^ 53 * (1 / 10 ^ 308) := by
  -- the powers are compared as natural numbers once and are abstract from then on
  have whole : ∀ n < 309, 3 * 10 ^ n ≤ 2 * 2 ^ 1024 := by decide +kernel
  have power : (3 : ℚ) * 10 ^ 308 ≤ 2 * 2 ^ 1024 := by exact_mod_cast whole 308 (by norm_num)
  have twice : ratio ^ 2 ≤ 3 / 2 := by norm_num [ratio]
  have exponent : (2 : ℚ) ^ 1024 * leastStep = 1 / 2 ^ 50 := by
    rw [leastStep, two_pow_mul_two_zpow, one_div, ← zpow_natCast, ← zpow_neg]
    rfl
  have step := leastStep_pos
  have ten_pos : (0 : ℚ) < 10 ^ 308 := by positivity
  rw [mul_one_div, le_div_iff₀ ten_pos]
  generalize (10 : ℚ) ^ 308 = ten at *
  generalize (2 : ℚ) ^ 1024 = two at *
  calc leastStep / 2 * ratio ^ 2 * ten ≤ leastStep / 2 * (3 / 2) * ten :=
        mul_le_mul_of_nonneg_right (mul_le_mul_of_nonneg_left twice (half_pos step).le) ten_pos.le
    _ = 3 * ten * (leastStep / 4) := by ring
    _ ≤ 2 * two * (leastStep / 4) :=
        mul_le_mul_of_nonneg_right power (div_pos step (by norm_num)).le
    _ = two * leastStep / 2 := by ring
    _ = 4 / 2 ^ 53 := by rw [exponent]; norm_num

/-- Multiplying makes two errors before the last rounding. -/
theorem close_of_nonneg (hs : 1 ≤ s) (up : 0 ≤ k) : Close 2 (unrounded s k) (s * 10 ^ k) := by
  have one_le : (1 : ℚ) ≤ s := by exact_mod_cast hs
  have ten_pos : (0 : ℚ) < 10 ^ k.toNat := zero_lt_one.trans_le (one_le_ten_pow _)
  have power : (10 : ℚ) ^ k = 10 ^ k.toNat := by rw [← zpow_natCast, Int.toNat_of_nonneg up]
  rw [unrounded, if_pos up, power]
  exact (Close.nearest one_le).mul (Close.nearest (one_le_ten_pow _)) (zero_lt_one.trans_le one_le)
    ten_pos

/-- The first of two divisions gives no number near zero. -/
theorem close_first_division (hs : 1 ≤ s) :
    Close 8 (nearest (nearest s / nearest (10 ^ 308))) (s / 10 ^ 308) := by
  have hs : (1 : ℚ) ≤ s := by exact_mod_cast hs
  have s_pos : (0 : ℚ) < s := zero_lt_one.trans_le hs
  have ten_pos : (0 : ℚ) < 10 ^ 308 := by positivity
  -- two errors in dividend and divisor, and the rounding of the quotient, counted as six
  have quotient := (Close.nearest hs).div (Close.nearest (one_le_ten_pow 308)) s_pos ten_pos
  have quotient_pos := quotient.pos (div_pos s_pos ten_pos)
  refine Close.trans (m := 6) (Close.of_abs_le (r := 5 / 2 ^ 53) quotient_pos ?_ ?_ ?_) quotient
  · -- the least step of all grids is a small part of the quotient
    have low : (1 : ℚ) / 10 ^ 308 ≤ nearest s / nearest (10 ^ 308) * ratio ^ 2 :=
      (div_le_div_of_nonneg_right hs ten_pos.le).trans quotient.low
    have small := leastStep_le_part
    have close := abs_nearest_sub_le quotient_pos.le
    generalize nearest (s : ℚ) / nearest (10 ^ 308) = z at *
    have part : leastStep / 2 ≤ 4 / 2 ^ 53 * z := by
      have scaled : leastStep / 2 * ratio ^ 2 ≤ 4 / 2 ^ 53 * z * ratio ^ 2 := by
        rw [mul_assoc]
        exact small.trans (mul_le_mul_of_nonneg_left low (by norm_num))
      exact le_of_mul_le_mul_right scaled (ratio_pow_pos 2)
    linarith
  · norm_num [ratio]
  · norm_num [ratio]

/-- Before its last rounding the magnitude is off by nine roundings at most. -/
theorem unrounded_close (hs : 1 ≤ s) (k : ℤ) : Close 9 (unrounded s k) (s * 10 ^ k) := by
  have one_le : (1 : ℚ) ≤ s := by exact_mod_cast hs
  have s_pos : (0 : ℚ) < s := zero_lt_one.trans_le one_le
  have rounded := Close.nearest one_le
  have tens := fun n => Close.nearest (one_le_ten_pow n)
  have ten_pos := fun n : ℕ => zero_lt_one.trans_le (one_le_ten_pow n)
  by_cases up : 0 ≤ k
  · exact (close_of_nonneg hs up).mono (mul_pos s_pos (zpow_pos (by norm_num) k)) (by norm_num)
  · unfold unrounded
    rw [if_neg up]
    have power : (10 : ℚ) ^ k = (10 ^ (-k).toNat)⁻¹ := by
      rw [← zpow_natCast, Int.toNat_of_nonneg (by omega), zpow_neg, inv_inv]
    rw [power, ← div_eq_mul_inv]
    split
    · exact (rounded.div (tens _) s_pos (ten_pos _)).mono (div_pos s_pos (ten_pos _)) (by norm_num)
    · rename_i far
      -- eight errors from the first division, and one in the second divisor
      have steps : (s : ℚ) / 10 ^ (-k).toNat = s / 10 ^ 308 / 10 ^ ((-k).toNat - 308) := by
        have whole : 308 + ((-k).toNat - 308) = (-k).toNat := by omega
        rw [div_div, ← pow_add, whole]
      rw [steps]
      exact (close_first_division hs).div (tens _) (div_pos s_pos (ten_pos 308)) (ten_pos _)

/-- A number near one of 64 bits is far below the overflow. -/
theorem nearest_lt_of_close {n : ℕ} {b : ℚ} (h : Close n q b) (b_pos : 0 < b) (le : b ≤ 2 ^ 64)
    (few : n ≤ 9) : nearest q < overflow := by
  have twice : ratio ^ 9 ≤ 2 := by norm_num [ratio]
  have power : (2 : ℚ) ^ 65 ≤ 2 ^ (1022 : ℤ) := by
    rw [← zpow_natCast]
    exact zpow_le_zpow_right₀ one_le_two (by norm_num)
  apply nearest_lt_overflow_of_le (h.pos b_pos).le
  calc q ≤ b * ratio ^ 9 := (h.mono b_pos few).high
    _ ≤ 2 ^ 64 * 2 := mul_le_mul le twice (ratio_pow_pos 9).le (by norm_num)
    _ = 2 ^ 65 := by norm_num
    _ ≤ 3 * 2 ^ (1022 : ℤ) :=
        power.trans (le_mul_of_one_le_left (two_zpow_pos 1022).le (by norm_num))

/-- A significand divided by a power of ten has no more than 64 bits. -/
theorem div_ten_pow_le (lt : s < 2 ^ 64) (n : ℕ) : (s : ℚ) / 10 ^ n ≤ 2 ^ 64 := by
  have le : (s : ℚ) ≤ 2 ^ 64 := by exact_mod_cast lt.le
  exact (div_le_self s.cast_nonneg (one_le_ten_pow n)).trans le

/-- A significand becomes the nearest double. -/
theorem isMagnitude_significand (lt : s < 2 ^ 64) :
    IsMagnitude (UInt64.ofNat s).toFloat (nearest s) := by
  have read := isMagnitude_toFloat (UInt64.ofNat s)
  rwa [UInt64.toNat_ofNat_of_lt' lt] at read

/-- Dividing by a power of ten, in one or two steps. -/
theorem isMagnitude_divideByTen (hs : 1 ≤ s) (lt : s < 2 ^ 64) (down : k < 0) (least : -616 ≤ k) :
    IsMagnitude (divideByTen (UInt64.ofNat s).toFloat 3 k.natAbs) (nearest (unrounded s k)) := by
  have one_le : (1 : ℚ) ≤ s := by exact_mod_cast hs
  have s_pos : (0 : ℚ) < s := zero_lt_one.trans_le one_le
  have ten_pos := fun n : ℕ => zero_lt_one.trans_le (one_le_ten_pow n)
  have power_pos := fun n : ℕ => nearest_pos (one_le_ten_pow n)
  have read := isMagnitude_significand lt
  -- a quotient of 64 bits does not overflow
  have fits : nearest (unrounded s k) < overflow := by
    have power : (s : ℚ) * 10 ^ k = s / 10 ^ (-k).toNat := by
      rw [← zpow_natCast, Int.toNat_of_nonneg (by omega), zpow_neg, div_inv_eq_mul]
    have close := unrounded_close hs k
    rw [power] at close
    exact nearest_lt_of_close close (div_pos s_pos (ten_pos _)) (div_ten_pow_le lt _) le_rfl
  obtain ⟨n, rfl⟩ : ∃ n : ℕ, k = -n := ⟨k.natAbs, by omega⟩
  have isDown : ¬(0 : ℤ) ≤ -n := by omega
  rw [Int.natAbs_neg, Int.natAbs_natCast]
  unfold unrounded at fits ⊢
  rw [if_neg isDown, neg_neg, Int.toNat_natCast] at fits ⊢
  unfold divideByTen
  by_cases near : n ≤ 308
  · rw [if_pos near] at fits ⊢
    rw [if_pos near]
    exact read.div (isMagnitude_powerOfTen near) (power_pos n) fits
  · -- the significand is not zero, so that the reader divides twice
    have rest : n - 308 ≤ 308 := by omega
    rw [if_neg near] at fits ⊢
    rw [if_neg near, beq_zero read (nearest_pos one_le), if_neg Bool.false_ne_true]
    unfold divideByTen
    rw [if_pos rest]
    have quotient := (Close.nearest one_le).div (Close.nearest (one_le_ten_pow 308)) s_pos
      (ten_pos 308)
    have first := read.div (isMagnitude_powerOfTen le_rfl) (power_pos 308)
      (nearest_lt_of_close quotient (div_pos s_pos (ten_pos 308)) (div_ten_pow_le lt 308)
        (by norm_num))
    exact first.div (isMagnitude_powerOfTen rest) (power_pos _) fits

/-- The reader scales a significand to the double nearest to its magnitude. -/
theorem scaleByTen_eq (negative : Bool) (hs : 1 ≤ s) (lt : s < 2 ^ 64) (least : -616 ≤ k)
    (greatest : k ≤ 308) (fits : nearest (unrounded s k) < overflow) :
    ∃ y, scaleByTen negative s k = .ok (withSign negative y) ∧
      IsMagnitude y (nearest (unrounded s k)) := by
  unfold scaleByTen
  by_cases down : k < 0
  · refine ⟨_, ?_, isMagnitude_divideByTen hs lt down least⟩
    rw [if_pos down]
    rfl
  · have power : k.natAbs = k.toNat := by omega
    -- multiplied with, the power is one of the table, and the product is rounded once more
    have product : IsMagnitude ((UInt64.ofNat s).toFloat * powerOfTen k.natAbs)
        (nearest (unrounded s k)) := by
      unfold unrounded at fits ⊢
      rw [if_pos (by omega)] at fits ⊢
      rw [power]
      exact (isMagnitude_significand lt).mul (isMagnitude_powerOfTen (by omega)) fits
    refine ⟨_, ?_, product⟩
    simp only [if_neg down, if_pos greatest, isInf_eq_false product, Bool.false_eq_true, if_false]
    rfl

/-! ### Small significands and powers of ten -/

/-- A whole number of 53 bits is a double. -/
theorem nearest_natCast (lt : s < 2 ^ 53) : nearest s = s := by
  have exact := nearest_of_lt (e := 0) lt (by norm_num)
  rwa [zpow_zero, mul_one] at exact

/-- So are the first powers of ten. -/
theorem nearest_ten_pow {n : ℕ} (le : n ≤ 22) : nearest (10 ^ n) = 10 ^ n := by
  -- the twos of a power of ten go to the exponent
  have few : 5 ^ n < 2 ^ 53 := (Nat.pow_le_pow_right (by norm_num) le).trans_lt (by norm_num)
  have exact := nearest_of_lt (e := n) few (by omega)
  have power : ((5 ^ n : ℕ) : ℚ) * 2 ^ (n : ℤ) = 10 ^ n := by
    rw [zpow_natCast]
    push_cast
    rw [← mul_pow]
    norm_num
  rwa [power] at exact

/-- Before the last step nothing is rounded if significand and power of ten are small. -/
theorem unrounded_eq (hs : s < 2 ^ 53) (least : -22 ≤ k) (greatest : k ≤ 22) :
    unrounded s k = s * 10 ^ k := by
  unfold unrounded
  rw [nearest_natCast hs]
  by_cases up : 0 ≤ k
  · rw [if_pos up, nearest_ten_pow (by omega), ← zpow_natCast, Int.toNat_of_nonneg up]
  · rw [if_neg up, if_pos (by omega), nearest_ten_pow (by omega), ← zpow_natCast,
      Int.toNat_of_nonneg (by omega), zpow_neg, div_inv_eq_mul]

end DeadReckoning.Json
