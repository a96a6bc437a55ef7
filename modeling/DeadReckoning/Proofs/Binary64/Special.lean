import DeadReckoning.Proofs.Binary64.Errors
import DeadReckoning.Scalar

namespace DeadReckoning.Binary64

/-!
# Binary64 — zeros, infinities and NaN

A product with a zero is a zero if the other factor is finite, and NaN if it is not. NaN stays in
every sum, whereas a zero does not change one.

* `IsValue.beq_iff` — finite doubles are equal if their values are, whatever their signs
* `IsValue.sub_self`, `IsValue.zero_div`, `IsValue.mul_zero`, `IsValue.add_zero` — where zeros come
  from, and what they do
* `isNaN_mul_zero`, `isNaN_add` — where NaN comes from, and that it stays
* `HasBound.sub`, `HasBound.isFinite_div` — differences and quotients that do not overflow
* `isMagnitude_seconds`, `le_nearest_seconds` — microseconds turned into seconds
-/

open Float.Model Float.Model.UnpackedFloat

variable {p q bound least : ℚ} {x y z : Float}

/-! ### Zeros -/

namespace IsValue

/-- The value of a double is not rounded. -/
theorem rounded_eq (hx : IsValue x p) : rounded p = p := by
  cases hx with
  | zero => exact rounded_zero
  | @finite s _ _ _ hx => exact rounded_signed_of_canonical s (canonical_of_unpack hx)

/-- Doubles are equal if their values are. -/
theorem beq_iff (hx : IsValue x p) (hy : IsValue y q) : x == y ↔ p = q := by
  show UnpackedFloat.beq x.toModel.unpack y.toModel.unpack = true ↔ _
  rw [UnpackedFloat.beq, hx.compare_eq hy, ← compare_eq_iff_eq]
  simp

/-- Nothing is left of a finite double minus itself. -/
protected theorem sub_self (hx : IsValue x p) : IsValue (x - x) 0 := by
  have fits : nearest |p - p| < overflow := by
    rw [sub_self, abs_zero, nearest_zero]
    exact overflow_pos
  simpa using hx.sub hx fits

/-- A finite double times zero is zero. -/
protected theorem mul_zero (hx : IsValue x p) (hz : IsValue z 0) : IsValue (x * z) 0 := by
  have fits : nearest |p * 0| < overflow := by
    rw [mul_zero, abs_zero, nearest_zero]
    exact overflow_pos
  simpa using hx.mul hz fits

/-- Zero divided by a positive double is zero. -/
protected theorem zero_div (hz : IsValue z 0) (hy : IsMagnitude y q) (pos : 0 < q) :
    IsValue (z / y) 0 := by
  have fits : nearest |0 / q| < overflow := by
    rw [zero_div, abs_zero, nearest_zero]
    exact overflow_pos
  simpa using hz.div hy pos fits

/-- A zero adds nothing. -/
protected theorem add_zero (hx : IsValue x p) (hz : IsValue z 0) : IsValue (x + z) p := by
  have sum := hx.add hz (hx.nearest_lt_overflow (by rw [add_zero]))
  rwa [add_zero, hx.rounded_eq] at sum

end IsValue

/-- The difference of a magnitude and itself has no sign. -/
theorem IsMagnitude.sub_self (hx : IsMagnitude x p) : IsMagnitude (x - x) 0 := by
  have unpacked : x - x = .ofModel (Float.Model.pack
    (UnpackedFloat.sub Format.binary64 x.toModel.unpack x.toModel.unpack)) := rfl
  rw [unpacked]
  refine .zero ?_
  cases hx with
  | zero h =>
    rw [h]
    exact unpack_pack_zero .positive
  | finite h =>
    rw [h]
    simp only [UnpackedFloat.sub, sub_self]
    exact unpack_pack_zero .positive

/-! ### Infinities and NaN -/

/-- What is packed as not a number is none. -/
theorem isNaN_of_pack {u : UnpackedFloat} (nan : u = .notANumber) :
    (Float.ofModel (Float.Model.pack u)).isNaN := by
  rw [nan]
  rfl

/-- What is not finite makes NaN of a zero. -/
theorem isNaN_mul_zero (infinite : ¬x.isFinite) (hz : IsValue z 0) : (x * z).isNaN := by
  have unpacked : x * z = .ofModel (Float.Model.pack
    (UnpackedFloat.mul Format.binary64 x.toModel.unpack z.toModel.unpack)) := rfl
  -- the only doubles with the value zero are the two zeros
  obtain ⟨s, null⟩ : ∃ s, z.toModel.unpack = .zero s := by
    generalize zero : (0 : ℚ) = v at hz
    cases hz with
    | zero h => exact ⟨_, h⟩
    | @finite s _ _ _ h =>
      have pos := (canonical_of_unpack h).value_pos
      rw [← abs_signed s pos.le, ← zero, abs_zero] at pos
      exact absurd pos (lt_irrefl 0)
  have infinite : ¬x.toModel.unpack.isFinite := infinite
  rw [unpacked]
  apply isNaN_of_pack
  rw [null]
  cases hx : x.toModel.unpack with
  | notANumber => rfl
  | infinity => rfl
  | zero | finite =>
    rw [hx] at infinite
    exact absurd rfl infinite

/-- NaN is not lost in a sum. -/
theorem isNaN_add (x : Float) (nan : y.isNaN) : (x + y).isNaN := by
  have unpacked : x + y = .ofModel (Float.Model.pack
    (UnpackedFloat.add Format.binary64 x.toModel.unpack y.toModel.unpack)) := rfl
  have nan : y.toModel.unpack.isNaN := nan
  rw [unpacked]
  apply isNaN_of_pack
  cases hy : y.toModel.unpack with
  | notANumber => cases x.toModel.unpack <;> rfl
  | infinity | zero | finite =>
    rw [hy] at nan
    cases nan

/-! ### Results that do not overflow -/

/-- The difference of two numbers up to a bound is hardly greater than twice the bound. -/
theorem HasBound.sub (hx : HasBound bound x) (hy : HasBound bound y) (fits : 4 * bound ≤ overflow) :
    HasBound (2 * bound + (2 * bound / 2 ^ 53 + 1 / 2 ^ 50)) (x - y) := by
  obtain ⟨p, hx, p_le⟩ := hx
  obtain ⟨q, hy, q_le⟩ := hy
  have exact_le : |p - q| ≤ 2 * bound := (abs_sub p q).trans (by linarith)
  exact ⟨_, hx.sub hy (nearest_lt_overflow_of_abs_le (by linarith)),
    (isNear_rounded (p - q)).abs_le exact_le⟩

/-- A quotient is finite if the divisor is not too small. -/
theorem HasBound.isFinite_div (hx : HasBound bound x) (hy : IsMagnitude y q) (pos : 0 < least)
    (le : least ≤ q) (fits : 2 * (bound / least) ≤ overflow) : (x / y).isFinite := by
  obtain ⟨p, hx, p_le⟩ := hx
  have hq := pos.trans_le le
  have exact_le : |p / q| ≤ bound / least := by
    rw [abs_div, abs_of_pos hq]
    exact div_le_div₀ ((abs_nonneg p).trans p_le) p_le pos le
  have value := hx.div hy hq (nearest_lt_overflow_of_abs_le (by linarith))
  exact isFinite_iff_exists_isValue.mpr ⟨_, value⟩

/-! ### Counts of microseconds in seconds -/

/-- The microseconds of a second are exact. -/
theorem isMagnitude_microsPerSecond : IsMagnitude (microsPerSecond : Float) 1000000 := by
  have isCount : (microsPerSecond : Float) = (1000000 : UInt64).toFloat := by decide +kernel
  rw [isCount]
  exact_mod_cast isMagnitude_toFloat_of_lt (show (1000000 : UInt64).toNat < 2 ^ 53 by decide)

/-- A word is not rounded beyond `2 ^ 64`. -/
theorem nearest_toNat_le (n : UInt64) : nearest (n.toNat : ℚ) ≤ 2 ^ 64 :=
  IsWithin.nearest_le_two_pow (Nat.cast_nonneg _) (by exact_mod_cast n.toNat_lt.le)

theorem nearest_seconds_le (n : UInt64) : nearest (nearest n.toNat / 1000000) ≤ 2 ^ 64 := by
  have count := nearest_toNat_le n
  exact IsWithin.nearest_le_two_pow (div_nonneg (nearest_nonneg _) (by norm_num))
    ((div_le_self (nearest_nonneg _) (by norm_num)).trans count)

/-- Seconds are rounded twice: the microseconds first, then the quotient. -/
theorem isMagnitude_seconds (n : UInt64) :
    IsMagnitude (Scalar.ofMicros n / microsPerSecond : Float)
      (nearest (nearest n.toNat / 1000000)) :=
  (isMagnitude_toFloat n).div isMagnitude_microsPerSecond (by norm_num)
    ((nearest_seconds_le n).trans_lt (IsWithin.two_pow_lt_overflow (by norm_num)))

/-- A number from one on is not rounded below it. -/
theorem one_le_nearest (h : 1 ≤ q) : 1 ≤ nearest q := by
  have whole : ((1 : ℕ) : ℚ) * 2 ^ (0 : ℤ) ≤ q := by simpa using h
  simpa using le_nearest (by norm_num) (by norm_num) whole

/-- A microsecond is more than a 2^20th of a second, also when it is rounded. -/
theorem le_nearest_seconds {n : UInt64} (pos : 1 ≤ n.toNat) :
    1 / 2 ^ 20 ≤ nearest (nearest n.toNat / 1000000) := by
  have one_le := one_le_nearest (show (1 : ℚ) ≤ n.toNat by exact_mod_cast pos)
  have power : (1 : ℚ) / 2 ^ 20 = (1 : ℕ) * 2 ^ (-20 : ℤ) := by norm_num
  rw [power]
  refine le_nearest (by norm_num) (by norm_num) ?_
  rw [← power]
  calc (1 : ℚ) / 2 ^ 20 ≤ 1 / 1000000 := by norm_num
    _ ≤ nearest (n.toNat : ℚ) / 1000000 := div_le_div_of_nonneg_right one_le (by norm_num)

end DeadReckoning.Binary64
