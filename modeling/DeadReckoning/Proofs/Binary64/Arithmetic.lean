import DeadReckoning.Json.Number
import DeadReckoning.Proofs.Binary64.Rounding

namespace DeadReckoning.Binary64

/-!
# Binary64 — the operations that read a number

* `IsMagnitude.mul`, `IsMagnitude.div` — products and quotients are rounded to the nearest double
* `IsMagnitude.isInf_mul` — a product beyond the doubles is infinite
* `isMagnitude_toFloat` — so are whole numbers of 64 bits
* `isMagnitude_powerOfTen` — and powers of ten
-/

open Float.Model Float.Model.UnpackedFloat

variable {p q : ℚ} {m : ℕ} {e : ℤ} {x y : Float}

/-! ### Products -/

/-- A product has no fewer digits than its grid leaves. -/
theorem add_le_gridExponent_mul {n : ℕ} {f : ℤ} (h : Canonical m e) (k : Canonical n f) :
    e + f ≤ gridExponent ((m : ℚ) * 2 ^ e * (n * 2 ^ f)) := by
  have hm : (1 : ℚ) ≤ m := by exact_mod_cast h.pos
  have hn : (1 : ℚ) ≤ n := by exact_mod_cast k.pos
  have whole : (m : ℚ) * 2 ^ e * (n * 2 ^ f) = m * n * 2 ^ (e + f) := by
    rw [zpow_add₀ two_ne_zero]
    ring
  have step := two_zpow_pos (e + f)
  -- one full mantissa is enough, and two exponents that are least are far below all grids
  rcases h.full with full | low
  · have full : (2 : ℚ) ^ 52 ≤ m := by exact_mod_cast full
    apply le_gridExponent
    rw [whole]
    exact mul_le_mul_of_nonneg_right (by nlinarith) step.le
  · rcases k.full with full | low'
    · have full : (2 : ℚ) ^ 52 ≤ n := by exact_mod_cast full
      apply le_gridExponent
      rw [whole]
      exact mul_le_mul_of_nonneg_right (by nlinarith) step.le
    · have grid := neg_1074_le_gridExponent ((m : ℚ) * 2 ^ e * (n * 2 ^ f))
      omega

/-- The mantissas of a product are multiplied exactly. -/
theorem describes_product (m n : ℕ) (e f : ℤ) :
    Describes (.ofMantissaAndAccuracy (m * n) .exact)
      ((m : ℚ) * 2 ^ e * (n * 2 ^ f) / 2 ^ (e + f)) := by
  have whole : (m : ℚ) * 2 ^ e * (n * 2 ^ f) / 2 ^ (e + f) = (m * n : ℕ) := by
    rw [div_eq_iff (two_zpow_pos _).ne', zpow_add₀ two_ne_zero]
    push_cast
    ring
  rw [whole]
  exact .exact (m * n)

/-- A product is rounded to the nearest double. -/
theorem IsMagnitude.mul (hx : IsMagnitude x p) (hy : IsMagnitude y q)
    (fits : nearest (p * q) < overflow) : IsMagnitude (x * y) (nearest (p * q)) := by
  have unpacked : x * y = .ofModel (Float.Model.pack
    (UnpackedFloat.mul Format.binary64 x.toModel.unpack y.toModel.unpack)) := rfl
  rw [unpacked]
  cases hx with
  | zero hx =>
    rw [zero_mul, nearest_zero, hx]
    cases hy with
    | zero hy =>
      rw [hy]
      exact .zero (unpack_pack_zero .positive)
    | finite hy =>
      rw [hy]
      exact .zero (unpack_pack_zero .positive)
  | @finite m e pos hx =>
    rw [hx]
    cases hy with
    | zero hy =>
      rw [mul_zero, nearest_zero, hy]
      exact .zero (unpack_pack_zero .positive)
    | @finite n f pos' hy =>
      rw [hy]
      -- only here is there anything to round: the grid of the product is not finer than both
      -- together
      have h := canonical_of_unpack hx
      have k := canonical_of_unpack hy
      exact isMagnitude_round (describes_product m n e f) (mul_pos h.value_pos k.value_pos)
        (add_le_gridExponent_mul h k) fits

/-- A product beyond the doubles is infinite. -/
theorem IsMagnitude.isInf_mul (hx : IsMagnitude x p) (hy : IsMagnitude y q)
    (beyond : overflow ≤ nearest (p * q)) : (x * y).isInf = true := by
  have unpacked : x * y = .ofModel (Float.Model.pack
    (UnpackedFloat.mul Format.binary64 x.toModel.unpack y.toModel.unpack)) := rfl
  have none : ¬overflow ≤ nearest 0 := by
    rw [nearest_zero]
    exact not_le.mpr overflow_pos
  rw [unpacked]
  cases hx with
  | zero =>
    rw [zero_mul] at beyond
    exact absurd beyond none
  | @finite m e pos hx =>
    cases hy with
    | zero =>
      rw [mul_zero] at beyond
      exact absurd beyond none
    | @finite n f pos' hy =>
      have h := canonical_of_unpack hx
      have k := canonical_of_unpack hy
      rw [hx, hy]
      exact isInf_round (describes_product m n e f) (mul_pos h.value_pos k.value_pos)
        (add_le_gridExponent_mul h k) beyond

/-! ### Quotients -/

/-- Quotient and remainder tell where a fraction lies. -/
theorem describes_fraction (m : ℕ) {n : ℕ} (pos : 0 < n) :
    Describes (.ofMantissaAndAccuracy (m / n) (accuracyOfFraction (m % n) n)) ((m : ℚ) / n) := by
  have hn : (0 : ℚ) < n := by exact_mod_cast pos
  have lt : ((m % n : ℕ) : ℚ) < n := by exact_mod_cast Nat.mod_lt m pos
  have split : (m : ℚ) = n * (m / n : ℕ) + (m % n : ℕ) := by
    exact_mod_cast (Nat.div_add_mod m n).symm
  have value : (m : ℚ) / n = (m / n : ℕ) + (m % n : ℕ) / n := by
    rw [div_eq_iff hn.ne', add_mul, div_mul_cancel₀ _ hn.ne', mul_comm]
    exact split
  rw [value]
  unfold accuracyOfFraction
  by_cases none : m % n = 0
  · rw [if_pos none, none]
    simpa using Describes.exact (m / n)
  · rw [if_neg none]
    have some : (0 : ℚ) < (m % n : ℕ) := by exact_mod_cast Nat.pos_of_ne_zero none
    have part_pos : (0 : ℚ) < (m % n : ℕ) / n := div_pos some hn
    have part_lt : ((m % n : ℕ) : ℚ) / n < 1 := (div_lt_one hn).mpr lt
    -- the remainder is compared with half of the divisor
    rcases Nat.lt_trichotomy (2 * (m % n)) n with h | h | h
    · rw [Nat.compare_eq_lt.mpr h]
      have h : 2 * ((m % n : ℕ) : ℚ) < n := by exact_mod_cast h
      have half : ((m % n : ℕ) : ℚ) / n < 1 / 2 := by
        rw [div_lt_div_iff₀ hn two_pos]
        linarith
      show ((m / n : ℕ) : ℚ) < (m / n : ℕ) + (m % n : ℕ) / n ∧
        ((m / n : ℕ) : ℚ) + (m % n : ℕ) / n < (m / n : ℕ) + 1 / 2
      exact ⟨by linarith, by linarith⟩
    · rw [Nat.compare_eq_eq.mpr h]
      have h : 2 * ((m % n : ℕ) : ℚ) = n := by exact_mod_cast h
      have half : ((m % n : ℕ) : ℚ) / n = 1 / 2 := by
        rw [div_eq_div_iff hn.ne' two_ne_zero]
        linarith
      show ((m / n : ℕ) : ℚ) + (m % n : ℕ) / n = (m / n : ℕ) + 1 / 2
      rw [half]
    · rw [Nat.compare_eq_gt.mpr h]
      have h : (n : ℚ) < 2 * ((m % n : ℕ) : ℚ) := by exact_mod_cast h
      have half : 1 / 2 < ((m % n : ℕ) : ℚ) / n := by
        rw [div_lt_div_iff₀ two_pos hn]
        linarith
      show ((m / n : ℕ) : ℚ) + 1 / 2 < (m / n : ℕ) + (m % n : ℕ) / n ∧
        ((m / n : ℕ) : ℚ) + (m % n : ℕ) / n < (m / n : ℕ) + 1
      exact ⟨by linarith, by linarith⟩

/-- The exponent that a quotient is computed with. -/
theorem divCore_exponent_le {n : ℕ} {f : ℤ} (hm : 0 < m) (hn : 0 < n) :
    min (e - f) (Format.binary64.targetExponent (totalExponent m e - totalExponent n f)) ≤
      gridExponent ((m : ℚ) * 2 ^ e / (n * 2 ^ f)) := by
  have hn' : (0 : ℚ) < n * 2 ^ f := mul_pos (by exact_mod_cast hn) (two_zpow_pos f)
  -- the quotient has the digits of the dividend less those of the divisor, or one more
  have digits_le := (Nat.le_log2 hm.ne').mp le_rfl
  have lt_digits := (Nat.log2_lt hn.ne').mp (Nat.lt_succ_self _)
  have low : (2 : ℚ) ^ (((m.log2 : ℤ) + e) - ((n.log2 + 1 : ℕ) + f)) ≤
      (m : ℚ) * 2 ^ e / (n * 2 ^ f) := by
    rw [zpow_sub₀ two_ne_zero, ← two_pow_mul_two_zpow, ← two_pow_mul_two_zpow]
    refine div_le_div₀ (mul_nonneg m.cast_nonneg (two_zpow_pos e).le) ?_ hn' ?_
    · exact mul_le_mul_of_nonneg_right (by exact_mod_cast digits_le) (two_zpow_pos e).le
    · exact mul_le_mul_of_nonneg_right (by exact_mod_cast lt_digits.le) (two_zpow_pos f).le
  have hq : (0 : ℚ) < (m : ℚ) * 2 ^ e / (n * 2 ^ f) := (two_zpow_pos _).trans_le low
  have low := (Int.zpow_le_iff_le_log (R := ℚ) Nat.one_lt_two hq).mp (by exact_mod_cast low)
  rw [targetExponent_eq, totalExponent, totalExponent]
  unfold gridExponent
  omega

/-- A quotient is a whole number of steps, with what it says of the rest, on a grid that is fine
enough. -/
theorem div_eq_round (s t : Sign) {n : ℕ} {f : ℤ} (pos : 0 < m) (pos' : 0 < n) :
    ∃ (k : ℕ) (g : ℤ) (accuracy : Accuracy),
      UnpackedFloat.div Format.binary64 (.finite s m e pos) (.finite t n f pos') =
          roundWithAccuracy Format.binary64 (s / t) k g accuracy ∧
        Describes (.ofMantissaAndAccuracy k accuracy) ((m : ℚ) * 2 ^ e / (n * 2 ^ f) / 2 ^ g) ∧
        g ≤ gridExponent ((m : ℚ) * 2 ^ e / (n * 2 ^ f)) := by
  have fine := divCore_exponent_le (e := e) (f := f) pos pos'
  have cut : min (e - f) (Format.binary64.targetExponent
    (totalExponent m e - totalExponent n f)) ≤ e - f := min_le_left _ _
  generalize exponent : min (e - f) (Format.binary64.targetExponent
    (totalExponent m e - totalExponent n f)) = g at fine cut
  have core : divCore Format.binary64 m e n f =
      ((m <<< (e - f - g).toNat) / n, g,
        accuracyOfFraction ((m <<< (e - f - g).toNat) % n) n) := by
    simp only [divCore, exponent]
  refine ⟨(m <<< (e - f - g).toNat) / n, g, accuracyOfFraction ((m <<< (e - f - g).toNat) % n) n,
    ?_, ?_, fine⟩
  · simp only [UnpackedFloat.div, core]
  · -- the dividend is given as many digits as the quotient needs
    have shifted : ((m <<< (e - f - g).toNat : ℕ) : ℚ) = m * 2 ^ (e - f - g) := by
      rw [Nat.shiftLeft_eq]
      push_cast
      rw [← zpow_natCast, Int.toNat_of_nonneg (by omega)]
    have whole : (m : ℚ) * 2 ^ e / (n * 2 ^ f) / 2 ^ g =
        (m <<< (e - f - g).toNat : ℕ) / n := by
      rw [shifted, zpow_sub₀ two_ne_zero, zpow_sub₀ two_ne_zero]
      field_simp
    rw [whole]
    exact describes_fraction _ pos'

/-- A quotient is rounded to the nearest double. -/
theorem IsMagnitude.div (hx : IsMagnitude x p) (hy : IsMagnitude y q) (hq : 0 < q)
    (fits : nearest (p / q) < overflow) : IsMagnitude (x / y) (nearest (p / q)) := by
  have unpacked : x / y = .ofModel (Float.Model.pack
    (UnpackedFloat.div Format.binary64 x.toModel.unpack y.toModel.unpack)) := rfl
  rw [unpacked]
  cases hy with
  | zero => exact absurd hq (lt_irrefl 0)
  | @finite n f pos' hy =>
    rw [hy]
    cases hx with
    | zero hx =>
      rw [zero_div, nearest_zero, hx]
      exact .zero (unpack_pack_zero .positive)
    | @finite m e pos hx =>
      -- the division gives some digits and says how what is left compares with a half
      obtain ⟨k, g, accuracy, round, described, fine⟩ :=
        div_eq_round .positive .positive (e := e) (f := f) pos pos'
      rw [hx, round]
      exact isMagnitude_round described (div_pos (canonical_of_unpack hx).value_pos hq) fine fits

/-! ### Whole numbers and powers of ten -/

/-- A whole number of steps is given as many digits as its grid has before it is rounded. -/
theorem round_eq (s : Sign) {n : ℕ} (pos : 0 < n) (e : ℤ) :
    ∃ k : ℕ, UnpackedFloat.round Format.binary64 s n e =
        roundWithAccuracy Format.binary64 s (n <<< k) (e - k) .exact ∧
      e - k ≤ gridExponent ((n : ℚ) * 2 ^ e) ∧
      Describes (.ofMantissaAndAccuracy (n <<< k) .exact)
        ((n : ℚ) * 2 ^ e / 2 ^ (e - (k : ℤ))) := by
  have step := two_zpow_pos e
  have described : Describes ⟨n, false, false⟩ ((n : ℚ) * 2 ^ e / 2 ^ e) := by
    rw [mul_div_cancel_right₀ _ step.ne']
    exact .exact n
  have target := target_eq_grid_of_pos described pos
  unfold UnpackedFloat.round
  dsimp only at target ⊢
  rw [target]
  -- the shift stops at zero, so that nothing is cut off a number on a coarser grid
  obtain ⟨k, isCut⟩ : ∃ k : ℕ, (e - gridExponent ((n : ℚ) * 2 ^ e)).toNat = k := ⟨_, rfl⟩
  simp only [decreaseExponent, isCut]
  refine ⟨k, rfl, by omega, ?_⟩
  have whole : (n : ℚ) * 2 ^ e / 2 ^ (e - (k : ℤ)) = (n <<< k : ℕ) := by
    rw [Nat.shiftLeft_eq, zpow_sub₀ two_ne_zero, zpow_natCast]
    push_cast
    field_simp
  rw [whole]
  exact .exact _

/-- A whole number is rounded to the nearest double. -/
theorem isMagnitude_round_nat {n : ℕ} (pos : 0 < n) (fits : nearest n < overflow) :
    IsMagnitude (.ofModel (Float.Model.pack (UnpackedFloat.round Format.binary64 .positive n 0)))
      (nearest n) := by
  obtain ⟨k, round, fine, described⟩ := round_eq .positive pos 0
  rw [zpow_zero, mul_one] at fine described
  rw [round]
  exact isMagnitude_round described (by exact_mod_cast pos) fine fits

/-- A word is turned into the nearest double. -/
theorem isMagnitude_toFloat (n : UInt64) : IsMagnitude n.toFloat (nearest n.toNat) := by
  show IsMagnitude (.ofModel (Float.Model.pack
    (UnpackedFloat.normalize Format.binary64 (n.toNat : ℤ) 0 .positive))) _
  unfold UnpackedFloat.normalize
  rcases Nat.eq_zero_or_pos n.toNat with zero | pos
  · have value : nearest (n.toNat : ℚ) = 0 := by
      rw [zero]
      simp
    rw [value, zero]
    exact .zero (unpack_pack_zero .positive)
  · have side : compare (n.toNat : ℤ) 0 = .gt := Int.compare_eq_gt.mpr (by omega)
    rw [side]
    show IsMagnitude (.ofModel (Float.Model.pack
      (UnpackedFloat.round Format.binary64 .positive n.toNat 0))) _
    refine isMagnitude_round_nat pos (nearest_lt_overflow_of_le (Nat.cast_nonneg _) ?_)
    -- a word is far below the greatest double
    have lt : (n.toNat : ℚ) ≤ 2 ^ (64 : ℤ) := by exact_mod_cast n.toNat_lt.le
    have top : (2 : ℚ) ^ (64 : ℤ) ≤ 2 ^ (1022 : ℤ) := zpow_le_zpow_right₀ one_le_two (by norm_num)
    have pos := two_zpow_pos 1022
    exact lt.trans (top.trans (le_mul_of_one_le_left pos.le (by norm_num)))

/-- Whole numbers of 53 binary digits are not rounded. -/
theorem isMagnitude_toFloat_of_lt {n : UInt64} (lt : n.toNat < 2 ^ 53) :
    IsMagnitude n.toFloat n.toNat := by
  have same := nearest_of_lt lt (show (-1074 : ℤ) ≤ 0 by norm_num)
  rw [zpow_zero, mul_one] at same
  rw [← same]
  exact isMagnitude_toFloat n

theorem isMagnitude_one : IsMagnitude (1.0 : Float) 1 := by
  have isCount : (1.0 : Float) = (1 : UInt64).toFloat := by decide +kernel
  rw [isCount]
  simpa using isMagnitude_toFloat_of_lt (show (1 : UInt64).toNat < 2 ^ 53 by decide)

/-- The powers of ten that are looked up are those that are computed. -/
theorem powerOfTen_eq (n : ℕ) :
    Json.powerOfTen n = .ofModel (Float.Model.ofScientific 1 n) := by
  -- the table ends where powers of ten stop being doubles
  have table : ∀ k < 23, Json.powerOfTen k = .ofModel (Float.Model.ofScientific 1 (k : ℤ)) := by
    decide +kernel
  by_cases small : n < 23
  · exact table n small
  · show Float.ofScientific 1 false n = _
    unfold Float.ofScientific
    rw [dif_neg (by omega)]
    rfl

/-- The powers of ten in the table are the nearest doubles. -/
theorem isMagnitude_powerOfTen {n : ℕ} (le : n ≤ 308) :
    IsMagnitude (Json.powerOfTen n) (nearest (10 ^ n)) := by
  have power_pos : (0 : ℚ) < 10 ^ n := pow_pos (by norm_num) n
  -- the power is computed exactly, with 53 digits to spare, and rounded once
  have described : Describes (.ofMantissaAndAccuracy (1 <<< 53 * 10 ^ n) .exact)
      ((10 : ℚ) ^ n / (2 : ℚ) ^ (-53 : ℤ)) := by
    have whole : (10 : ℚ) ^ n / (2 : ℚ) ^ (-53 : ℤ) = ((1 <<< 53 * 10 ^ n : ℕ) : ℚ) := by
      rw [Nat.shiftLeft_eq, zpow_neg, div_inv_eq_mul, zpow_ofNat]
      push_cast
      ring
    rw [whole]
    exact .exact _
  have fine : -53 ≤ gridExponent ((10 : ℚ) ^ n) := by
    apply le_gridExponent
    have one : (1 : ℚ) ≤ 10 ^ n := one_le_pow₀ (by norm_num)
    refine le_trans ?_ one
    rw [two_pow_mul_two_zpow]
    exact zpow_le_one_of_nonpos₀ one_le_two (by norm_num)
  have fits : nearest ((10 : ℚ) ^ n) < overflow := by
    apply nearest_lt_overflow_of_le power_pos.le
    have powers : ∀ k < 309, 10 ^ k ≤ 3 * 2 ^ 1022 := by decide +kernel
    exact_mod_cast powers n (by omega)
  rw [powerOfTen_eq]
  have hm : (1 : ℕ) ≠ 0 := one_ne_zero
  have computed : UnpackedFloat.ofScientific Format.binary64 1 (n : ℤ) =
      roundWithAccuracy Format.binary64 .positive (1 <<< 53 * 10 ^ n) (-53) .exact := by
    unfold UnpackedFloat.ofScientific
    rw [dif_neg hm, if_neg (by norm_num; omega), if_neg (by norm_num; omega), if_pos (by omega)]
    rfl
  show IsMagnitude (.ofModel (Float.Model.pack
    (UnpackedFloat.ofScientific Format.binary64 1 (n : ℤ)))) _
  rw [computed]
  exact isMagnitude_round described power_pos fine fits

end DeadReckoning.Binary64
