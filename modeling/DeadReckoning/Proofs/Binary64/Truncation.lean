import DeadReckoning.Micros
import DeadReckoning.Proofs.Binary64.Values

namespace DeadReckoning.Binary64

/-!
# Binary64 — doubles cut to words

A word is made of a double by leaving out what is behind the point. What is beyond the words becomes
the nearest of them, and NaN becomes zero.

* `roundToInt_eq` — cutting the mantissa gives the whole part
* `IsValue.toNat_toUInt64` — the word of a finite double
* `toUInt64_of_infinite`, `toUInt64_of_isNaN` — the words of the others
-/

open Float.Model Float.Model.UnpackedFloat

variable {x : Float} {v : ℚ}

/-- A mantissa that is brought to the exponent zero is the whole part of the number. -/
theorem roundToInt_eq (s : Sign) (m : ℕ) (e : ℤ) :
    roundToInt s m e = s.apply ⌊(m : ℚ) * 2 ^ e⌋₊ := by
  -- one of the two shifts does nothing: the mantissa grows for `0 ≤ e`, else it is cut
  have shifted : ((m <<< e.toNat : ℕ) : ℚ) / 2 ^ (-e).toNat = m * 2 ^ e := by
    rw [div_eq_iff (pow_ne_zero _ two_ne_zero), Nat.shiftLeft_eq, mul_assoc,
      zpow_mul_pow_toNat_neg two_ne_zero, Nat.cast_mul, Nat.cast_pow, Nat.cast_ofNat]
  have cut := (Describes.exact (m <<< e.toNat)).shiftRight (-e).toNat
  rw [shifted] at cut
  have shifts : roundToInt s m e = s.apply
      (ExtendedMantissa.ofMantissaAndAccuracy (m <<< e.toNat) .exact >>> (-e).toNat).mantissa := by
    have amount : (0 - (e - ((e - 0).toNat : ℤ))).toNat = (-e).toNat := by omega
    rw [roundToInt]
    simp only [decreaseExponent, shiftToExponent]
    rw [amount, sub_zero]
  rw [shifts, (Nat.floor_eq_iff cut.nonneg).mpr cut.bounds]

/-- A double is cut to a whole number within the word. -/
theorem toUInt64_eq (x : Float) :
    x.toUInt64 = UInt64.ofNatClamp (x.toModel.unpack.toInt 0 (UInt64.size - 1)).toNat := rfl

/-- The word of a finite double is its whole part, as far as there are such words. -/
theorem IsValue.toNat_toUInt64 (hx : IsValue x v) :
    x.toUInt64.toNat = min ⌊v⌋₊ (UInt64.size - 1) := by
  rw [toUInt64_eq, Micros.toNat_ofNatClamp]
  cases hx with
  | zero hx =>
    rw [hx, Nat.floor_zero]
    rfl
  | @finite s m e pos hx =>
    rw [hx, UnpackedFloat.toInt, roundToInt_eq]
    cases s with
    | positive => rfl
    | negative =>
      -- below zero the whole part is cut to zero on both sides
      have below : signed .negative ((m : ℚ) * 2 ^ e) ≤ 0 :=
        neg_nonpos.mpr (mul_nonneg m.cast_nonneg (two_zpow_pos e).le)
      rw [Nat.floor_of_nonpos below]
      congr 1
      exact Int.toNat_of_nonpos (neg_nonpos.mpr (Int.natCast_nonneg _))

/-- NaN is cut to zero. -/
theorem toUInt64_of_isNaN (nan : x.isNaN) : x.toUInt64 = 0 := by
  have nan : x.toModel.unpack.isNaN := nan
  rw [toUInt64_eq]
  cases hx : x.toModel.unpack with
  | notANumber => rfl
  | infinity | zero | finite =>
    rw [hx] at nan
    cases nan

/-- Beyond the doubles is beyond the words. -/
theorem toUInt64_of_infinite (infinite : ¬x.isFinite) :
    ((0.0 : Float) < x → x.toUInt64.toNat = UInt64.size - 1) ∧
      (x < (0.0 : Float) → x.toUInt64 = 0) := by
  have infinite : ¬x.toModel.unpack.isFinite := infinite
  rw [lt_iff, lt_iff, unpack_zero, toUInt64_eq]
  cases hx : x.toModel.unpack with
  | notANumber => exact ⟨nofun, nofun⟩
  | infinity s =>
    cases s with
    | positive => exact ⟨fun _ => rfl, nofun⟩
    | negative => exact ⟨nofun, fun _ => rfl⟩
  | zero | finite =>
    rw [hx] at infinite
    exact absurd rfl infinite

end DeadReckoning.Binary64
