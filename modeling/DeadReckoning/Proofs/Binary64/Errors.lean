import DeadReckoning.Proofs.Binary64.Values
import Mathlib.Tactic.Linarith

namespace DeadReckoning.Binary64

/-!
# Binary64 — finite results and their errors

Infinities and NaN are not lost: a difference that is finite was made of finite numbers, and so was
a quotient if its divisor is finite. A result that is finite is the exact one, rounded, and rounding
changes a small part of the magnitude, or half of the least step.

* `isFinite_sub`, `isFinite_div` — the operands of finite results
* `IsValue.mul_of_isFinite`, `IsValue.sub_of_isFinite`, `IsValue.div_of_isFinite` — finite results
* `abs_rounded_sub_le` — the error of rounding; `IsNear` — numbers that are off by no more
* `IsMagnitude.eq` — a magnitude is that of one double
* `HasBound` — finite doubles up to a bound
-/

open Float.Model Float.Model.UnpackedFloat

variable {p q bound : ℚ} {m : ℕ} {e : ℤ} {x y : Float}

/-! ### Operands of finite results -/

/-- Neither an infinity nor NaN becomes finite when it is packed. -/
theorem isFinite_of_pack {u : UnpackedFloat} (finite : (Float.Model.pack u).unpack.isFinite) :
    u.isFinite := by
  cases u with
  | notANumber => cases finite
  | infinity s => cases s <;> cases finite
  | zero => rfl
  | finite => rfl

/-- A finite difference is one of finite numbers. -/
theorem isFinite_sub (finite : (x - y).isFinite) : x.isFinite ∧ y.isFinite := by
  have finite : (UnpackedFloat.sub Format.binary64 x.toModel.unpack y.toModel.unpack).isFinite :=
    isFinite_of_pack finite
  show x.toModel.unpack.isFinite ∧ y.toModel.unpack.isFinite
  cases hx : x.toModel.unpack with
  | notANumber =>
    rw [hx] at finite
    cases finite
  | infinity s =>
    rw [hx] at finite
    cases hy : y.toModel.unpack with
    | infinity t =>
      -- either one of the infinities, or NaN
      rw [hy] at finite
      cases s <;> cases t <;> cases finite
    | notANumber | zero | finite =>
      rw [hy] at finite
      cases finite
  | zero | finite =>
    rw [hx] at finite
    cases hy : y.toModel.unpack with
    | infinity | notANumber =>
      rw [hy] at finite
      cases finite
    | zero | finite => exact ⟨rfl, rfl⟩

/-- A finite quotient with a finite divisor has a finite dividend. -/
theorem isFinite_div (divisor : y.isFinite) (finite : (x / y).isFinite) : x.isFinite := by
  have finite : (UnpackedFloat.div Format.binary64 x.toModel.unpack y.toModel.unpack).isFinite :=
    isFinite_of_pack finite
  have divisor : y.toModel.unpack.isFinite := divisor
  show x.toModel.unpack.isFinite
  cases hx : x.toModel.unpack with
  | notANumber =>
    rw [hx] at finite
    cases finite
  | infinity s =>
    -- an infinity divided by anything finite stays infinite
    rw [hx] at finite
    cases hy : y.toModel.unpack with
    | infinity | notANumber =>
      rw [hy] at divisor
      cases divisor
    | zero | finite =>
      rw [hy] at finite
      cases finite
  | zero | finite => rfl

/-! ### Finite results -/

/-- What is rounded to a finite double is not beyond the doubles. -/
theorem nearest_lt_of_isFinite (s : Sign) {accuracy : Accuracy}
    (described : Describes (.ofMantissaAndAccuracy m accuracy) (q / 2 ^ e)) (hq : 0 < q)
    (fine : e ≤ gridExponent q)
    (finite :
      (Float.Model.pack (roundWithAccuracy Format.binary64 s m e accuracy)).unpack.isFinite) :
    nearest q < overflow := by
  by_contra beyond
  rw [unpack_round_infinite s described hq fine (not_lt.mp beyond)] at finite
  cases finite

/-- Nor is a whole number of steps. -/
theorem nearest_lt_of_isFinite_normalize {n : ℤ} (s : Sign)
    (finite : (Float.Model.pack (UnpackedFloat.normalize Format.binary64 n e s)).unpack.isFinite) :
    nearest |(n : ℚ) * 2 ^ e| < overflow := by
  have step := two_zpow_pos e
  have round (t : Sign) {k : ℕ} (pos : 0 < k)
      (finite : (Float.Model.pack (UnpackedFloat.round Format.binary64 t k e)).unpack.isFinite) :
      nearest ((k : ℚ) * 2 ^ e) < overflow := by
    obtain ⟨c, round, fine, described⟩ := round_eq t pos e
    rw [round] at finite
    exact nearest_lt_of_isFinite t described (mul_pos (by exact_mod_cast pos) step) fine finite
  -- the sign is taken off before the number is rounded, and zero is not rounded at all
  unfold UnpackedFloat.normalize at finite
  rw [abs_mul, abs_of_pos step]
  rcases lt_trichotomy n 0 with below | rfl | above
  · obtain ⟨k, rfl⟩ : ∃ k : ℕ, n = -k := ⟨n.natAbs, by omega⟩
    have size : (- -(k : ℤ)).toNat = k := by omega
    rw [Int.compare_eq_lt.mpr below] at finite
    dsimp only at finite
    rw [size] at finite
    rw [Int.cast_neg, abs_neg, Int.cast_natCast, abs_of_nonneg k.cast_nonneg]
    exact round .negative (by omega) finite
  · rw [Int.cast_zero, abs_zero, zero_mul, nearest_zero]
    exact overflow_pos
  · obtain ⟨k, rfl⟩ : ∃ k : ℕ, n = k := ⟨n.natAbs, by omega⟩
    rw [Int.compare_eq_gt.mpr above] at finite
    dsimp only at finite
    rw [Int.toNat_natCast] at finite
    rw [Int.cast_natCast, abs_of_nonneg k.cast_nonneg]
    exact round .positive (by omega) finite

namespace IsValue

/-- A product that is finite is the exact one, rounded: it was not beyond the doubles. -/
theorem mul_of_isFinite (hx : IsValue x p) (hy : IsValue y q) (finite : (x * y).isFinite) :
    IsValue (x * y) (rounded (p * q)) := by
  refine hx.mul hy ?_
  have finite : (Float.Model.pack
    (UnpackedFloat.mul Format.binary64 x.toModel.unpack y.toModel.unpack)).unpack.isFinite := finite
  cases hx with
  | zero =>
    rw [zero_mul, abs_zero, nearest_zero]
    exact overflow_pos
  | @finite s m e _ hx =>
    cases hy with
    | zero =>
      rw [mul_zero, abs_zero, nearest_zero]
      exact overflow_pos
    | @finite t n f _ hy =>
      -- a product beyond the doubles would have been packed as an infinity
      have h := canonical_of_unpack hx
      have k := canonical_of_unpack hy
      have positive := mul_pos h.value_pos k.value_pos
      rw [hx, hy] at finite
      rw [signed_mul, abs_signed _ positive.le]
      exact nearest_lt_of_isFinite (s * t) (describes_product m n e f) positive
        (add_le_gridExponent_mul h k) finite

/-- The same for a sum. -/
theorem add_of_isFinite (hx : IsValue x p) (hy : IsValue y q) (finite : (x + y).isFinite) :
    IsValue (x + y) (rounded (p + q)) := by
  refine hx.add hy ?_
  have finite : (Float.Model.pack
    (UnpackedFloat.add Format.binary64 x.toModel.unpack y.toModel.unpack)).unpack.isFinite := finite
  cases hx with
  | zero =>
    rw [zero_add]
    exact hy.nearest_lt_overflow le_rfl
  | @finite s m e _ hx =>
    cases hy with
    | zero =>
      rw [add_zero]
      exact (IsValue.finite hx).nearest_lt_overflow le_rfl
    | @finite t n f _ hy =>
      rw [hx, hy] at finite
      rw [signed_add_signed]
      exact nearest_lt_of_isFinite_normalize .positive finite

/-- The same for a difference. -/
theorem sub_of_isFinite (hx : IsValue x p) (hy : IsValue y q) (finite : (x - y).isFinite) :
    IsValue (x - y) (rounded (p - q)) := by
  rw [sub_eq_add hx hy] at finite ⊢
  rw [sub_eq_add_neg]
  exact hx.add_of_isFinite hy.neg finite

/-- The same for a quotient. -/
theorem div_of_isFinite (hx : IsValue x p) (hy : IsMagnitude y q) (pos : 0 < q)
    (finite : (x / y).isFinite) : IsValue (x / y) (rounded (p / q)) := by
  refine hx.div hy pos ?_
  have finite : (Float.Model.pack
    (UnpackedFloat.div Format.binary64 x.toModel.unpack y.toModel.unpack)).unpack.isFinite := finite
  cases hy with
  | zero => exact absurd pos (lt_irrefl 0)
  | @finite n f pos' hy =>
    cases hx with
    | zero =>
      rw [zero_div, abs_zero, nearest_zero]
      exact overflow_pos
    | @finite s m e pos'' hx =>
      obtain ⟨k, g, accuracy, round, described, fine⟩ :=
        div_eq_round s .positive (e := e) (f := f) pos'' pos'
      have positive := div_pos (canonical_of_unpack hx).value_pos pos
      rw [hx, hy, round] at finite
      rw [abs_div, abs_signed _ (canonical_of_unpack hx).value_pos.le, abs_of_pos pos]
      exact nearest_lt_of_isFinite _ described positive fine finite

end IsValue

/-! ### The error of rounding -/

/-- Rounding is off by half a unit in the last place: relative to the number, or to the least step
near zero. -/
theorem abs_rounded_sub_le (q : ℚ) : |rounded q - q| ≤ |q| / 2 ^ 53 + leastStep / 2 := by
  unfold rounded
  split
  next below =>
    have change := abs_nearest_sub_le (neg_nonneg.mpr below.le)
    rw [abs_of_neg below, ← abs_neg, neg_sub, sub_neg_eq_add, add_comm, ← sub_neg_eq_add]
    exact change
  next above =>
    have nonneg := not_lt.mp above
    rw [abs_of_nonneg nonneg]
    exact abs_nearest_sub_le nonneg

/-- A number that comes of another by one rounding: it is off by a small part of the magnitude and
next to nothing besides. -/
def IsNear (q v : ℚ) : Prop := |v - q| ≤ |q| / 2 ^ 53 + 1 / 2 ^ 50

/-- What is rounded may be a factor: a multiple of the least step is next to nothing still. -/
theorem isNear_mul_rounded (q : ℚ) {a : ℚ} (small : |a| < overflow) :
    IsNear (a * q) (a * rounded q) := by
  -- the part of the error that does not shrink with the number is multiplied by less than
  -- `overflow`
  have step : overflow * (leastStep / 2) ≤ 1 / 2 ^ 50 := by
    have product : overflow * leastStep = 1 / 2 ^ 50 := by
      rw [overflow, leastStep, ← zpow_add₀ two_ne_zero]
      norm_num
    have pos : 0 < overflow * leastStep := mul_pos overflow_pos leastStep_pos
    linarith
  calc |a * rounded q - a * q| = |a| * |rounded q - q| := by rw [← mul_sub, abs_mul]
    _ ≤ |a| * (|q| / 2 ^ 53 + leastStep / 2) :=
      mul_le_mul_of_nonneg_left (abs_rounded_sub_le q) (abs_nonneg a)
    _ = |a * q| / 2 ^ 53 + |a| * (leastStep / 2) := by
      rw [abs_mul]
      ring
    _ ≤ |a * q| / 2 ^ 53 + overflow * (leastStep / 2) :=
      add_le_add_right (mul_le_mul_of_nonneg_right small.le (half_pos leastStep_pos).le) _
    _ ≤ |a * q| / 2 ^ 53 + 1 / 2 ^ 50 := add_le_add_right step _

/-- A rounded number is near. -/
theorem isNear_rounded (q : ℚ) : IsNear q (rounded q) := by
  have one : |(1 : ℚ)| < overflow := by
    rw [abs_one, overflow]
    exact one_lt_zpow₀ one_lt_two (by norm_num)
  simpa using isNear_mul_rounded q one

theorem isNear_nearest (nonneg : 0 ≤ q) : IsNear q (nearest q) :=
  rounded_of_nonneg nonneg ▸ isNear_rounded q

namespace IsNear

variable {v : ℚ}

/-- The error of a number within a bound. -/
theorem abs_sub_le (near : IsNear q v) (h : |q| ≤ bound) : |v - q| ≤ bound / 2 ^ 53 + 1 / 2 ^ 50 :=
  near.trans (add_le_add_left (div_le_div_of_nonneg_right h (by positivity)) _)

/-- Rounding takes a number hardly beyond a bound. -/
theorem abs_le (near : IsNear q v) (h : |q| ≤ bound) :
    |v| ≤ bound + (bound / 2 ^ 53 + 1 / 2 ^ 50) :=
  calc |v| = |q + (v - q)| := by rw [add_sub_cancel]
    _ ≤ |q| + |v - q| := abs_add_le _ _
    _ ≤ bound + (bound / 2 ^ 53 + 1 / 2 ^ 50) := add_le_add h (near.abs_sub_le h)

end IsNear

/-! ### Bounds that need not be powers of two -/

/-- A double has one value. -/
theorem IsValue.unique (hx : IsValue x p) (hx' : IsValue x q) : p = q := by
  cases hx with
  | zero h =>
    cases hx' with
    | zero => rfl
    | finite h' => cases h.symm.trans h'
  | finite h =>
    cases hx' with
    | zero h' => cases h.symm.trans h'
    | finite h' =>
      cases h.symm.trans h'
      rfl

/-- The value of a double is below the overflow. -/
theorem IsValue.abs_lt_overflow (hx : IsValue x q) : |q| < overflow := by
  cases hx with
  | zero =>
    rw [abs_zero]
    exact overflow_pos
  | finite hx =>
    have h := canonical_of_unpack hx
    rw [abs_signed _ h.value_pos.le]
    exact h.value_lt_overflow

/-- A finite double above zero is a magnitude. -/
theorem exists_isMagnitude (finite : x.isFinite) (pos : 0.0 < x) :
    ∃ q, IsMagnitude x q ∧ 0 < q := by
  obtain ⟨d, unpacks⟩ := isFinite_iff.mp finite
  obtain ⟨sign, mantissa⟩ := (zero_lt_iff unpacks).mp pos
  cases unpacks with
  | zero => exact absurd rfl mantissa
  | @finite s m e _ h =>
    cases s with
    | positive => exact ⟨_, .finite h, (canonical_of_unpack h).value_pos⟩
    | negative => cases sign

/-- A double whose value is above zero is a magnitude. -/
theorem IsValue.isMagnitude (hx : IsValue x q) (pos : 0 < q) : IsMagnitude x q := by
  obtain ⟨v, magnitude, -⟩ := exists_isMagnitude (isFinite_iff_exists_isValue.mpr ⟨q, hx⟩)
    ((isValue_zero.lt_iff hx).mpr pos)
  rwa [hx.unique magnitude.isValue]

/-- A magnitude is that of one double. -/
theorem IsMagnitude.eq (hx : IsMagnitude x q) (hy : IsMagnitude y q) : x = y := by
  obtain ⟨d, unpacks, sign, magnitude⟩ := hx.unpacks_withSign false
  obtain ⟨d', unpacks', sign', magnitude'⟩ := hy.unpacks_withSign false
  exact unpacks.eq_of_magnitude unpacks' (sign.trans sign'.symm) (magnitude.trans magnitude'.symm)

/-- A finite double whose magnitude has a bound. -/
def HasBound (bound : ℚ) (x : Float) : Prop := ∃ v, IsValue x v ∧ |v| ≤ bound

theorem HasBound.isFinite (h : HasBound bound x) : x.isFinite := by
  obtain ⟨v, value, -⟩ := h
  exact isFinite_iff_exists_isValue.mpr ⟨v, value⟩

theorem HasBound.mono {other : ℚ} (h : HasBound bound x) (le : bound ≤ other) :
    HasBound other x := by
  obtain ⟨v, value, small⟩ := h
  exact ⟨v, value, small.trans le⟩

/-- Results up to half of the overflow are not rounded to it. -/
theorem nearest_lt_overflow_of_abs_le (h : 2 * |q| ≤ overflow) : nearest |q| < overflow := by
  refine nearest_lt_overflow_of_le (abs_nonneg q) ?_
  have double : overflow = 4 * 2 ^ (1022 : ℤ) := by
    rw [overflow, show (1024 : ℤ) = 2 + 1022 by norm_num, zpow_add₀ two_ne_zero]
    norm_num
  have pos : (0 : ℚ) < 2 ^ (1022 : ℤ) := two_zpow_pos 1022
  rw [double] at h
  generalize (2 : ℚ) ^ (1022 : ℤ) = step at h pos ⊢
  linarith

end DeadReckoning.Binary64
