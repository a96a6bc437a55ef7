import DeadReckoning.Proofs.Binary64.Arithmetic
import DeadReckoning.Proofs.Binary64.Finite

namespace DeadReckoning.Binary64

/-!
# Binary64 — doubles of either sign and their values

Sums and products of finite doubles are their exact values, rounded. Rounding never passes a double,
so that bounds which are doubles themselves are kept.

* `IsValue` — a finite double and its value
* `rounded` — the value that a number of either sign is rounded to
* `IsValue.le_rounded` — rounding keeps bounds that are doubles
* `IsValue.mul`, `IsValue.add`, `IsValue.sub`, `IsValue.div` — the operations;
  `unpack_add_infinite`: sums beyond the doubles
* `IsValue.le_iff`, `IsValue.lt_iff` — the comparisons
* `IsWithin` — doubles up to a power of two, with their sums and products
-/

open Float.Model Float.Model.UnpackedFloat

variable {p q v : ℚ} {m n : ℕ} {e f : ℤ} {x y : Float} {s t : Sign}

/-! ### Values -/

/-- A magnitude with a sign. -/
def signed : Sign → ℚ → ℚ
  | .positive, q => q
  | .negative, q => -q

/-- Signs are multiplied apart from magnitudes. -/
theorem signed_mul (s t : Sign) (p q : ℚ) : signed s p * signed t q = signed (s * t) (p * q) := by
  cases s with
  | positive =>
    cases t with
    | positive => rfl
    | negative => exact mul_neg p q
  | negative =>
    cases t with
    | positive => exact neg_mul p q
    | negative => exact neg_mul_neg p q

/-- They are divided apart from magnitudes too. -/
theorem signed_div (s t : Sign) (p q : ℚ) : signed s p / signed t q = signed (s / t) (p / q) := by
  cases s with
  | positive =>
    cases t with
    | positive => rfl
    | negative => exact div_neg p
  | negative =>
    cases t with
    | positive => exact neg_div q p
    | negative => exact neg_div_neg_eq p q

/-- A magnitude does not depend on the sign. -/
theorem abs_signed (s : Sign) (hq : 0 ≤ q) : |signed s q| = q := by
  cases s with
  | positive => exact abs_of_nonneg hq
  | negative => exact (abs_neg q).trans (abs_of_nonneg hq)

/-- A finite double and its value. -/
inductive IsValue (x : Float) : ℚ → Prop
  | zero {s : Sign} (h : x.toModel.unpack = .zero s) : IsValue x 0
  | finite {s : Sign} {m : ℕ} {e : ℤ} {pos : 0 < m} (h : x.toModel.unpack = .finite s m e pos) :
    IsValue x (signed s (m * 2 ^ e))

/-- The finite doubles are those with a value. -/
theorem isFinite_iff_exists_isValue : x.isFinite ↔ ∃ v, IsValue x v := by
  rw [isFinite_iff]
  constructor
  · rintro ⟨d, unpacks⟩
    cases unpacks with
    | zero h => exact ⟨_, .zero h⟩
    | finite h => exact ⟨_, .finite h⟩
  · rintro ⟨v, value⟩
    cases value with
    | zero h => exact ⟨_, .zero h⟩
    | finite h => exact ⟨_, .finite h⟩

/-- A magnitude is a value. -/
theorem IsMagnitude.isValue (h : IsMagnitude x q) : IsValue x q := by
  cases h with
  | zero h => exact .zero h
  | finite h => exact .finite h

theorem isValue_zero : IsValue (0.0 : Float) 0 := .zero unpack_zero

/-- The opposite has the opposite value. -/
theorem IsValue.neg (h : IsValue x v) : IsValue (-x) (-v) := by
  have made : (-x).toModel.unpack = (Float.Model.pack x.toModel.unpack.neg).unpack := rfl
  cases h with
  | @zero s h =>
    rw [h] at made
    rw [neg_zero]
    exact .zero (made.trans (unpack_pack_zero (-s)))
  | @finite s m e pos h =>
    rw [h] at made
    have flipped : -signed s ((m : ℚ) * 2 ^ e) = signed (-s) (m * 2 ^ e) := by
      cases s with
      | positive => rfl
      | negative => exact neg_neg _
    rw [flipped]
    exact .finite (made.trans (unpack_pack_finite (-s) (canonical_of_unpack h)))

/-! ### Rounding -/

/-- The value that a number of either sign is rounded to. -/
def rounded (q : ℚ) : ℚ := if q < 0 then -nearest (-q) else nearest q

@[simp] theorem rounded_zero : rounded 0 = 0 := by simp [rounded]

/-- A number is rounded by its magnitude. -/
theorem rounded_signed (s : Sign) (hq : 0 < q) : rounded (signed s q) = signed s (nearest q) := by
  cases s with
  | positive => exact if_neg (not_lt.mpr hq.le)
  | negative =>
    have below : -q < 0 := neg_lt_zero.mpr hq
    show (if -q < 0 then -nearest (- -q) else nearest (-q)) = -nearest q
    rw [if_pos below, neg_neg]

/-- The nearest magnitude is not negative, whatever the number. -/
theorem nearest_nonneg (q : ℚ) : 0 ≤ nearest q :=
  mul_nonneg (Nat.cast_nonneg _) (two_zpow_pos _).le

theorem rounded_of_nonneg (h : 0 ≤ q) : rounded q = nearest q := if_neg (not_lt.mpr h)

/-- A number that is not positive is not rounded above zero. -/
theorem rounded_nonpos (h : q ≤ 0) : rounded q ≤ 0 := by
  rcases h.eq_or_lt with rfl | below
  · exact rounded_zero.le
  · rw [rounded, if_pos below]
    exact neg_nonpos.mpr (nearest_nonneg _)

/-- Rounding is the same on both sides of zero. -/
theorem abs_rounded (q : ℚ) : |rounded q| = nearest |q| := by
  unfold rounded
  split
  · rename_i below
    rw [abs_neg, abs_of_nonneg (nearest_nonneg _), abs_of_neg below]
  · rename_i above
    rw [abs_of_nonneg (nearest_nonneg _), abs_of_nonneg (not_lt.mp above)]

/-- An operation that describes its result gives the nearest double, if there is one. -/
theorem isValue_round {accuracy : Accuracy} (s : Sign)
    (described : Describes (.ofMantissaAndAccuracy m accuracy) (q / 2 ^ e)) (hq : 0 < q)
    (fine : e ≤ gridExponent q) (fits : nearest q < overflow) :
    IsValue (.ofModel (Float.Model.pack (roundWithAccuracy Format.binary64 s m e accuracy)))
      (rounded (signed s q)) := by
  rw [rounded_signed s hq]
  rcases roundWithAccuracy_eq s described hq fine with ⟨value, round⟩ | ⟨n, f, h, value, round⟩
  · -- of a zero the sign is kept, but its value is the same
    have null : signed s 0 = 0 := by
      cases s with
      | positive => rfl
      | negative => exact neg_zero
    rw [value, round, null]
    exact .zero (unpack_pack_zero s)
  · rw [value] at fits ⊢
    rw [round]
    exact .finite (unpack_pack_finite s (h.canonical fits))

/-- So does one that gives a whole number of steps. -/
theorem isValue_normalize (n e : ℤ) (s : Sign) (fits : nearest |(n : ℚ) * 2 ^ e| < overflow) :
    IsValue (.ofModel (Float.Model.pack (UnpackedFloat.normalize Format.binary64 n e s)))
      (rounded (n * 2 ^ e)) := by
  have step := two_zpow_pos e
  -- the sign is taken off first, and what is left is rounded as a magnitude
  have round (t : Sign) {k : ℕ} (pos : 0 < k) (fits : nearest ((k : ℚ) * 2 ^ e) < overflow) :
      IsValue (.ofModel (Float.Model.pack (UnpackedFloat.round Format.binary64 t k e)))
        (rounded (signed t (k * 2 ^ e))) := by
    obtain ⟨c, round, fine, described⟩ := round_eq t pos e
    rw [round]
    exact isValue_round t described (mul_pos (by exact_mod_cast pos) step) fine fits
  unfold UnpackedFloat.normalize
  rcases lt_trichotomy n 0 with below | rfl | above
  · obtain ⟨k, rfl⟩ : ∃ k : ℕ, n = -k := ⟨n.natAbs, by omega⟩
    have value : ((-k : ℤ) : ℚ) * 2 ^ e = signed .negative (k * 2 ^ e) := by
      rw [Int.cast_neg, neg_mul]
      rfl
    have size : (- -(k : ℤ)).toNat = k := by omega
    rw [value, abs_signed _ (mul_nonneg k.cast_nonneg step.le)] at fits
    rw [Int.compare_eq_lt.mpr below, value]
    dsimp only
    rw [size]
    exact round .negative (by omega) fits
  · have side : compare (0 : ℤ) 0 = .eq := rfl
    rw [side, Int.cast_zero, zero_mul, rounded_zero]
    exact .zero (unpack_pack_zero s)
  · obtain ⟨k, rfl⟩ : ∃ k : ℕ, n = k := ⟨n.natAbs, by omega⟩
    rw [Int.cast_natCast, abs_of_nonneg (mul_nonneg k.cast_nonneg step.le)] at fits
    rw [Int.compare_eq_gt.mpr above, Int.cast_natCast]
    dsimp only
    rw [Int.toNat_natCast]
    exact round .positive (by omega) fits

/-- Beyond the doubles it gives infinity. -/
theorem unpack_normalize_infinite {n e : ℤ} (s : Sign) (pos : 0 < (n : ℚ) * 2 ^ e)
    (beyond : overflow ≤ nearest ((n : ℚ) * 2 ^ e)) :
    (Float.Model.pack (UnpackedFloat.normalize Format.binary64 n e s)).unpack =
      .infinity .positive := by
  have above : 0 < n := by exact_mod_cast pos_of_mul_pos_left pos (two_zpow_pos e).le
  obtain ⟨k, rfl⟩ : ∃ k : ℕ, n = k := ⟨n.natAbs, by omega⟩
  rw [Int.cast_natCast] at pos beyond
  obtain ⟨c, round, fine, described⟩ := round_eq .positive (by omega : 0 < k) e
  unfold UnpackedFloat.normalize
  rw [Int.compare_eq_gt.mpr above]
  dsimp only
  rw [Int.toNat_natCast, round]
  exact unpack_round_infinite .positive described pos fine beyond

/-- A number that is a double is not rounded. -/
theorem rounded_signed_of_canonical (s : Sign) (h : Canonical m e) :
    rounded (signed s ((m : ℚ) * 2 ^ e)) = signed s (m * 2 ^ e) := by
  rw [rounded_signed s h.value_pos, nearest_of_lt h.lt h.exponent_ge]

/-- Rounding does not pass a double. -/
theorem IsValue.le_rounded (hx : IsValue x v) (h : v ≤ q) : v ≤ rounded q := by
  unfold rounded
  split
  · rename_i below
    -- below zero rounding is turned round, so that the bound is one from above
    cases hx with
    | zero => exact absurd h (not_le.mpr below)
    | @finite s m e pos hx =>
      have k := canonical_of_unpack hx
      cases s with
      | positive => exact absurd (k.value_pos.le.trans h) (not_le.mpr below)
      | negative =>
        exact neg_le_neg (nearest_le (neg_nonneg.mpr below.le) k.lt k.exponent_ge (neg_le.mp h))
  · -- a number that is not negative is not rounded below a double that is not above it
    cases hx with
    | zero => exact nearest_nonneg q
    | @finite s m e pos hx =>
      have k := canonical_of_unpack hx
      cases s with
      | positive => exact le_nearest k.lt k.exponent_ge h
      | negative => exact (neg_nonpos.mpr k.value_pos.le).trans (nearest_nonneg q)

/-- Numbers that are no farther from zero than a double are not rounded to the overflow. -/
theorem IsValue.nearest_lt_overflow (hx : IsValue x v) (h : |q| ≤ |v|) :
    nearest |q| < overflow := by
  cases hx with
  | zero =>
    rw [abs_zero] at h
    rw [le_antisymm h (abs_nonneg q), nearest_zero]
    exact overflow_pos
  | @finite s m e pos hx =>
    have k := canonical_of_unpack hx
    rw [abs_signed s k.value_pos.le] at h
    exact (nearest_le (abs_nonneg q) k.lt k.exponent_ge h).trans_lt k.value_lt_overflow

/-! ### Operations -/

namespace IsValue

/-- A product is rounded. -/
theorem mul (hx : IsValue x p) (hy : IsValue y q) (fits : nearest |p * q| < overflow) :
    IsValue (x * y) (rounded (p * q)) := by
  have unpacked : x * y = .ofModel (Float.Model.pack
    (UnpackedFloat.mul Format.binary64 x.toModel.unpack y.toModel.unpack)) := rfl
  rw [unpacked]
  cases hx with
  | zero hx =>
    rw [zero_mul, rounded_zero, hx]
    cases hy with
    | zero hy =>
      rw [hy]
      exact .zero (unpack_pack_zero _)
    | finite hy =>
      rw [hy]
      exact .zero (unpack_pack_zero _)
  | @finite s m e pos hx =>
    rw [hx]
    cases hy with
    | zero hy =>
      rw [mul_zero, rounded_zero, hy]
      exact .zero (unpack_pack_zero _)
    | @finite t n f pos' hy =>
      have h := canonical_of_unpack hx
      have k := canonical_of_unpack hy
      have positive := mul_pos h.value_pos k.value_pos
      rw [hy, signed_mul]
      rw [signed_mul, abs_signed _ positive.le] at fits
      exact isValue_round (s * t) (describes_product m n e f) positive
        (add_le_gridExponent_mul h k) fits

/-- The mantissa of a finite double on a finer grid. -/
theorem signed_decreaseExponent (s : Sign) (m : ℕ) (fine : f ≤ e) :
    ((s.apply (decreaseExponent m e f).1 : ℤ) : ℚ) * 2 ^ f = signed s (m * 2 ^ e) := by
  have shifted : (((decreaseExponent m e f).1 : ℕ) : ℚ) * 2 ^ f = m * 2 ^ e := by
    show ((m <<< (e - f).toNat : ℕ) : ℚ) * 2 ^ f = _
    rw [Nat.shiftLeft_eq]
    push_cast
    rw [mul_assoc, two_pow_mul_two_zpow]
    congr 2
    omega
  cases s with
  | positive => exact shifted
  | negative =>
    show ((-((decreaseExponent m e f).1 : ℤ) : ℤ) : ℚ) * 2 ^ f = -(m * 2 ^ e)
    rw [Int.cast_neg, neg_mul, Int.cast_natCast, shifted]

/-- Both mantissas are brought to the finer grid and added exactly. -/
theorem signed_add_signed (s t : Sign) (m n : ℕ) (e f : ℤ) :
    signed s ((m : ℚ) * 2 ^ e) + signed t ((n : ℚ) * 2 ^ f) =
      ((s.apply (decreaseExponent m e (min e f)).1 +
        t.apply (decreaseExponent n f (min e f)).1 : ℤ) : ℚ) * 2 ^ min e f := by
  rw [Int.cast_add, add_mul, signed_decreaseExponent s m (min_le_left e f),
    signed_decreaseExponent t n (min_le_right e f)]

/-- A sum is rounded. -/
theorem add (hx : IsValue x p) (hy : IsValue y q) (fits : nearest |p + q| < overflow) :
    IsValue (x + y) (rounded (p + q)) := by
  have unpacked : x + y = .ofModel (Float.Model.pack
    (UnpackedFloat.add Format.binary64 x.toModel.unpack y.toModel.unpack)) := rfl
  rw [unpacked]
  cases hx with
  | @zero s hx =>
    rw [zero_add, hx]
    cases hy with
    | @zero t hy =>
      -- the sum of two zeros is a zero, of either sign
      rw [rounded_zero, hy]
      cases s with
      | positive =>
        cases t with
        | positive => exact .zero (unpack_pack_zero .positive)
        | negative => exact .zero (unpack_pack_zero .positive)
      | negative =>
        cases t with
        | positive => exact .zero (unpack_pack_zero .positive)
        | negative => exact .zero (unpack_pack_zero .negative)
    | @finite t n f pos' hy =>
      have k := canonical_of_unpack hy
      rw [rounded_signed_of_canonical t k, hy]
      exact .finite (unpack_pack_finite t k)
  | @finite s m e pos hx =>
    rw [hx]
    cases hy with
    | zero hy =>
      have h := canonical_of_unpack hx
      rw [add_zero, rounded_signed_of_canonical s h, hy]
      exact .finite (unpack_pack_finite s h)
    | @finite t n f pos' hy =>
      rw [hy]
      rw [signed_add_signed] at fits ⊢
      exact isValue_normalize _ _ .positive fits

/-- A sum beyond the doubles is infinite. -/
theorem unpack_add_infinite (hx : IsValue x p) (hy : IsValue y q) (pos : 0 < p + q)
    (beyond : overflow ≤ nearest (p + q)) : (x + y).toModel.unpack = .infinity .positive := by
  -- neither operand is zero, since the other alone would not be beyond the doubles
  have fits {z : Float} {r : ℚ} (hz : IsValue z r) (above : 0 < r) : nearest r < overflow := by
    have small := hz.nearest_lt_overflow (le_refl |r|)
    rwa [abs_of_pos above] at small
  have unpacked : (x + y).toModel.unpack = (Float.Model.pack
    (UnpackedFloat.add Format.binary64 x.toModel.unpack y.toModel.unpack)).unpack := rfl
  rw [unpacked]
  cases hx with
  | zero hx =>
    rw [zero_add] at pos beyond
    exact absurd (fits hy pos) (not_lt.mpr beyond)
  | @finite s m e _ hx =>
    cases hy with
    | zero hy =>
      rw [add_zero] at pos beyond
      exact absurd (fits (.finite hx) pos) (not_lt.mpr beyond)
    | @finite t n f _ hy =>
      rw [signed_add_signed] at pos beyond
      rw [hx, hy]
      exact unpack_normalize_infinite .positive pos beyond

/-- A difference is the sum with the negative. -/
theorem sub_eq_add (hx : IsValue x p) (hy : IsValue y q) : x - y = x + -y := by
  have made : (-y).toModel.unpack = (Float.Model.pack y.toModel.unpack.neg).unpack := rfl
  have flipped : (-y).toModel.unpack = y.toModel.unpack.neg := by
    cases hy with
    | zero hy =>
      rw [made, hy]
      exact unpack_pack_zero _
    | finite hy =>
      rw [made, hy]
      exact unpack_pack_finite _ (canonical_of_unpack hy)
  show Float.ofModel (Float.Model.pack
      (UnpackedFloat.sub Format.binary64 x.toModel.unpack y.toModel.unpack)) =
    .ofModel (Float.Model.pack
      (UnpackedFloat.add Format.binary64 x.toModel.unpack (-y).toModel.unpack))
  rw [flipped]
  cases hx with
  | zero hx =>
    cases hy with
    | zero hy => rw [hx, hy]; rfl
    | finite hy => rw [hx, hy]; rfl
  | finite hx =>
    cases hy with
    | zero hy => rw [hx, hy]; rfl
    | @finite t _ _ _ hy =>
      rw [hx, hy]
      cases t with
      | positive => rfl
      | negative =>
        -- two minus signs are the one case that is not decided by computing
        simp only [UnpackedFloat.sub, UnpackedFloat.add, UnpackedFloat.neg, Sign.apply,
          sub_neg_eq_add]

/-- A difference is the exact one, rounded. -/
theorem sub (hx : IsValue x p) (hy : IsValue y q) (fits : nearest |p - q| < overflow) :
    IsValue (x - y) (rounded (p - q)) := by
  rw [sub_eq_add hx hy, sub_eq_add_neg]
  rw [sub_eq_add_neg] at fits
  exact hx.add hy.neg fits

/-- A quotient with a divisor above zero is rounded. -/
theorem div (hx : IsValue x p) (hy : IsMagnitude y q) (hq : 0 < q)
    (fits : nearest |p / q| < overflow) : IsValue (x / y) (rounded (p / q)) := by
  have unpacked : x / y = .ofModel (Float.Model.pack
    (UnpackedFloat.div Format.binary64 x.toModel.unpack y.toModel.unpack)) := rfl
  rw [unpacked]
  cases hy with
  | zero => exact absurd hq (lt_irrefl 0)
  | @finite n f pos' hy =>
    rw [hy]
    cases hx with
    | zero hx =>
      rw [zero_div, rounded_zero, hx]
      exact .zero (unpack_pack_zero _)
    | @finite s m e pos hx =>
      obtain ⟨k, g, accuracy, round, described, fine⟩ :=
        div_eq_round s .positive (e := e) (f := f) pos pos'
      have positive := div_pos (canonical_of_unpack hx).value_pos hq
      have sign : signed s ((m : ℚ) * 2 ^ e) / (n * 2 ^ f) =
          signed (s / .positive) (m * 2 ^ e / (n * 2 ^ f)) := signed_div s .positive _ _
      rw [sign, abs_signed _ positive.le] at fits
      rw [hx, round, sign]
      exact isValue_round _ described positive fine fits

end IsValue

/-! ### Comparisons -/

/-- Exponents first, then mantissas: that is the order of the magnitudes. -/
theorem compare_canonical (h : Canonical m e) (k : Canonical n f) :
    (compare e f).then (compare m n) = compare ((m : ℚ) * 2 ^ e) ((n : ℚ) * 2 ^ f) := by
  -- a greater exponent comes with a full mantissa
  have less {m n : ℕ} {e f : ℤ} (h : Canonical m e) (k : Canonical n f) (lt : e < f) :
      (m : ℚ) * 2 ^ e < n * 2 ^ f := by
    have full : (2 : ℚ) ^ 52 ≤ n := by
      exact_mod_cast k.full.resolve_right (by have := h.exponent_ge; omega)
    calc (m : ℚ) * 2 ^ e < 2 ^ 53 * 2 ^ e :=
          mul_lt_mul_of_pos_right (by exact_mod_cast h.lt) (two_zpow_pos e)
      _ = 2 ^ 52 * 2 ^ (e + 1) := by rw [two_zpow_succ]; ring
      _ ≤ n * 2 ^ f := mul_le_mul full (zpow_le_zpow_right₀ one_le_two (by omega))
          (two_zpow_pos _).le n.cast_nonneg
  rcases lt_trichotomy e f with lt | rfl | gt
  · rw [Int.compare_eq_lt.mpr lt, compare_lt_iff_lt.mpr (less h k lt)]
    rfl
  · have step := two_zpow_pos e
    have same : compare e e = .eq := Int.compare_eq_eq.mpr rfl
    rw [same]
    show compare m n = _
    rcases lt_trichotomy m n with lt | rfl | gt
    · rw [Nat.compare_eq_lt.mpr lt]
      exact (compare_lt_iff_lt.mpr (mul_lt_mul_of_pos_right (by exact_mod_cast lt) step)).symm
    · rw [Nat.compare_eq_eq.mpr rfl]
      exact (compare_eq_iff_eq.mpr rfl).symm
    · rw [Nat.compare_eq_gt.mpr gt]
      exact (compare_gt_iff_gt.mpr (mul_lt_mul_of_pos_right (by exact_mod_cast gt) step)).symm
  · rw [Int.compare_eq_gt.mpr gt, compare_gt_iff_gt.mpr (less k h gt)]
    rfl

/-- Opposites are in the opposite order. -/
theorem compare_neg (p q : ℚ) : compare (-p) (-q) = (compare p q).swap := by
  rcases lt_trichotomy p q with lt | rfl | gt
  · rw [compare_lt_iff_lt.mpr lt]
    exact compare_gt_iff_gt.mpr (neg_lt_neg lt)
  · rw [compare_eq_iff_eq.mpr rfl, compare_eq_iff_eq.mpr rfl]
    rfl
  · rw [compare_gt_iff_gt.mpr gt]
    exact compare_lt_iff_lt.mpr (neg_lt_neg gt)

namespace IsValue

/-- Finite doubles are compared by their values. -/
theorem compare_eq (hx : IsValue x p) (hy : IsValue y q) :
    UnpackedFloat.compare x.toModel.unpack y.toModel.unpack = some (compare p q) := by
  -- the signs decide unless they are the same, and then the magnitudes do
  cases hx with
  | zero hx =>
    rw [hx]
    cases hy with
    | zero hy =>
      rw [hy]
      exact congrArg some (compare_eq_iff_eq.mpr rfl).symm
    | @finite t n f pos hy =>
      have above := (canonical_of_unpack hy).value_pos
      rw [hy]
      cases t with
      | positive => exact congrArg some (compare_lt_iff_lt.mpr above).symm
      | negative => exact congrArg some (compare_gt_iff_gt.mpr (neg_lt_zero.mpr above)).symm
  | @finite s m e pos hx =>
    have above := (canonical_of_unpack hx).value_pos
    rw [hx]
    cases hy with
    | zero hy =>
      rw [hy]
      cases s with
      | positive => exact congrArg some (compare_gt_iff_gt.mpr above).symm
      | negative => exact congrArg some (compare_lt_iff_lt.mpr (neg_lt_zero.mpr above)).symm
    | @finite t n f pos' hy =>
      have above' := (canonical_of_unpack hy).value_pos
      have magnitudes := compare_canonical (canonical_of_unpack hx) (canonical_of_unpack hy)
      rw [hy]
      cases s with
      | positive =>
        cases t with
        | positive => exact congrArg some magnitudes
        | negative =>
          exact congrArg some (compare_gt_iff_gt.mpr ((neg_lt_zero.mpr above').trans above)).symm
      | negative =>
        cases t with
        | positive =>
          exact congrArg some (compare_lt_iff_lt.mpr ((neg_lt_zero.mpr above).trans above')).symm
        | negative =>
          exact congrArg some ((congrArg Ordering.swap magnitudes).trans (compare_neg _ _).symm)

/-- Finite doubles are in the order of their values. -/
theorem le_iff (hx : IsValue x p) (hy : IsValue y q) : x ≤ y ↔ p ≤ q := by
  rw [Binary64.le_iff, UnpackedFloat.le, hx.compare_eq hy, ← compare_le_iff_le,
    Option.any_some, Ordering.isLE_iff_ne_gt]

theorem lt_iff (hx : IsValue x p) (hy : IsValue y q) : x < y ↔ p < q := by
  rw [Binary64.lt_iff, UnpackedFloat.lt, hx.compare_eq hy, ← compare_lt_iff_lt]
  simp

end IsValue

/-- What is below a finite double is not infinite. -/
theorem IsValue.not_lt_of_infinite (hy : IsValue y q) (h : x.toModel.unpack = .infinity .positive) :
    ¬x < y := by
  rw [Binary64.lt_iff, UnpackedFloat.lt, h]
  cases hy with
  | zero hy => rw [hy]; exact Bool.false_ne_true
  | finite hy => rw [hy]; exact Bool.false_ne_true

/-- A number between two finite doubles is finite. -/
theorem exists_isValue_of_between {low high : Float} (hl : IsValue low p) (hh : IsValue high q)
    (above : low ≤ x) (below : x ≤ high) : ∃ v, IsValue x v ∧ p ≤ v ∧ v ≤ q := by
  have finite : x.isFinite := by
    -- no number is in order with NaN, and each infinity is outside of one of the bounds
    rw [Binary64.le_iff] at above below
    show x.toModel.unpack.isFinite = true
    cases unpacked : x.toModel.unpack with
    | zero => rfl
    | finite => rfl
    | notANumber =>
      rw [unpacked] at below
      cases below
    | infinity s =>
      rw [unpacked] at above below
      cases s with
      | positive =>
        cases hh with
        | zero hh => rw [hh] at below; cases below
        | finite hh => rw [hh] at below; cases below
      | negative =>
        cases hl with
        | zero hl => rw [hl] at above; cases above
        | finite hl => rw [hl] at above; cases above
  obtain ⟨v, hx⟩ := isFinite_iff_exists_isValue.mp finite
  exact ⟨v, hx, (hl.le_iff hx).mp above, (hx.le_iff hh).mp below⟩

/-- What is less is at most as great, NaN or not. -/
theorem le_of_lt {x y : Float} (h : x < y) : x ≤ y := by
  rw [Binary64.lt_iff, UnpackedFloat.lt, beq_iff_eq] at h
  rw [Binary64.le_iff, UnpackedFloat.le, h]
  rfl

/-! ### Bounds -/

/-- A finite double that is at most a power of two away from zero. -/
def IsWithin (k : ℕ) (x : Float) : Prop := ∃ v, IsValue x v ∧ |v| ≤ 2 ^ k

namespace IsWithin

variable {k l : ℕ}

theorem isFinite (h : IsWithin k x) : x.isFinite := by
  obtain ⟨v, value, -⟩ := h
  exact isFinite_iff_exists_isValue.mpr ⟨v, value⟩

theorem mono (h : IsWithin k x) (le : k ≤ l) : IsWithin l x := by
  obtain ⟨v, value, bound⟩ := h
  exact ⟨v, value, bound.trans (pow_le_pow_right₀ one_le_two le)⟩

theorem neg (h : IsWithin k x) : IsWithin k (-x) := by
  obtain ⟨v, value, bound⟩ := h
  exact ⟨-v, value.neg, by rwa [abs_neg]⟩

/-- Rounding does not pass a power of two. -/
theorem nearest_le_two_pow (hq : 0 ≤ q) (h : q ≤ 2 ^ k) : nearest q ≤ 2 ^ k := by
  have power : (2 : ℚ) ^ k = (1 : ℕ) * 2 ^ (k : ℤ) := by rw [Nat.cast_one, one_mul, zpow_natCast]
  rw [power] at h ⊢
  exact nearest_le hq (by norm_num) (by omega) h

/-- Powers of two do not overflow below the thousand and twenty-fourth. -/
theorem two_pow_lt_overflow (small : k < 1024) : (2 : ℚ) ^ k < overflow := by
  rw [overflow, ← zpow_natCast]
  exact zpow_lt_zpow_right₀ one_lt_two (by exact_mod_cast small)

/-- A result whose exact value is within a power of two is so as well. -/
theorem of_rounded (small : k < 1024) (bound : |v| ≤ 2 ^ k)
    (value : nearest |v| < overflow → IsValue x (rounded v)) : IsWithin k x := by
  have close := nearest_le_two_pow (abs_nonneg v) bound
  refine ⟨_, value (close.trans_lt (two_pow_lt_overflow small)), ?_⟩
  rwa [abs_rounded]

/-- Of a product the exponents are added. -/
theorem mul (hx : IsWithin k x) (hy : IsWithin l y) (small : k + l < 1024) :
    IsWithin (k + l) (x * y) := by
  obtain ⟨p, hx, boundX⟩ := hx
  obtain ⟨q, hy, boundY⟩ := hy
  refine of_rounded small ?_ (hx.mul hy)
  rw [abs_mul, pow_add]
  exact mul_le_mul boundX boundY (abs_nonneg q) (pow_nonneg zero_le_two k)

/-- A sum takes one more bit. -/
theorem add (hx : IsWithin k x) (hy : IsWithin k y) (small : k + 1 < 1024) :
    IsWithin (k + 1) (x + y) := by
  obtain ⟨p, hx, boundX⟩ := hx
  obtain ⟨q, hy, boundY⟩ := hy
  refine of_rounded small ?_ (hx.add hy)
  rw [pow_succ, mul_two]
  exact (abs_add_le p q).trans (add_le_add boundX boundY)

/-- A number between two others is within their bound. -/
theorem between {low high : Float} (hl : IsWithin k low) (hh : IsWithin k high)
    (above : low ≤ x) (below : x ≤ high) : IsWithin k x := by
  obtain ⟨p, hl, boundLow⟩ := hl
  obtain ⟨q, hh, boundHigh⟩ := hh
  obtain ⟨v, value, le, ge⟩ := exists_isValue_of_between hl hh above below
  refine ⟨v, value, abs_le.mpr ⟨?_, ?_⟩⟩
  · exact (abs_le.mp boundLow).1.trans le
  · exact ge.trans (abs_le.mp boundHigh).2

/-- The bound of a given double can be checked in whole numbers. -/
theorem of_check (check : (Dyadic.ofFloat? x).any fun d => d.numerator ≤ 2 ^ k * d.denominator) :
    IsWithin k x := by
  obtain ⟨d, isDyadic, bound⟩ : ∃ d, Dyadic.ofFloat? x = some d ∧
      decide (d.numerator ≤ 2 ^ k * d.denominator) = true := by
    cases isDyadic : Dyadic.ofFloat? x with
    | none =>
      rw [isDyadic] at check
      cases check
    | some d =>
      rw [isDyadic] at check
      exact ⟨d, rfl, check⟩
  have bound : d.numerator ≤ 2 ^ k * d.denominator := of_decide_eq_true bound
  -- both sides are multiplied by the power of two that makes them whole
  have magnitude : (d.mantissa : ℚ) * 2 ^ d.exponent ≤ 2 ^ k := by
    have bound : (d.mantissa : ℚ) * 2 ^ d.exponent.toNat ≤ 2 ^ k * 2 ^ (-d.exponent).toNat := by
      rw [Dyadic.numerator, Dyadic.denominator, Nat.shiftLeft_eq, Nat.shiftLeft_eq,
        one_mul] at bound
      exact_mod_cast bound
    rw [← zpow_mul_pow_toNat_neg two_ne_zero, ← mul_assoc] at bound
    exact le_of_mul_le_mul_right bound (pow_pos two_pos _)
  cases unpacks_iff.mpr isDyadic with
  | zero h => exact ⟨0, .zero h, by rw [abs_zero]; exact pow_nonneg zero_le_two k⟩
  | finite h =>
    refine ⟨_, .finite h, ?_⟩
    rwa [abs_signed _ (canonical_of_unpack h).value_pos.le]

end IsWithin

end DeadReckoning.Binary64
