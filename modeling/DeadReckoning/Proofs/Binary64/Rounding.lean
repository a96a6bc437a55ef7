import DeadReckoning.Proofs.Binary64.Packing

namespace DeadReckoning.Binary64

/-!
# Binary64 — the rounding of results

An operation computes a mantissa and two residual bits, which tell where the exact result lies
between this mantissa and the next. The mantissa is then cut to the digits that a double leaves.

* `Describes` — what a mantissa and its residual bits say of a number
* `Describes.roundedMantissa`, `Describes.shiftRight` — rounding and cutting
* `IsMagnitude` — a double without a sign, and its value
* `isMagnitude_round` — an operation that describes its result exactly gives the nearest double
* `unpack_round_infinite` — or infinity, if the result is beyond the doubles
-/

open Float.Model Float.Model.UnpackedFloat

variable {q : ℚ} {m : ℕ} {e : ℤ}

/-! ### Mantissas with residual bits -/

/-- What a mantissa and its residual bits say of a number: it is the mantissa, or it lies below, at
or above the middle between the mantissa and the next. -/
def Describes (em : ExtendedMantissa) (q : ℚ) : Prop :=
  match em.roundBit, em.stickyBit with
  | false, false => q = em.mantissa
  | false, true => (em.mantissa : ℚ) < q ∧ q < em.mantissa + 1 / 2
  | true, false => q = em.mantissa + 1 / 2
  | true, true => (em.mantissa : ℚ) + 1 / 2 < q ∧ q < em.mantissa + 1

namespace Describes

variable {em : ExtendedMantissa}

theorem exact (m : ℕ) : Describes (.ofMantissaAndAccuracy m .exact) m := rfl

/-- The mantissa is the whole part. -/
theorem bounds (h : Describes em q) : (em.mantissa : ℚ) ≤ q ∧ q < em.mantissa + 1 := by
  obtain ⟨m, roundBit, stickyBit⟩ := em
  cases roundBit <;> cases stickyBit <;> simp only [Describes] at h ⊢ <;>
    constructor <;> linarith

theorem nonneg (h : Describes em q) : 0 ≤ q := (Nat.cast_nonneg _).trans h.bounds.1

/-- The residual bits are all that rounding needs. -/
theorem roundedMantissa (h : Describes em q) : em.roundedMantissa = roundEven q := by
  have nonneg := h.nonneg
  obtain ⟨m, roundBit, stickyBit⟩ := em
  symm
  -- the round bit is the half, the sticky bit tells whether more follows
  cases roundBit with
  | false =>
    cases stickyBit with
    | false =>
      rw [show q = m from h]
      exact roundEven_natCast m
    | true =>
      have h : (m : ℚ) < q ∧ q < m + 1 / 2 := h
      show roundEven q = m
      exact roundEven_eq nonneg (by linarith) h.2.le fun _ => ⟨by linarith, h.2⟩
  | true =>
    cases stickyBit with
    | false =>
      have h : q = m + 1 / 2 := h
      show roundEven q = m + m % 2
      rcases Nat.mod_two_eq_zero_or_one m with even | odd
      · rw [even, Nat.add_zero]
        exact roundEven_eq nonneg (by linarith) h.le fun odd => by omega
      · rw [odd]
        refine roundEven_eq nonneg ?_ ?_ fun even => by omega
        · push_cast
          linarith
        · push_cast
          linarith
    | true =>
      have h : (m : ℚ) + 1 / 2 < q ∧ q < m + 1 := h
      show roundEven q = m + 1
      refine roundEven_eq nonneg ?_ ?_ fun _ => ⟨?_, ?_⟩ <;> push_cast <;> linarith

/-- Cutting one digit off. -/
theorem shiftRightOne (h : Describes em q) : Describes em.shiftRightOne (q / 2) := by
  obtain ⟨m, roundBit, stickyBit⟩ := em
  have digits : (m : ℚ) = 2 * (m / 2 : ℕ) + (m % 2 : ℕ) := by
    exact_mod_cast (Nat.div_add_mod m 2).symm
  show Describes ⟨m / 2, m % 2 != 0, roundBit || stickyBit⟩ (q / 2)
  -- the digit that is cut off becomes the round bit, the old residue is all below it
  rcases Nat.mod_two_eq_zero_or_one m with even | odd
  · rw [even, Nat.cast_zero, add_zero] at digits
    rw [even]
    cases roundBit <;> cases stickyBit <;>
      simp only [Describes, bne_self_eq_false, Bool.or_self, Bool.or_false, Bool.or_true] at h ⊢ <;>
      (try constructor) <;> linarith
  · rw [odd, Nat.cast_one] at digits
    rw [odd]
    show Describes ⟨m / 2, true, roundBit || stickyBit⟩ (q / 2)
    cases roundBit <;> cases stickyBit <;>
      simp only [Describes, Bool.or_self, Bool.or_false, Bool.or_true] at h ⊢ <;>
      (try constructor) <;> linarith

/-- Cutting several digits off. -/
theorem shiftRight (h : Describes em q) (n : ℕ) : Describes (em >>> n) (q / 2 ^ n) := by
  show Describes (n.repeat ExtendedMantissa.shiftRightOne em) (q / 2 ^ n)
  induction n with
  | zero => simpa [Nat.repeat] using h
  | succ n ih =>
    have step := ih.shiftRightOne
    rwa [div_div, ← pow_succ] at step

end Describes

/-! ### Cutting to the digits of a double -/

/-- The exponent that a number is rounded at, from how many digits it has in all. -/
theorem targetExponent_eq (total : ℤ) :
    Format.binary64.targetExponent total = max (total - 53) (-1074) := rfl

/-- The bits for rounding are behind the mantissa. -/
@[simp] theorem mantissa_ofMantissaAndAccuracy (m : ℕ) (accuracy : Accuracy) :
    (ExtendedMantissa.ofMantissaAndAccuracy m accuracy).mantissa = m := by
  cases accuracy with
  | exact => rfl
  | inexact side => cases side <;> rfl

/-- The exponent that a mantissa with a digit is cut to is that of the grid of the number. -/
theorem target_eq_grid_of_pos {em : ExtendedMantissa} (described : Describes em (q / 2 ^ e))
    (pos : 0 < em.mantissa) :
    Format.binary64.targetExponent (totalExponent em.mantissa e) = gridExponent q := by
  have step := two_zpow_pos e
  obtain ⟨low, high⟩ := described.bounds
  rw [le_div_iff₀ step] at low
  rw [div_lt_iff₀ step] at high
  -- a mantissa and the number that it describes have the same number of binary digits
  have digits_le := (Nat.le_log2 pos.ne').mp le_rfl
  have lt_digits := (Nat.log2_lt pos.ne').mp (Nat.lt_succ_self _)
  have low : (2 : ℚ) ^ ((em.mantissa.log2 : ℤ) + e) ≤ q := by
    rw [← two_pow_mul_two_zpow]
    refine le_trans (mul_le_mul_of_nonneg_right ?_ step.le) low
    exact_mod_cast digits_le
  have high : q < (2 : ℚ) ^ ((em.mantissa.log2 + 1 : ℕ) + e) := by
    rw [← two_pow_mul_two_zpow]
    refine lt_of_lt_of_le high (mul_le_mul_of_nonneg_right ?_ step.le)
    exact_mod_cast lt_digits
  have hq : 0 < q := (two_zpow_pos _).trans_le low
  have low : (em.mantissa.log2 : ℤ) + e ≤ Int.log 2 q :=
    (Int.zpow_le_iff_le_log (R := ℚ) Nat.one_lt_two hq).mp (by exact_mod_cast low)
  have high : Int.log 2 q < (em.mantissa.log2 + 1 : ℕ) + e :=
    (Int.lt_zpow_iff_log_lt (R := ℚ) Nat.one_lt_two hq).mp (by exact_mod_cast high)
  rw [targetExponent_eq, totalExponent]
  unfold gridExponent
  omega

/-- The exponent that a mantissa is cut to is that of the grid of the number it describes. -/
theorem target_eq_grid {em : ExtendedMantissa} (described : Describes em (q / 2 ^ e)) (hq : 0 < q)
    (fine : e ≤ gridExponent q) :
    Format.binary64.targetExponent (totalExponent em.mantissa e) = gridExponent q := by
  rcases Nat.eq_zero_or_pos em.mantissa with none | some
  · -- all digits are residual, which happens on the finest grid only
    have high := described.bounds.2
    rw [none, Nat.cast_zero, zero_add, div_lt_one (two_zpow_pos e)] at high
    have high : Int.log 2 q < e :=
      (Int.lt_zpow_iff_log_lt (R := ℚ) Nat.one_lt_two hq).mp (by exact_mod_cast high)
    have log : Nat.log2 0 = 0 := by decide
    rw [targetExponent_eq, totalExponent, none, log]
    unfold gridExponent at fine ⊢
    omega
  · exact target_eq_grid_of_pos described some

/-- The first cut leaves a mantissa on the grid of the number. -/
theorem shiftToTarget {accuracy : Accuracy}
    (described : Describes (.ofMantissaAndAccuracy m accuracy) (q / 2 ^ e)) (hq : 0 < q)
    (fine : e ≤ gridExponent q) :
    ∃ em, shiftToTargetExponent Format.binary64 m e accuracy = (em, gridExponent q) ∧
      Describes em (q / 2 ^ gridExponent q) := by
  have target := target_eq_grid described hq fine
  rw [mantissa_ofMantissaAndAccuracy] at target
  -- the digits below the grid are cut off one by one, the residual bits keep track of them
  have cut := described.shiftRight (gridExponent q - e).toNat
  have whole : q / 2 ^ e / 2 ^ (gridExponent q - e).toNat = q / 2 ^ gridExponent q := by
    rw [div_div, mul_comm, two_pow_mul_two_zpow]
    congr 2
    omega
  rw [whole] at cut
  refine ⟨_, ?_, cut⟩
  simp only [shiftToTargetExponent, shiftToExponent, target, Prod.mk.injEq, true_and]
  omega

/-- The second cut takes a digit off a mantissa that rounding made too long, and no other. -/
theorem shiftToTarget_rounded (high : m ≤ 2 ^ 53) (grid : -1074 ≤ e) :
    shiftToTargetExponent Format.binary64 m e .exact =
      if m = 2 ^ 53 then (⟨2 ^ 52, false, false⟩, e + 1) else (⟨m, false, false⟩, e) := by
  simp only [shiftToTargetExponent, shiftToExponent, targetExponent_eq, totalExponent]
  split
  · rename_i long
    have log : Nat.log2 (2 ^ 53) = 53 := by decide
    have one : (max ((53 : ℕ) + 1 + e - 53) (-1074) - e).toNat = 1 := by omega
    rw [long, log, one]
    rfl
  · -- a mantissa that was not rounded up has 53 digits at most
    have log : m.log2 ≤ 52 := by
      rcases Nat.eq_zero_or_pos m with rfl | pos
      · decide
      · have := (Nat.log2_lt pos.ne').mpr (show m < 2 ^ 53 by omega)
        omega
    have none : (max ((m.log2 : ℤ) + 1 + e - 53) (-1074) - e).toNat = 0 := by omega
    rw [none]
    simp [ExtendedMantissa.ofMantissaAndAccuracy]
    rfl

/-- On its grid a number is rounded to a mantissa of 53 digits at most. -/
theorem roundEven_grid_le (hq : 0 < q) : roundEven (q / 2 ^ gridExponent q) ≤ 2 ^ 53 := by
  have step := two_zpow_pos (gridExponent q)
  apply roundEven_le (div_nonneg hq.le step.le)
  rw [div_lt_iff₀ step]
  exact_mod_cast lt_two_pow_mul_grid q

/-- The mantissa has all 53 digits, unless the grid is the finest. -/
theorem le_roundEven_grid (hq : 0 < q) :
    2 ^ 52 ≤ roundEven (q / 2 ^ gridExponent q) ∨ gridExponent q = -1074 := by
  by_cases finest : gridExponent q = -1074
  · exact .inr finest
  · left
    apply le_roundEven
    rw [le_div_iff₀ (two_zpow_pos _)]
    exact_mod_cast two_pow_mul_grid_le hq finest

/-- What rounding makes of a positive number that is described exactly. -/
theorem roundWithAccuracy_eq (s : Sign) {accuracy : Accuracy}
    (described : Describes (.ofMantissaAndAccuracy m accuracy) (q / 2 ^ e)) (hq : 0 < q)
    (fine : e ≤ gridExponent q) :
    (nearest q = 0 ∧ roundWithAccuracy Format.binary64 s m e accuracy = .zero s) ∨
      ∃ (n : ℕ) (f : ℤ) (h : Regular n f), nearest q = n * 2 ^ f ∧
        roundWithAccuracy Format.binary64 s m e accuracy = .finite s n f h.pos := by
  -- cut to the grid, round, and cut once more if rounding made a digit too many
  obtain ⟨em, first, cut⟩ := shiftToTarget described hq fine
  have rounded := cut.roundedMantissa
  have short := roundEven_grid_le hq
  have full := le_roundEven_grid hq
  have grid := neg_1074_le_gridExponent q
  have second := shiftToTarget_rounded (m := em.roundedMantissa) (rounded ▸ short) grid
  have value : nearest q = em.roundedMantissa * 2 ^ gridExponent q := by rw [nearest, rounded]
  rw [← rounded] at short full
  unfold roundWithAccuracy
  rw [first]
  dsimp only
  rw [second]
  by_cases long : em.roundedMantissa = 2 ^ 53
  · -- rounding up gave a digit more
    right
    rw [if_pos long]
    have regular : Regular (2 ^ 52) (gridExponent q + 1) :=
      ⟨by norm_num, by norm_num, by omega, .inl le_rfl⟩
    refine ⟨2 ^ 52, gridExponent q + 1, regular, ?_, ?_⟩
    · rw [value, long, two_zpow_succ]
      push_cast
      ring
    · exact dif_neg (by norm_num)
  · rw [if_neg long]
    by_cases none : em.roundedMantissa = 0
    · left
      refine ⟨by rw [value, none]; simp, ?_⟩
      exact dif_pos none
    · right
      have regular : Regular em.roundedMantissa (gridExponent q) :=
        ⟨Nat.pos_of_ne_zero none, by omega, grid, full⟩
      exact ⟨_, _, regular, value, dif_neg none⟩

/-! ### Doubles without a sign -/

/-- A double that is not negative, and its value. -/
inductive IsMagnitude (x : Float) : ℚ → Prop where
  | zero (h : x.toModel.unpack = .zero .positive) : IsMagnitude x 0
  | finite {m : ℕ} {e : ℤ} {pos : 0 < m} (h : x.toModel.unpack = .finite .positive m e pos) :
    IsMagnitude x (m * 2 ^ e)

/-- An operation that describes its result gives the nearest double, if there is one. -/
theorem isMagnitude_round {accuracy : Accuracy}
    (described : Describes (.ofMantissaAndAccuracy m accuracy) (q / 2 ^ e)) (hq : 0 < q)
    (fine : e ≤ gridExponent q) (fits : nearest q < overflow) :
    IsMagnitude (.ofModel (Float.Model.pack
      (roundWithAccuracy Format.binary64 .positive m e accuracy))) (nearest q) := by
  rcases roundWithAccuracy_eq .positive described hq fine with
    ⟨value, round⟩ | ⟨n, f, h, value, round⟩
  · rw [value, round]
    exact .zero (unpack_pack_zero .positive)
  · rw [value] at fits ⊢
    rw [round]
    exact .finite (unpack_pack_finite .positive (h.canonical fits))

/-- If there is none, it gives infinity. -/
theorem unpack_round_infinite (s : Sign) {accuracy : Accuracy}
    (described : Describes (.ofMantissaAndAccuracy m accuracy) (q / 2 ^ e)) (hq : 0 < q)
    (fine : e ≤ gridExponent q) (beyond : overflow ≤ nearest q) :
    (Float.Model.pack (roundWithAccuracy Format.binary64 s m e accuracy)).unpack = .infinity s := by
  rcases roundWithAccuracy_eq s described hq fine with ⟨value, round⟩ | ⟨n, f, h, value, round⟩
  · rw [value] at beyond
    exact absurd overflow_pos (not_lt.mpr beyond)
  · rw [value] at beyond
    have great : 971 < f := by
      by_contra small
      exact absurd (Canonical.value_lt_overflow ⟨h, not_lt.mp small⟩) (not_lt.mpr beyond)
    rw [round]
    exact unpack_pack_infinite s h.pos great

/-- A number beyond the doubles is rounded to an infinity. -/
theorem isInf_round {accuracy : Accuracy}
    (described : Describes (.ofMantissaAndAccuracy m accuracy) (q / 2 ^ e)) (hq : 0 < q)
    (fine : e ≤ gridExponent q) (beyond : overflow ≤ nearest q) :
    (Float.ofModel (Float.Model.pack
      (roundWithAccuracy Format.binary64 .positive m e accuracy))).isInf = true :=
  congrArg UnpackedFloat.isInf (unpack_round_infinite .positive described hq fine beyond)

end DeadReckoning.Binary64
