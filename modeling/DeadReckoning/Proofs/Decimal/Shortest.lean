import DeadReckoning.Decimal.Shortest
import DeadReckoning.Proofs.Binary64.Nearest

namespace DeadReckoning

/-!
# Shortest decimals — they stand for their doubles

* `Decimal.value` — the number that a decimal is
* `Dyadic.standsFor_iff` — a point of a grid stands for a double if it is rounded to it
* `Dyadic.spacing_of_none` — a grid misses a double only if it is coarse
* `Dyadic.shortest_rounds` — the shortest decimal is rounded to its double
* `Dyadic.shortest_coefficient_lt` — its digits fit 64 bits
-/

open Binary64

/-- The number that a decimal is. -/
def Decimal.value (d : Decimal) : ℚ := d.coefficient * 10 ^ d.exponent

theorem ten_zpow_pos (p : ℤ) : (0 : ℚ) < 10 ^ p := zpow_pos (by norm_num) p

theorem ten_zpow_succ (p : ℤ) : (10 : ℚ) ^ (p + 1) = 10 * 10 ^ p := by
  rw [zpow_add_one₀ (by norm_num), mul_comm]

namespace Dyadic

variable {d : Dyadic} {tie : Tie} {p : ℤ} {n : ℕ}

/-! ### Points of a grid -/

/-- The measure in which `spacing` and `quarter` are given. -/
def unit (d : Dyadic) (p : ℤ) : ℚ := 2 ^ (d.exponent - 2) / d.quarter p

theorem quarter_pos (d : Dyadic) (p : ℤ) : (0 : ℚ) < d.quarter p := by
  have pos : 0 < d.quarter p := by
    rw [quarter, Nat.shiftLeft_eq]
    exact Nat.mul_pos (Nat.pow_pos (by norm_num)) (Nat.pow_pos (by norm_num))
  exact_mod_cast pos

theorem unit_pos (d : Dyadic) (p : ℤ) : 0 < d.unit p :=
  div_pos (two_zpow_pos _) (d.quarter_pos p)

/-- A quarter of the last place, in numbers. -/
theorem quarter_mul_unit (d : Dyadic) (p : ℤ) : d.quarter p * d.unit p = 2 ^ (d.exponent - 2) :=
  mul_div_cancel₀ _ (d.quarter_pos p).ne'

/-- The distance of decimals, in numbers: a power of ten. -/
theorem spacing_mul_unit (d : Dyadic) (p : ℤ) : d.spacing p * d.unit p = 10 ^ p := by
  have tens : (10 : ℚ) ^ p.toNat = 10 ^ p * 10 ^ (-p).toNat :=
    (zpow_mul_pow_toNat_neg (by norm_num) p).symm
  have twos : (2 : ℚ) ^ (2 - d.exponent).toNat * 2 ^ (d.exponent - 2) =
      2 ^ (d.exponent - 2).toNat := by
    rw [← zpow_mul_pow_toNat_neg two_ne_zero (d.exponent - 2), neg_sub, mul_comm]
  have hquarter := d.quarter_pos p
  rw [unit, mul_div_assoc', div_eq_iff hquarter.ne']
  simp only [spacing, quarter, tenTo, Nat.shiftLeft_eq, Nat.pow_eq]
  push_cast
  rw [tens, mul_assoc, twos]
  ring

/-- Bounds in quarters of a unit in the last place, as numbers. -/
theorem quarters_mul_unit (d : Dyadic) (p : ℤ) (k : ℕ) :
    ((k * d.quarter p : ℕ) : ℚ) * d.unit p = k / 4 * 2 ^ d.exponent := by
  have step : (2 : ℚ) ^ d.exponent = 4 * 2 ^ (d.exponent - 2) := by
    rw [zpow_sub₀ two_ne_zero]
    norm_num
    ring
  rw [step, Nat.cast_mul, mul_assoc, quarter_mul_unit]
  ring

/-- A decimal of the grid, in numbers. -/
theorem point_mul_unit (d : Dyadic) (p : ℤ) (n : ℕ) :
    ((n * d.spacing p : ℕ) : ℚ) * d.unit p = n * 10 ^ p := by
  rw [Nat.cast_mul, mul_assoc, spacing_mul_unit]

/-- Where the doubles get twice as dense below. -/
theorem isNarrowBelow_iff (d : Dyadic) :
    d.isNarrowBelow ↔ Canonical.IsNarrow d.mantissa d.exponent := by
  simp [isNarrowBelow, Canonical.IsNarrow]

/-- The lower end of the span, in quarters. -/
theorem lower_mul_unit (pos : 0 < d.mantissa) (p : ℤ) :
    (((4 * d.mantissa - if d.isNarrowBelow then 1 else 2) * d.quarter p : ℕ) : ℚ) * d.unit p =
      ((d.mantissa : ℚ) - if Canonical.IsNarrow d.mantissa d.exponent then 1 / 4 else 1 / 2) *
        2 ^ d.exponent := by
  rw [quarters_mul_unit]
  congr 1
  by_cases narrow : d.isNarrowBelow
  · rw [if_pos narrow, if_pos (d.isNarrowBelow_iff.mp narrow), Nat.cast_sub (by omega)]
    push_cast
    ring
  · rw [if_neg narrow, if_neg (mt d.isNarrowBelow_iff.mpr narrow), Nat.cast_sub (by omega)]
    push_cast
    ring

/-- A point of a grid stands for a double if it is rounded to it. -/
theorem standsFor_iff (h : Canonical d.mantissa d.exponent) (p : ℤ) (n : ℕ) :
    d.standsFor p n ↔ Canonical.Rounds d.mantissa d.exponent (n * 10 ^ p) := by
  have unit := d.unit_pos p
  have lower := lower_mul_unit h.pos p
  have upper := d.quarters_mul_unit p (4 * d.mantissa + 2)
  have point := d.point_mul_unit p n
  have middle : (((4 * d.mantissa + 2 : ℕ) : ℚ) / 4) * 2 ^ d.exponent =
      ((d.mantissa : ℚ) + 1 / 2) * 2 ^ d.exponent := by
    push_cast
    ring
  rw [middle] at upper
  -- the search compares whole numbers, and the unit turns them into what they stand for
  have compares {a b : ℕ} : (a : ℚ) * d.unit p ≤ b * d.unit p ↔ a ≤ b := by
    rw [mul_le_mul_iff_left₀ unit, Nat.cast_le]
  have compares' {a b : ℕ} : (a : ℚ) * d.unit p < b * d.unit p ↔ a < b := by
    rw [mul_lt_mul_iff_left₀ unit, Nat.cast_lt]
  unfold standsFor
  dsimp only
  rcases Nat.mod_two_eq_zero_or_one d.mantissa with even | odd
  · rw [if_pos (by simp [even]), Bool.and_eq_true, decide_eq_true_iff, decide_eq_true_iff,
      ← compares, ← compares, lower, upper, point]
    constructor
    · rintro ⟨low, high⟩
      exact ⟨low, high, fun odd => by omega⟩
    · rintro ⟨low, high, _⟩
      exact ⟨low, high⟩
  · rw [if_neg (by simp [odd]), Bool.and_eq_true, decide_eq_true_iff, decide_eq_true_iff,
      ← compares', ← compares', lower, upper, point]
    constructor
    · rintro ⟨low, high⟩
      exact ⟨low.le, high.le, fun _ => ⟨low, high⟩⟩
    · rintro ⟨_, _, ends⟩
      exact ends odd

/-! ### Grids that are tried -/

/-- The point that a grid gives stands for the double. -/
theorem standsFor_of_onGrid? (found : d.onGrid? tie p = some n) : d.standsFor p n := by
  unfold onGrid? at found
  dsimp only at found
  split at found
  · rename_i below above
    rw [Option.some.injEq] at found
    rw [← found]
    -- if both neighbours stand for the double, the nearer one is taken
    split
    · exact above
    · exact below
  · rename_i below _
    rw [Option.some.injEq] at found
    exact found ▸ below
  · rename_i _ above
    rw [Option.some.injEq] at found
    exact found ▸ above
  · cases found

/-- A grid misses a double only if it is coarser than three quarters of a unit in the last place. -/
theorem spacing_of_none (h : Canonical d.mantissa d.exponent) (missed : d.onGrid? tie p = none) :
    3 / 4 * 2 ^ d.exponent ≤ (10 : ℚ) ^ p := by
  have spacing_pos : 0 < d.spacing p := by
    rw [spacing, Nat.shiftLeft_eq]
    exact Nat.mul_pos (Nat.pow_pos (by norm_num)) (Nat.pow_pos (by norm_num))
  -- neither the point below the double nor the one above it is in the span
  obtain ⟨below, above⟩ : d.standsFor p (4 * d.mantissa * d.quarter p / d.spacing p) = false ∧
      d.standsFor p (4 * d.mantissa * d.quarter p / d.spacing p + 1) = false := by
    unfold onGrid? at missed
    dsimp only at missed
    split at missed
    · cases missed
    · cases missed
    · cases missed
    · rename_i below above
      exact ⟨below, above⟩
  obtain ⟨k, isBelow⟩ : ∃ k, 4 * d.mantissa * d.quarter p / d.spacing p = k := ⟨_, rfl⟩
  rw [isBelow] at below above
  have floor : k * d.spacing p ≤ 4 * d.mantissa * d.quarter p :=
    isBelow ▸ Nat.div_mul_le_self _ _
  have ceiling : 4 * d.mantissa * d.quarter p < (k + 1) * d.spacing p := by
    rw [← isBelow]
    exact Nat.lt_mul_of_div_lt (Nat.lt_succ_self _) spacing_pos
  -- the span is three quarters of a unit wide at least, and fits between the two
  have wide : 3 * d.quarter p ≤ d.spacing p := by
    have quarter : 0 < d.quarter p := by exact_mod_cast d.quarter_pos p
    have pos := h.pos
    obtain ⟨s, isSide⟩ : ∃ s, (if d.isNarrowBelow then 1 else 2) = s := ⟨_, rfl⟩
    have side : s = 1 ∨ s = 2 := by
      rw [← isSide]
      split
      · exact .inl rfl
      · exact .inr rfl
    have low : k * d.spacing p ≤ (4 * d.mantissa - s) * d.quarter p := by
      unfold standsFor at below
      dsimp only at below
      rw [isSide] at below
      have middle : 4 * d.mantissa * d.quarter p < (4 * d.mantissa + 2) * d.quarter p :=
        Nat.mul_lt_mul_of_pos_right (by omega) quarter
      split at below <;>
        simp only [Bool.and_eq_false_iff, decide_eq_false_iff_not] at below <;> omega
    have high : (4 * d.mantissa + 2) * d.quarter p ≤ (k + 1) * d.spacing p := by
      unfold standsFor at above
      dsimp only at above
      rw [isSide] at above
      have middle : (4 * d.mantissa - s) * d.quarter p < 4 * d.mantissa * d.quarter p :=
        Nat.mul_lt_mul_of_pos_right (by omega) quarter
      split at above <;>
        simp only [Bool.and_eq_false_iff, decide_eq_false_iff_not] at above <;> omega
    have apart : 4 * d.mantissa + 2 = 4 * d.mantissa - s + (s + 2) := by omega
    rw [apart, Nat.add_mul _ (s + 2), Nat.add_mul k 1, Nat.one_mul] at high
    have least : 3 * d.quarter p ≤ (s + 2) * d.quarter p := Nat.mul_le_mul_right _ (by omega)
    omega
  have wide : ((3 * d.quarter p : ℕ) : ℚ) * d.unit p ≤ d.spacing p * d.unit p :=
    mul_le_mul_of_nonneg_right (by exact_mod_cast wide) (d.unit_pos p).le
  rw [quarters_mul_unit, spacing_mul_unit] at wide
  exact_mod_cast wide

/-- The grids are tried from coarse to fine: the first that has a point is taken, and the one before
it has none. The last grid tried has to be fine. -/
theorem shortestFrom_spec (h : Canonical d.mantissa d.exponent) (tries : ℕ) (p : ℤ)
    (fine : (10 : ℚ) ^ (p - tries) < 3 / 4 * 2 ^ d.exponent) :
    let r := d.shortestFrom tie (tries + 1) p
    d.standsFor r.exponent r.coefficient ∧
      (r.exponent = p ∨ d.onGrid? tie (r.exponent + 1) = none) := by
  -- the last grid is fine, so that the search does not come to its end without a point
  induction tries generalizing p with
  | zero =>
    unfold shortestFrom
    cases found : d.onGrid? tie p with
    | some n => exact ⟨standsFor_of_onGrid? found, .inl rfl⟩
    | none =>
      rw [Nat.cast_zero, sub_zero] at fine
      exact absurd (spacing_of_none h found) (not_le.mpr fine)
  | succ tries ih =>
    unfold shortestFrom
    cases found : d.onGrid? tie p with
    | some n => exact ⟨standsFor_of_onGrid? found, .inl rfl⟩
    | none =>
      have shift : p - 1 - (tries : ℤ) = p - (tries + 1 : ℕ) := by
        push_cast
        ring
      obtain ⟨stands, first | missed⟩ := ih (p - 1) (shift ▸ fine)
      · refine ⟨stands, .inr ?_⟩
        rw [first, sub_add_cancel]
        exact found
      · exact ⟨stands, .inr missed⟩

/-! ### The first grid -/

/-- The power of ten that the search starts from, given the power of two above a double. -/
def ceilingOf (L : ℤ) : ℤ := L * 30103 / 100000 + 1

/-- Powers with exponents of either sign are compared in whole numbers. -/
theorem two_zpow_le_ten_zpow {a b : ℤ}
    (h : 2 ^ a.toNat * 10 ^ (-b).toNat ≤ 10 ^ b.toNat * 2 ^ (-a).toNat) :
    (2 : ℚ) ^ a ≤ 10 ^ b := by
  have h : (2 : ℚ) ^ a.toNat * 10 ^ (-b).toNat ≤ 10 ^ b.toNat * 2 ^ (-a).toNat := by
    exact_mod_cast h
  have two_pos : (0 : ℚ) < 2 ^ (-a).toNat := by positivity
  have ten_pos : (0 : ℚ) < 10 ^ (-b).toNat := by positivity
  -- both sides are multiplied by the powers that make the exponents natural
  rw [← zpow_mul_pow_toNat_neg two_ne_zero a, ← zpow_mul_pow_toNat_neg (by norm_num) b] at h
  refine le_of_mul_le_mul_right ?_ (mul_pos two_pos ten_pos)
  calc (2 : ℚ) ^ a * (2 ^ (-a).toNat * 10 ^ (-b).toNat)
      = 2 ^ a * 2 ^ (-a).toNat * 10 ^ (-b).toNat := by ring
    _ ≤ 10 ^ b * 10 ^ (-b).toNat * 2 ^ (-a).toNat := h
    _ = 10 ^ b * (2 ^ (-a).toNat * 10 ^ (-b).toNat) := by ring

/-- Powers of ten and of two are compared in natural numbers, whatever the signs of the
exponents. -/
theorem ten_zpow_le_two_zpow {a b : ℤ}
    (h : 10 ^ b.toNat * 2 ^ (-a).toNat ≤ 2 ^ a.toNat * 10 ^ (-b).toNat) :
    (10 : ℚ) ^ b ≤ 2 ^ a := by
  have inverse : (2 : ℚ) ^ (-a) ≤ 10 ^ (-b) := by
    apply two_zpow_le_ten_zpow
    rw [neg_neg, neg_neg, mul_comm (2 ^ (-a).toNat), mul_comm (10 ^ (-b).toNat)]
    exact h
  rw [zpow_neg, zpow_neg] at inverse
  exact (inv_le_inv₀ (two_zpow_pos a) (ten_zpow_pos b)).mp inverse

/-- The search starts above all doubles below a power of two. -/
theorem two_zpow_le_ceiling {L : ℤ} (low : -1073 ≤ L) (high : L ≤ 1024) :
    (2 : ℚ) ^ L ≤ 10 ^ ceilingOf L := by
  -- there is one case for each power of two in the range of doubles
  have check : ∀ k : ℕ, k < 2098 → 2 ^ ((k : ℤ) - 1073).toNat *
      10 ^ (-ceilingOf ((k : ℤ) - 1073)).toNat ≤
        10 ^ (ceilingOf ((k : ℤ) - 1073)).toNat * 2 ^ (-((k : ℤ) - 1073)).toNat := by
    decide +kernel
  obtain ⟨k, isIndex⟩ : ∃ k : ℕ, L = (k : ℤ) - 1073 := ⟨(L + 1073).toNat, by omega⟩
  rw [isIndex]
  exact two_zpow_le_ten_zpow (check k (by omega))

/-- Twenty-three grids further down the grid is finer than all doubles of 53 digits. -/
theorem ceiling_fine {L : ℤ} (low : -1073 ≤ L) (high : L ≤ 1024) :
    (10 : ℚ) ^ (ceilingOf L - 23) ≤ 2 ^ (L - 54) := by
  have check : ∀ k : ℕ, k < 2098 → 10 ^ (ceilingOf ((k : ℤ) - 1073) - 23).toNat *
      2 ^ (-((k : ℤ) - 1073 - 54)).toNat ≤
        2 ^ ((k : ℤ) - 1073 - 54).toNat * 10 ^ (-(ceilingOf ((k : ℤ) - 1073) - 23)).toNat := by
    decide +kernel
  obtain ⟨k, isIndex⟩ : ∃ k : ℕ, L = (k : ℤ) - 1073 := ⟨(L + 1073).toNat, by omega⟩
  rw [isIndex]
  exact ten_zpow_le_two_zpow (check k (by omega))

/-! ### The shortest decimal -/

/-- The estimate of the decimal exponent depends on the length in bits only. -/
theorem decimalCeiling_eq (d : Dyadic) :
    d.decimalCeiling = ceilingOf (d.mantissa.log2 + d.exponent + 1) := rfl

/-- The power of two above a double is within the range of doubles. -/
theorem log2_bounds (h : Canonical d.mantissa d.exponent) :
    -1073 ≤ (d.mantissa.log2 : ℤ) + d.exponent + 1 ∧ (d.mantissa.log2 : ℤ) + d.exponent + 1 ≤ 1024 ∧
      (d.mantissa.log2 : ℤ) ≤ 52 := by
  have low := h.exponent_ge
  have high := h.exponent_le
  have log := (Nat.log2_lt h.pos.ne').mpr h.lt
  omega

/-- What the search for the shortest decimal finds. -/
theorem shortest_spec (h : Canonical d.mantissa d.exponent) (tie : Tie) :
    d.standsFor (d.shortest tie).exponent (d.shortest tie).coefficient ∧
      ((d.shortest tie).exponent = d.decimalCeiling ∨
        d.onGrid? tie ((d.shortest tie).exponent + 1) = none) := by
  obtain ⟨low, high, log⟩ := log2_bounds h
  have start : d.shortest tie = d.shortestFrom tie (23 + 1) d.decimalCeiling := by
    rw [shortest, if_neg (by simpa using h.pos.ne')]
  rw [start]
  refine shortestFrom_spec h 23 d.decimalCeiling ?_
  have fine := ceiling_fine low high
  rw [← decimalCeiling_eq] at fine
  -- the finest grid that is tried is finer than half a unit in the last place
  have unit : (2 : ℚ) ^ ((d.mantissa.log2 : ℤ) + d.exponent + 1 - 54) ≤ 2 ^ (d.exponent - 1) :=
    zpow_le_zpow_right₀ one_le_two (by omega)
  have half : (2 : ℚ) ^ d.exponent = 2 * 2 ^ (d.exponent - 1) := by
    rw [← two_zpow_succ, sub_add_cancel]
  have pos := two_zpow_pos (d.exponent - 1)
  refine lt_of_le_of_lt (fine.trans unit) ?_
  rw [half]
  linarith

/-- The shortest decimal is rounded to its double. -/
theorem shortest_rounds (h : Canonical d.mantissa d.exponent) (tie : Tie) :
    Canonical.Rounds d.mantissa d.exponent (d.shortest tie).value :=
  (standsFor_iff h _ _).mp (shortest_spec h tie).1

/-- The digits of the shortest decimal fit 64 bits. -/
theorem shortest_coefficient_lt (h : Canonical d.mantissa d.exponent) (tie : Tie) :
    (d.shortest tie).coefficient < 2 ^ 57 := by
  have span := (shortest_rounds h tie).high
  have step := two_zpow_pos d.exponent
  have one : (1 : ℚ) ≤ d.mantissa := by exact_mod_cast h.pos
  have digits : (d.mantissa : ℚ) + 1 ≤ 2 ^ 53 := by exact_mod_cast h.lt
  have power := ten_zpow_pos (d.shortest tie).exponent
  obtain ⟨_, first | missed⟩ := shortest_spec h tie
  · -- on the first grid there is one point below twice the double
    obtain ⟨low, high, _⟩ := log2_bounds h
    have above := two_zpow_le_ceiling low high
    rw [← decimalCeiling_eq, ← first] at above
    have size : (d.mantissa : ℚ) * 2 ^ d.exponent <
        2 ^ ((d.mantissa.log2 : ℤ) + d.exponent + 1) := by
      have lt := (Nat.log2_lt h.pos.ne').mp (Nat.lt_succ_self _)
      have exponent : (d.mantissa.log2 : ℤ) + d.exponent + 1 =
          (d.mantissa.log2 + 1 : ℕ) + d.exponent := by
        push_cast
        ring
      rw [exponent, ← two_pow_mul_two_zpow]
      exact mul_lt_mul_of_pos_right (by exact_mod_cast lt) step
    rw [Decimal.value] at span
    have twice : ((d.shortest tie).coefficient : ℚ) * 10 ^ (d.shortest tie).exponent <
        2 * 10 ^ (d.shortest tie).exponent := by nlinarith
    have few : ((d.shortest tie).coefficient : ℚ) < 2 := lt_of_mul_lt_mul_right twice power.le
    have few : (d.shortest tie).coefficient < 2 := by exact_mod_cast few
    omega
  · have coarse := spacing_of_none h missed
    rw [ten_zpow_succ] at coarse
    rw [Decimal.value] at span
    have most : ((d.shortest tie).coefficient : ℚ) * 10 ^ (d.shortest tie).exponent <
        2 ^ 57 * 10 ^ (d.shortest tie).exponent := by
      have top : ((d.mantissa : ℚ) + 1 / 2) * 2 ^ d.exponent ≤ 2 ^ 53 * 2 ^ d.exponent :=
        mul_le_mul_of_nonneg_right (by linarith) step.le
      linarith
    have few : ((d.shortest tie).coefficient : ℚ) < 2 ^ 57 := lt_of_mul_lt_mul_right most power.le
    exact_mod_cast few

end Dyadic

end DeadReckoning
