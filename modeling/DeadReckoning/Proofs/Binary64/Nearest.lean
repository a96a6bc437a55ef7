import Mathlib.Data.Int.Log
import Mathlib.Data.Rat.Floor
import Mathlib.Tactic.FieldSimp
import Mathlib.Tactic.Linarith
import Mathlib.Tactic.NormNum
import Mathlib.Tactic.Positivity
import Mathlib.Tactic.Ring

namespace DeadReckoning.Binary64

/-!
# Binary64 — the nearest double to a magnitude

Doubles of one size lie on a grid of multiples of a power of two. Rounding takes the nearest point
of the grid, the even one of two. Overflow is left out here: the grid goes on above the greatest
double, so that a result below `2 ^ 1024` is a double and any other is infinite.

* `roundEven` — the nearest whole number, the even one of two
* `gridExponent` — the exponent of the grid that a magnitude is rounded on
* `nearest` — the magnitude that a magnitude is rounded to
* `Regular`, `Canonical` — the mantissas and exponents that doubles have
* `Canonical.Rounds` — the magnitudes around a double that are rounded to it
-/

variable {q : ℚ} {m n : ℕ} {e : ℤ}

/-! ### Rounding to whole numbers -/

/-- The nearest whole number; half way between two of them it is the even one. -/
def roundEven (q : ℚ) : ℕ :=
  if 2 * (q - ⌊q⌋₊) < 1 then ⌊q⌋₊
  else if 1 < 2 * (q - ⌊q⌋₊) then ⌊q⌋₊ + 1
  else ⌊q⌋₊ + ⌊q⌋₊ % 2

/-- A number is rounded to `n` if it is less than a half away, or a half away and `n` is even. -/
theorem roundEven_eq (hq : 0 ≤ q) (low : (n : ℚ) - 1 / 2 ≤ q) (high : q ≤ n + 1 / 2)
    (tie : n % 2 = 1 → (n : ℚ) - 1 / 2 < q ∧ q < n + 1 / 2) : roundEven q = n := by
  have below := Nat.floor_le hq
  have above := Nat.lt_floor_add_one q
  -- the whole part is `n` or the number before it
  have near : ⌊q⌋₊ = n ∨ ⌊q⌋₊ + 1 = n := by
    have h₁ : (n : ℚ) < ⌊q⌋₊ + 2 := by linarith
    have h₂ : (⌊q⌋₊ : ℚ) < n + 1 := by linarith
    have h₁ : n < ⌊q⌋₊ + 2 := by exact_mod_cast h₁
    have h₂ : ⌊q⌋₊ < n + 1 := by exact_mod_cast h₂
    omega
  unfold roundEven
  -- in either case only one of the three branches is left, and at a half `n` is even
  rcases near with h | h
  · rw [h]
    split
    · rfl
    · rename_i notBelow
      rw [not_lt] at notBelow
      split
      · linarith
      · rcases Nat.mod_two_eq_zero_or_one n with even | odd
        · rw [even, Nat.add_zero]
        · linarith [(tie odd).2]
  · have cast : (n : ℚ) = ⌊q⌋₊ + 1 := by rw [← h]; push_cast; ring
    split
    · linarith
    · split
      · exact h
      · rename_i notBelow notAbove
        rw [not_lt] at notBelow notAbove
        rcases Nat.mod_two_eq_zero_or_one n with even | odd
        · omega
        · linarith [(tie odd).1]

/-- Whole numbers are not rounded. -/
@[simp] theorem roundEven_natCast (n : ℕ) : roundEven n = n :=
  roundEven_eq n.cast_nonneg (by linarith) (by linarith)
    fun _ => ⟨by linarith, by linarith⟩

@[simp] theorem roundEven_zero : roundEven 0 = 0 := by exact_mod_cast roundEven_natCast 0

/-- Rounding moves a number by a half at most. -/
theorem abs_roundEven_sub_le (hq : 0 ≤ q) : |(roundEven q : ℚ) - q| ≤ 1 / 2 := by
  have below := Nat.floor_le hq
  have above := Nat.lt_floor_add_one q
  rw [abs_le]
  unfold roundEven
  split
  · constructor <;> linarith
  · rename_i notBelow
    rw [not_lt] at notBelow
    split
    · push_cast
      constructor <;> linarith
    · rename_i notAbove
      rw [not_lt] at notAbove
      -- in the middle it is half a unit either way
      rcases Nat.mod_two_eq_zero_or_one ⌊q⌋₊ with h | h
      · rw [h]
        push_cast
        constructor <;> linarith
      · rw [h]
        push_cast
        constructor <;> linarith

/-- A number that is not below a whole number is not rounded below it. -/
theorem le_roundEven (h : (n : ℚ) ≤ q) : n ≤ roundEven q := by
  have nonneg : 0 ≤ q := n.cast_nonneg.trans h
  -- a half is less than one, and between whole numbers that decides
  have close := (abs_le.mp (abs_roundEven_sub_le nonneg)).1
  have : (n : ℚ) < roundEven q + 1 := by linarith
  have : n < roundEven q + 1 := by exact_mod_cast this
  omega

/-- A number below a whole number is not rounded above it. -/
theorem roundEven_le (hq : 0 ≤ q) (h : q < n) : roundEven q ≤ n := by
  have close := (abs_le.mp (abs_roundEven_sub_le hq)).2
  have : (roundEven q : ℚ) < n + 1 := by linarith
  have : roundEven q < n + 1 := by exact_mod_cast this
  omega

/-! ### The grid of a magnitude -/

/-- The exponent of the grid that a magnitude is rounded on: it leaves 53 binary digits, and fewer
to the magnitudes near zero. -/
def gridExponent (q : ℚ) : ℤ := max (Int.log 2 q - 52) (-1074)

/-- No grid is finer than that of the least step. -/
theorem neg_1074_le_gridExponent (q : ℚ) : -1074 ≤ gridExponent q := le_max_right _ _

theorem two_zpow_pos (e : ℤ) : (0 : ℚ) < 2 ^ e := zpow_pos two_pos e

theorem two_zpow_succ (e : ℤ) : (2 : ℚ) ^ (e + 1) = 2 * 2 ^ e := by
  rw [zpow_add_one₀ two_ne_zero, mul_comm]

/-- Powers of two are multiplied by adding exponents, one of which is natural here. -/
theorem two_pow_mul_two_zpow (k : ℕ) (e : ℤ) : (2 : ℚ) ^ k * 2 ^ e = 2 ^ (k + e) := by
  rw [zpow_add₀ two_ne_zero, zpow_natCast]

/-- A power is made whole by the power that its exponent lacks, if it is negative. -/
theorem zpow_mul_pow_toNat_neg {b : ℚ} (ne : b ≠ 0) (e : ℤ) :
    b ^ e * b ^ (-e).toNat = b ^ e.toNat := by
  rw [← zpow_natCast, ← zpow_natCast, ← zpow_add₀ ne]
  congr 1
  omega

/-- A grid is no coarser than 53 binary digits need. -/
theorem gridExponent_le (hq : 0 < q) (he : -1074 ≤ e) (high : q < 2 ^ 53 * 2 ^ e) :
    gridExponent q ≤ e := by
  rw [two_pow_mul_two_zpow] at high
  have high : Int.log 2 q < (53 : ℕ) + e :=
    (Int.lt_zpow_iff_log_lt (R := ℚ) Nat.one_lt_two hq).mp (by exact_mod_cast high)
  unfold gridExponent
  push_cast at high
  omega

/-- A grid is no finer than 53 binary digits make it. -/
theorem le_gridExponent (low : 2 ^ 52 * 2 ^ e ≤ q) : e ≤ gridExponent q := by
  rw [two_pow_mul_two_zpow] at low
  have hq : 0 < q := (two_zpow_pos _).trans_le low
  have low : (52 : ℕ) + e ≤ Int.log 2 q :=
    (Int.zpow_le_iff_le_log (R := ℚ) Nat.one_lt_two hq).mp (by exact_mod_cast low)
  unfold gridExponent
  push_cast at low
  omega

/-- The grid of the magnitudes with 53 binary digits above `2 ^ e`. -/
theorem gridExponent_eq (hq : 0 < q) (he : -1074 ≤ e) (high : q < 2 ^ 53 * 2 ^ e)
    (low : 2 ^ 52 * 2 ^ e ≤ q ∨ e = -1074) : gridExponent q = e := by
  apply le_antisymm (gridExponent_le hq he high)
  rcases low with low | least
  · exact le_gridExponent low
  · rw [least]
    exact neg_1074_le_gridExponent q

/-- A magnitude has at most 53 binary digits on its grid. -/
theorem lt_two_pow_mul_grid (q : ℚ) : q < 2 ^ 53 * 2 ^ gridExponent q := by
  have h : q < (2 : ℚ) ^ (Int.log 2 q + 1) := by
    exact_mod_cast Int.lt_zpow_succ_log_self (R := ℚ) Nat.one_lt_two q
  have grid : Int.log 2 q - 52 ≤ gridExponent q := le_max_left _ _
  rw [two_pow_mul_two_zpow]
  refine h.trans_le (zpow_le_zpow_right₀ one_le_two ?_)
  push_cast
  omega

/-- A magnitude has all 53 binary digits on its grid, unless it is on the finest one. -/
theorem two_pow_mul_grid_le (hq : 0 < q) (h : gridExponent q ≠ -1074) :
    2 ^ 52 * 2 ^ gridExponent q ≤ q := by
  have grid : gridExponent q = Int.log 2 q - 52 := by
    unfold gridExponent at h ⊢
    omega
  have low : (2 : ℚ) ^ Int.log 2 q ≤ q := by
    exact_mod_cast Int.zpow_log_le_self (R := ℚ) Nat.one_lt_two hq
  rw [two_pow_mul_two_zpow, grid]
  refine le_trans (le_of_eq ?_) low
  congr 1
  push_cast
  ring

/-! ### Rounding to the grid -/

/-- The nearest point of its grid to a magnitude. -/
def nearest (q : ℚ) : ℚ := roundEven (q / 2 ^ gridExponent q) * 2 ^ gridExponent q

@[simp] theorem nearest_zero : nearest 0 = 0 := by simp [nearest]

/-- Rounding moves a magnitude by half a step of its grid at most. -/
theorem abs_nearest_sub_le_grid (hq : 0 ≤ q) : |nearest q - q| ≤ 2 ^ gridExponent q / 2 := by
  have pos := two_zpow_pos (gridExponent q)
  have close := abs_roundEven_sub_le (div_nonneg hq pos.le)
  -- in steps of the grid it moves by a half
  have whole : nearest q - q =
      (roundEven (q / 2 ^ gridExponent q) - q / 2 ^ gridExponent q) * 2 ^ gridExponent q := by
    rw [sub_mul, div_mul_cancel₀ _ pos.ne', nearest]
  rw [whole, abs_mul, abs_of_pos pos]
  calc _ ≤ 1 / 2 * 2 ^ gridExponent q := mul_le_mul_of_nonneg_right close pos.le
    _ = _ := by ring

/-- On a finer grid a mantissa only gets more zeros. -/
theorem exists_mul_grid (m : ℕ) {g : ℤ} (fine : g ≤ e) :
    ∃ n : ℕ, (m : ℚ) * 2 ^ e = n * 2 ^ g := by
  obtain ⟨k, rfl⟩ : ∃ k : ℕ, e = k + g := ⟨(e - g).toNat, by omega⟩
  refine ⟨m * 2 ^ k, ?_⟩
  rw [← two_pow_mul_two_zpow]
  push_cast
  ring

/-- A number with at most 53 binary digits is not rounded. -/
theorem nearest_of_lt {m : ℕ} (lt : m < 2 ^ 53) (he : -1074 ≤ e) :
    nearest ((m : ℚ) * 2 ^ e) = m * 2 ^ e := by
  rcases Nat.eq_zero_or_pos m with rfl | pos
  · simp
  · have step := two_zpow_pos e
    have lt : (m : ℚ) < 2 ^ 53 := by exact_mod_cast lt
    have fine := gridExponent_le (mul_pos (by exact_mod_cast pos) step) he
      (mul_lt_mul_of_pos_right lt step)
    unfold nearest
    obtain ⟨n, onGrid⟩ := exists_mul_grid m fine
    generalize gridExponent ((m : ℚ) * 2 ^ e) = g at onGrid ⊢
    rw [onGrid, mul_div_cancel_right₀ _ (two_zpow_pos g).ne', roundEven_natCast]

/-- A magnitude that is not above one of at most 53 binary digits is not rounded above it. -/
theorem nearest_le {m : ℕ} (hq : 0 ≤ q) (lt : m < 2 ^ 53) (he : -1074 ≤ e)
    (h : q ≤ (m : ℚ) * 2 ^ e) : nearest q ≤ m * 2 ^ e := by
  rcases hq.eq_or_lt with rfl | pos
  · simpa using h
  rcases h.eq_or_lt with rfl | h
  · exact (nearest_of_lt lt he).le
  · have fine : gridExponent q ≤ e :=
      gridExponent_le pos he (h.trans (mul_lt_mul_of_pos_right (by exact_mod_cast lt)
        (two_zpow_pos e)))
    have step := two_zpow_pos (gridExponent q)
    -- the bound is a point of the grid
    obtain ⟨n, onGrid⟩ := exists_mul_grid m fine
    rw [onGrid] at h ⊢
    refine mul_le_mul_of_nonneg_right ?_ step.le
    exact_mod_cast roundEven_le (div_nonneg hq step.le) ((div_lt_iff₀ step).mpr h)

/-- A magnitude that is not below one of at most 53 binary digits is not rounded below it. -/
theorem le_nearest {m : ℕ} (lt : m < 2 ^ 53) (he : -1074 ≤ e) (h : (m : ℚ) * 2 ^ e ≤ q) :
    (m : ℚ) * 2 ^ e ≤ nearest q := by
  have step := two_zpow_pos (gridExponent q)
  unfold nearest
  rcases Nat.eq_zero_or_pos m with rfl | some
  · rw [Nat.cast_zero, zero_mul]
    exact mul_nonneg (Nat.cast_nonneg _) step.le
  have pos : 0 < q := (mul_pos (by exact_mod_cast some) (two_zpow_pos e)).trans_le h
  by_cases fine : gridExponent q ≤ e
  · obtain ⟨n, onGrid⟩ := exists_mul_grid m fine
    rw [onGrid] at h ⊢
    refine mul_le_mul_of_nonneg_right ?_ step.le
    exact_mod_cast le_roundEven ((le_div_iff₀ step).mpr h)
  · -- on a coarser grid a full mantissa is above the bound
    have coarse : e + 1 ≤ gridExponent q := by omega
    have full : 2 ^ 52 ≤ roundEven (q / 2 ^ gridExponent q) := by
      apply le_roundEven
      rw [le_div_iff₀ step]
      exact_mod_cast two_pow_mul_grid_le pos (by omega)
    have full : (2 : ℚ) ^ 52 ≤ roundEven (q / 2 ^ gridExponent q) := by exact_mod_cast full
    have lt : (m : ℚ) ≤ 2 ^ 53 := by exact_mod_cast lt.le
    calc (m : ℚ) * 2 ^ e ≤ 2 ^ 53 * 2 ^ e :=
          mul_le_mul_of_nonneg_right lt (two_zpow_pos e).le
      _ = 2 ^ 52 * 2 ^ (e + 1) := by rw [two_zpow_succ]; ring
      _ ≤ roundEven (q / 2 ^ gridExponent q) * 2 ^ gridExponent q :=
          mul_le_mul full (zpow_le_zpow_right₀ one_le_two coarse) (two_zpow_pos _).le
            (Nat.cast_nonneg _)

/-- The least step of all grids. -/
def leastStep : ℚ := 2 ^ (-1074 : ℤ)

theorem leastStep_pos : 0 < leastStep := two_zpow_pos _

/-- Half a step of the grid of a magnitude is a small part of it, or half of the least step. -/
theorem half_grid_le (hq : 0 < q) :
    2 ^ gridExponent q / 2 ≤ q / 2 ^ 53 ∨ gridExponent q = -1074 := by
  by_cases h : gridExponent q = -1074
  · exact .inr h
  · left
    have low := two_pow_mul_grid_le hq h
    rw [le_div_iff₀ (by positivity)]
    calc (2 : ℚ) ^ gridExponent q / 2 * 2 ^ 53 = 2 ^ 52 * 2 ^ gridExponent q := by ring
      _ ≤ q := low

/-- What rounding changes is a small part of the magnitude, or half of the least step. -/
theorem abs_nearest_sub_le (hq : 0 ≤ q) : |nearest q - q| ≤ q / 2 ^ 53 + leastStep / 2 := by
  have step := leastStep_pos
  rcases hq.eq_or_lt with rfl | pos
  · simpa using (half_pos step).le
  · refine (abs_nearest_sub_le_grid hq).trans ?_
    have part : 0 ≤ q / 2 ^ 53 := by positivity
    rcases half_grid_le pos with h | h
    · linarith
    · rw [h, ← leastStep]
      linarith

/-- What rounding changes is a small part of a magnitude that is not near zero. -/
theorem abs_nearest_sub_le_part (h : 2 ^ 52 * leastStep ≤ q) : |nearest q - q| ≤ q / 2 ^ 53 := by
  have pos : 0 < q := lt_of_lt_of_le (mul_pos (by positivity) leastStep_pos) h
  refine (abs_nearest_sub_le_grid pos.le).trans ?_
  -- on the finest grid as well the magnitude has all its digits
  rcases half_grid_le pos with grid | grid
  · exact grid
  · rw [grid, ← leastStep, le_div_iff₀ (by positivity)]
    calc leastStep / 2 * 2 ^ 53 = 2 ^ 52 * leastStep := by ring
      _ ≤ q := h

/-! ### Doubles and the magnitudes that are rounded to them -/

/-- A mantissa and exponent with as many digits as the exponent leaves, however great. -/
structure Regular (m : ℕ) (e : ℤ) : Prop where
  pos : 0 < m
  lt : m < 2 ^ 53
  exponent_ge : -1074 ≤ e
  full : 2 ^ 52 ≤ m ∨ e = -1074

/-- The mantissas and exponents of finite doubles other than zero. -/
structure Canonical (m : ℕ) (e : ℤ) : Prop extends Regular m e where
  exponent_le : e ≤ 971

namespace Regular

theorem value_pos (h : Regular m e) : (0 : ℚ) < m * 2 ^ e :=
  mul_pos (by exact_mod_cast h.pos) (two_zpow_pos e)

/-- The exponent is that of the grid of the value. -/
theorem gridExponent (h : Regular m e) : gridExponent ((m : ℚ) * 2 ^ e) = e := by
  have step := two_zpow_pos e
  refine gridExponent_eq h.value_pos h.exponent_ge ?_ (h.full.imp_left ?_)
  · exact mul_lt_mul_of_pos_right (by exact_mod_cast h.lt) step
  · intro full
    exact mul_le_mul_of_nonneg_right (by exact_mod_cast full) step.le

/-- No value has two mantissas. -/
theorem unique {n : ℕ} {f : ℤ} (h : Regular m e) (k : Regular n f)
    (same : (m : ℚ) * 2 ^ e = n * 2 ^ f) : m = n ∧ e = f := by
  have exponent : e = f := by rw [← h.gridExponent, same, k.gridExponent]
  subst exponent
  exact ⟨by exact_mod_cast mul_right_cancel₀ (two_zpow_pos e).ne' same, rfl⟩

end Regular

/-- The least power of two that is above all doubles. -/
def overflow : ℚ := 2 ^ (1024 : ℤ)

theorem overflow_pos : 0 < overflow := two_zpow_pos 1024

/-- The overflow follows the greatest mantissa on the last grid. -/
theorem overflow_eq : overflow = 2 ^ 53 * 2 ^ (971 : ℤ) := by
  rw [two_pow_mul_two_zpow, overflow]
  norm_num

/-- A magnitude less than half a step away from the overflow is not rounded to it. -/
theorem nearest_lt_overflow (hq : 0 ≤ q) (low : q < (2 ^ 53 - 1 / 2) * 2 ^ (971 : ℤ)) :
    nearest q < overflow := by
  have step := two_zpow_pos 971
  rw [overflow_eq]
  rcases hq.eq_or_lt with zero | pos
  · rw [← zero, nearest_zero]
    exact mul_pos (by norm_num) step
  · -- half a step of the greatest grid does not reach the overflow
    have high : q < 2 ^ 53 * 2 ^ (971 : ℤ) :=
      low.trans (mul_lt_mul_of_pos_right (by norm_num) step)
    have close := (abs_le.mp (abs_nearest_sub_le_grid hq)).2
    have grid : gridExponent q ≤ 971 := gridExponent_le pos (by norm_num) high
    have fine : (2 : ℚ) ^ gridExponent q ≤ 2 ^ (971 : ℤ) := zpow_le_zpow_right₀ one_le_two grid
    generalize (2 : ℚ) ^ (971 : ℤ) = top at *
    linarith

/-- A magnitude well below the overflow. -/
theorem nearest_lt_overflow_of_le (hq : 0 ≤ q) (low : q ≤ 3 * 2 ^ (1022 : ℤ)) :
    nearest q < overflow := by
  apply nearest_lt_overflow hq
  have exponent : (2 : ℚ) ^ (1022 : ℤ) = 2 ^ 51 * 2 ^ (971 : ℤ) := by
    rw [two_pow_mul_two_zpow]
    norm_num
  have step := two_zpow_pos 971
  rw [exponent] at low
  -- the powers themselves are too great to be computed with
  clear exponent
  generalize (2 : ℚ) ^ (971 : ℤ) = top at *
  linarith

/-- A magnitude from the overflow on stays there. -/
theorem overflow_le_nearest (h : overflow ≤ q) : overflow ≤ nearest q := by
  have whole : overflow = 2 ^ 52 * 2 ^ (972 : ℤ) := by
    rw [two_pow_mul_two_zpow, overflow]
    norm_num
  have grid : 972 ≤ gridExponent q := le_gridExponent (whole ▸ h)
  have pos : 0 < q := overflow_pos.trans_le h
  -- the mantissa keeps all its digits
  have full : 2 ^ 52 ≤ roundEven (q / 2 ^ gridExponent q) := by
    apply le_roundEven
    rw [le_div_iff₀ (two_zpow_pos _)]
    exact_mod_cast two_pow_mul_grid_le pos (by omega)
  have full : (2 : ℚ) ^ 52 ≤ roundEven (q / 2 ^ gridExponent q) := by exact_mod_cast full
  rw [whole, nearest]
  exact mul_le_mul full (zpow_le_zpow_right₀ one_le_two grid) (two_zpow_pos 972).le
    (Nat.cast_nonneg _)

/-- Below the overflow the exponent is that of a double. -/
theorem Regular.canonical (h : Regular m e) (fits : (m : ℚ) * 2 ^ e < overflow) :
    Canonical m e := by
  refine ⟨h, ?_⟩
  -- above the greatest exponent a full mantissa makes at least the overflow
  by_contra great
  have full : (2 : ℚ) ^ 52 ≤ m := by exact_mod_cast h.full.resolve_right (by omega)
  have step : (2 : ℚ) ^ (972 : ℤ) ≤ 2 ^ e := zpow_le_zpow_right₀ one_le_two (by omega)
  have : (2 : ℚ) ^ 52 * 2 ^ (972 : ℤ) ≤ m * 2 ^ e :=
    mul_le_mul full step (two_zpow_pos _).le m.cast_nonneg
  rw [two_pow_mul_two_zpow] at this
  exact absurd fits (not_lt.mpr this)

namespace Canonical

/-- The double below is only half a step away: the mantissa is the least that leaves 53 digits. -/
def IsNarrow (m : ℕ) (e : ℤ) : Prop := m = 2 ^ 52 ∧ -1074 < e

instance (m : ℕ) (e : ℤ) : Decidable (IsNarrow m e) := inferInstanceAs (Decidable (_ ∧ _))

/-- The magnitudes that are rounded to `m * 2 ^ e`. They reach half a step to either side, half as
far down from a narrow mantissa, and the ends count if the mantissa is even. -/
structure Rounds (m : ℕ) (e : ℤ) (q : ℚ) : Prop where
  low : ((m : ℚ) - if IsNarrow m e then 1 / 4 else 1 / 2) * 2 ^ e ≤ q
  high : q ≤ ((m : ℚ) + 1 / 2) * 2 ^ e
  ends : m % 2 = 1 →
    ((m : ℚ) - if IsNarrow m e then 1 / 4 else 1 / 2) * 2 ^ e < q ∧ q < ((m : ℚ) + 1 / 2) * 2 ^ e

/-- A double and half a step are below the overflow. -/
theorem lt_overflow (h : Canonical m e) : ((m : ℚ) + 1 / 2) * 2 ^ e < overflow := by
  have digits : (m : ℚ) + 1 ≤ 2 ^ 53 := by exact_mod_cast h.lt
  have coarse : (2 : ℚ) ^ e ≤ 2 ^ (971 : ℤ) := zpow_le_zpow_right₀ one_le_two h.exponent_le
  rw [overflow_eq]
  calc ((m : ℚ) + 1 / 2) * 2 ^ e < 2 ^ 53 * 2 ^ e :=
        mul_lt_mul_of_pos_right (by linarith) (two_zpow_pos e)
    _ ≤ 2 ^ 53 * 2 ^ (971 : ℤ) := mul_le_mul_of_nonneg_left coarse (by norm_num)

/-- What has mantissa and exponent of a double is below the overflow. -/
theorem value_lt_overflow (h : Canonical m e) : (m : ℚ) * 2 ^ e < overflow := by
  refine (mul_le_mul_of_nonneg_right ?_ (two_zpow_pos e).le).trans_lt h.lt_overflow
  linarith

/-- Rounding on the grid of the double itself. -/
theorem nearest_eq_of_grid (pos : 0 < q) (grid : gridExponent q = e)
    (low : ((m : ℚ) - 1 / 2) * 2 ^ e ≤ q) (high : q ≤ ((m : ℚ) + 1 / 2) * 2 ^ e)
    (ends : m % 2 = 1 → ((m : ℚ) - 1 / 2) * 2 ^ e < q ∧ q < ((m : ℚ) + 1 / 2) * 2 ^ e) :
    nearest q = m * 2 ^ e := by
  have step := two_zpow_pos e
  have whole : roundEven (q / 2 ^ e) = m := by
    apply roundEven_eq (div_nonneg pos.le step.le)
    · rwa [le_div_iff₀ step]
    · rwa [div_le_iff₀ step]
    · intro odd
      rw [lt_div_iff₀ step, div_lt_iff₀ step]
      exact ends odd
  rw [nearest, grid, whole]

/-- Every magnitude in the span of a double is rounded to it. -/
theorem nearest_eq (h : Canonical m e) (hq : 0 < q) (span : Rounds m e q) :
    nearest q = m * 2 ^ e := by
  have step := two_zpow_pos e
  have size : (m : ℚ) + 1 ≤ 2 ^ 53 := by exact_mod_cast h.lt
  have high : q < 2 ^ 53 * 2 ^ e :=
    span.high.trans_lt (mul_lt_mul_of_pos_right (by linarith) step)
  have low := span.low
  have ends := span.ends
  by_cases inside : 2 ^ 52 * 2 ^ e ≤ q ∨ e = -1074
  · -- on its own grid a narrow double only has magnitudes above it
    have grid := gridExponent_eq hq h.exponent_ge high inside
    by_cases narrow : IsNarrow m e
    · have above : (2 : ℚ) ^ 52 * 2 ^ e ≤ q := inside.resolve_right narrow.2.ne'
      have cast : (m : ℚ) = 2 ^ 52 := by rw [narrow.1]; push_cast; rfl
      refine nearest_eq_of_grid hq grid ?_ span.high fun odd => ?_
      · rw [cast]
        nlinarith
      · rw [narrow.1] at odd
        norm_num at odd
    · rw [if_neg narrow] at low ends
      exact nearest_eq_of_grid hq grid low span.high ends
  · -- below a narrow double the grid is twice as fine
    rw [not_or, not_le] at inside
    have fine : (2 : ℚ) ^ e = 2 * 2 ^ (e - 1) := by rw [← two_zpow_succ, sub_add_cancel]
    have step' := two_zpow_pos (e - 1)
    have narrow : IsNarrow m e := by
      refine ⟨?_, lt_of_le_of_ne h.exponent_ge (Ne.symm inside.2)⟩
      have full := h.full.resolve_right inside.2
      by_contra other
      have more : (2 : ℚ) ^ 52 + 1 ≤ m := by exact_mod_cast Nat.lt_of_le_of_ne full (Ne.symm other)
      have half : (if IsNarrow m e then (1 : ℚ) / 4 else 1 / 2) ≤ 1 / 2 := by split <;> norm_num
      have : (2 : ℚ) ^ 52 * 2 ^ e ≤ q :=
        (mul_le_mul_of_nonneg_right (by linarith) step.le).trans low
      exact absurd inside.1 (not_lt.mpr this)
    have cast : (m : ℚ) = 2 ^ 52 := by rw [narrow.1]; push_cast; rfl
    rw [if_pos narrow, cast, fine] at low
    have below := inside.1
    rw [fine] at below
    have grid : gridExponent q = e - 1 := by
      apply gridExponent_eq hq (by have := narrow.2; omega)
      · linarith
      · exact .inl (by linarith)
    have even := nearest_eq_of_grid (m := 2 ^ 53) hq grid
      (by push_cast; linarith) (by push_cast; linarith) (by norm_num)
    rw [even, cast, fine]
    push_cast
    ring

end Canonical

end DeadReckoning.Binary64
