import DeadReckoning.Json.Layout
import DeadReckoning.Proofs.Decimal.Digits
import DeadReckoning.Proofs.Decimal.Shortest
import DeadReckoning.Proofs.Json.Scale

namespace DeadReckoning

/-!
# Rereading — what becomes of a double that is written and read

The shortest decimal of a double is rounded to it, but the reader does not round the decimal: it
rounds the significand, the power of ten and what it makes of them. Most doubles come back all the
same, and the others hardly moved.

* `Json.gathered` — the significand and power of ten that the reader sees
* `Json.reread` — the double that it makes of them
* `Dyadic.Near` — how far it may be from the one that was written
* `Json.reread_spec` — it is no farther
* `Json.reread_eq_self` — a double of few digits comes back
-/

open Binary64

/-- A number with the sign of another one, null only if that is, and next to it. -/
structure Dyadic.Near (d d' : Dyadic) : Prop where
  negative : d'.negative = d.negative
  null : d'.mantissa = 0 ↔ d.mantissa = 0
  distance : |d'.magnitude - d.magnitude| ≤ d.magnitude / 2 ^ 49 + leastStep

namespace Json

variable {d : Dyadic} {x : Float}

/-- The significand and the power of ten that the reader gathers from a written double: the zero
after the point of a whole number is a digit like others. -/
def gathered (d : Dyadic) : Nat × Int :=
  let decimal := d.shortest numberLayout.tie
  if (d.mantissa == 0 || numberLayout.isPlain decimal.leadingPower) && 0 ≤ decimal.exponent then
    (decimal.coefficient * 10 ^ (decimal.exponent.toNat + 1), -1)
  else (decimal.coefficient, decimal.exponent)

/-- The double that is read where `x` was written. -/
def reread (x : Float) : Float :=
  match Dyadic.ofFloat? x with
  | some d =>
    match scaleByTen d.negative (gathered d).1 (gathered d).2 with
    | .ok y => y
    | .error _ => x
  | none => x

/-- The significand and the power of ten are doubles themselves. -/
structure HasFewDigits (d : Dyadic) : Prop where
  significand : (gathered d).1 < 2 ^ 53
  least : -22 ≤ (gathered d).2
  greatest : (gathered d).2 ≤ 22

/-! ### The decimal that is written -/

section
variable (h : Canonical d.mantissa d.exponent) (tie : Tie)
include h

/-- The shortest decimal is at most half a step away. -/
theorem abs_shortest_sub_le : |(d.shortest tie).value - d.magnitude| ≤ 2 ^ d.exponent / 2 := by
  obtain ⟨low, high, _⟩ := Dyadic.shortest_rounds h tie
  have step := two_zpow_pos d.exponent
  have side : (if Canonical.IsNarrow d.mantissa d.exponent then (1 : ℚ) / 4 else 1 / 2) ≤
      1 / 2 := by
    split <;> norm_num
  have low : ((d.mantissa : ℚ) - 1 / 2) * 2 ^ d.exponent ≤ (d.shortest tie).value :=
    (mul_le_mul_of_nonneg_right (by linarith) step.le).trans low
  rw [abs_le, Dyadic.magnitude]
  constructor <;> linarith

/-- No shortest decimal is below the least double. -/
theorem leastStep_le_shortest : leastStep ≤ (d.shortest tie).value := by
  have close := (abs_le.mp (abs_shortest_sub_le h tie)).1
  have fine : leastStep ≤ 2 ^ d.exponent := zpow_le_zpow_right₀ one_le_two h.exponent_ge
  rw [Dyadic.magnitude] at close
  by_cases more : 2 ≤ d.mantissa
  · have more : (2 : ℚ) ≤ d.mantissa := by exact_mod_cast more
    have step := two_zpow_pos d.exponent
    nlinarith
  · -- the least double of all is written as a greater number
    have one : d.mantissa = 1 := by have := h.pos; omega
    have least : d.exponent = -1074 := by
      refine h.full.resolve_left ?_
      rw [one]
      norm_num
    have written : d.shortest tie = ⟨5, -324⟩ := by
      have check : ∀ negative, Dyadic.shortest .even ⟨negative, 1, -1074⟩ = ⟨5, -324⟩ ∧
        Dyadic.shortest .up ⟨negative, 1, -1074⟩ = ⟨5, -324⟩ := by decide +kernel
      obtain ⟨negative, m, e⟩ := d
      dsimp only at one least
      subst one least
      cases tie
      · exact (check negative).1
      · exact (check negative).2
    rw [written]
    show (2 : ℚ) ^ (-1074 : ℤ) ≤ (5 : ℕ) * 10 ^ (-324 : ℤ)
    have whole : ∀ n < 325, 10 ^ n ≤ 5 * 2 ^ 1074 := by decide +kernel
    have power : (10 : ℚ) ^ 324 ≤ 5 * 2 ^ 1074 := by exact_mod_cast whole 324 (by norm_num)
    rw [zpow_neg, zpow_neg, ← div_eq_mul_inv, le_div_iff₀ (ten_zpow_pos 324),
      inv_mul_le_iff₀ (two_zpow_pos 1074), mul_comm]
    exact_mod_cast power

theorem shortest_value_pos : 0 < (d.shortest tie).value :=
  leastStep_pos.trans_le (leastStep_le_shortest h tie)

theorem shortest_coefficient_pos : 0 < (d.shortest tie).coefficient := by
  have positive := shortest_value_pos h tie
  rw [Decimal.value] at positive
  exact_mod_cast pos_of_mul_pos_left positive (ten_zpow_pos _).le

end

/-! ### The significand and the power of ten -/

/-- Significand and power of ten are those of the shortest decimal. -/
theorem gathered_value (d : Dyadic) :
    ((gathered d).1 : ℚ) * 10 ^ (gathered d).2 = (d.shortest numberLayout.tie).value := by
  unfold gathered
  dsimp only
  split
  · rename_i plain
    rw [Bool.and_eq_true, decide_eq_true_iff] at plain
    obtain ⟨n, power⟩ := Int.eq_ofNat_of_zero_le plain.2
    rw [Decimal.value, power, Int.toNat_natCast, zpow_neg_one, zpow_natCast]
    push_cast
    rw [pow_succ]
    field_simp
  · rfl

section
variable (h : Canonical d.mantissa d.exponent)
include h

theorem gathered_pos : 0 < (gathered d).1 := by
  have value_pos := shortest_value_pos h numberLayout.tie
  rw [← gathered_value] at value_pos
  exact_mod_cast pos_of_mul_pos_left value_pos (ten_zpow_pos _).le

/-- The reader keeps all digits. -/
theorem gathered_lt : (gathered d).1 < 2 ^ 64 := by
  have lt := Dyadic.shortest_coefficient_lt h numberLayout.tie
  unfold gathered
  dsimp only
  split
  · rename_i plain
    rw [Bool.and_eq_true, decide_eq_true_iff, Bool.or_eq_true] at plain
    obtain ⟨small | small, whole⟩ := plain
    · exact absurd (by simpa using small) h.pos.ne'
    · -- below ten quadrillion there are seventeen digits with the one after the point
      have few : (d.shortest numberLayout.tie).leadingPower < 16 := by
        simp only [numberLayout, Bool.and_eq_true, decide_eq_true_iff] at small
        exact small.2
      rw [Decimal.leadingPower] at few
      generalize d.shortest numberLayout.tie = decimal at *
      calc decimal.coefficient * 10 ^ (decimal.exponent.toNat + 1)
          < 10 ^ (digits decimal.coefficient).length * 10 ^ (decimal.exponent.toNat + 1) :=
            Nat.mul_lt_mul_of_pos_right (lt_ten_pow_length _) (Nat.pow_pos (by norm_num))
        _ = 10 ^ ((digits decimal.coefficient).length + (decimal.exponent.toNat + 1)) :=
            (pow_add _ _ _).symm
        _ ≤ 10 ^ 17 := Nat.pow_le_pow_right (by norm_num) (by omega)
        _ < 2 ^ 64 := by norm_num
  · exact lt.trans (by norm_num)

/-- The power of ten is in the range that is divided by and multiplied with. -/
theorem gathered_power : -616 ≤ (gathered d).2 ∧ (gathered d).2 ≤ 308 := by
  have one_le : (1 : ℚ) ≤ (gathered d).1 := by exact_mod_cast gathered_pos h
  have lt : ((gathered d).1 : ℚ) ≤ 2 ^ 64 := by exact_mod_cast (gathered_lt h).le
  have low := leastStep_le_shortest h numberLayout.tie
  have high := (Dyadic.shortest_rounds h numberLayout.tie).high
  rw [← gathered_value] at low high
  have power := ten_zpow_pos (gathered d).2
  constructor
  · -- below, the significand makes up for sixty-four binary digits at most
    have whole : (10 : ℚ) ^ (-616 : ℤ) ≤ 2 ^ (-1138 : ℤ) := by
      apply Dyadic.ten_zpow_le_two_zpow
      decide +kernel
    have least : (2 : ℚ) ^ (-1138 : ℤ) ≤ 10 ^ (gathered d).2 := by
      have split : leastStep = 2 ^ 64 * 2 ^ (-1138 : ℤ) := by
        rw [two_pow_mul_two_zpow, leastStep]
        norm_num
      rw [split] at low
      have scaled := low.trans (mul_le_mul_of_nonneg_right lt power.le)
      exact le_of_mul_le_mul_left scaled (by norm_num)
    exact (zpow_le_zpow_iff_right₀ (by norm_num)).mp (whole.trans least)
  · have top : (2 : ℚ) ^ (1024 : ℤ) ≤ 10 ^ (309 : ℤ) := by
      apply Dyadic.two_zpow_le_ten_zpow
      decide +kernel
    have most : (10 : ℚ) ^ (gathered d).2 < 2 ^ (1024 : ℤ) := by
      calc (10 : ℚ) ^ (gathered d).2 ≤ (gathered d).1 * 10 ^ (gathered d).2 :=
            le_mul_of_one_le_left power.le one_le
        _ ≤ (d.mantissa + 1 / 2) * 2 ^ d.exponent := high
        _ < 2 ^ (1024 : ℤ) := h.lt_overflow
    have less := (zpow_lt_zpow_iff_right₀ (by norm_num)).mp (most.trans_le top)
    omega

/-! ### The double that is read -/

/-- The reader rounds a magnitude close to the shortest decimal. -/
theorem close_shortest : Close 9 (unrounded (gathered d).1 (gathered d).2)
    (d.shortest numberLayout.tie).value := by
  rw [← gathered_value]
  exact unrounded_close (gathered_pos h) _

/-- The reader arrives at that magnitude unless it is beyond the doubles. -/
theorem scale_gathered
    (fits : nearest (unrounded (gathered d).1 (gathered d).2) < overflow) :
    ∃ y d', scaleByTen d.negative (gathered d).1 (gathered d).2 = .ok y ∧ Unpacks y d' ∧
      d'.negative = d.negative ∧
      d'.magnitude = nearest (unrounded (gathered d).1 (gathered d).2) := by
  obtain ⟨least, greatest⟩ := gathered_power h
  obtain ⟨y, read, isNearest⟩ := scaleByTen_eq d.negative (gathered_pos h) (gathered_lt h) least
    greatest fits
  obtain ⟨d', unpacks, sign, magnitude⟩ := isNearest.unpacks_withSign d.negative
  exact ⟨_, d', read, unpacks, sign, magnitude⟩

/-- What is read is next to what was written. -/
theorem abs_nearest_unrounded_sub_le :
    |nearest (unrounded (gathered d).1 (gathered d).2) - d.magnitude| ≤
      d.magnitude / 2 ^ 49 + leastStep := by
  obtain ⟨low, high⟩ := close_shortest h
  have written := abs_shortest_sub_le h numberLayout.tie
  have value_pos := shortest_value_pos h numberLayout.tie
  have z_pos := (close_shortest h).pos value_pos
  have rounded := abs_nearest_sub_le z_pos.le
  generalize unrounded (gathered d).1 (gathered d).2 = z at *
  generalize (d.shortest numberLayout.tie).value = D at *
  -- nine roundings, the distance of the decimal and the last rounding together
  have errors : ratio ^ 9 ≤ 1 + 91 / 10 / 2 ^ 53 := by norm_num [ratio]
  have low : D ≤ z * (1 + 91 / 10 / 2 ^ 53) :=
    low.trans (mul_le_mul_of_nonneg_left errors z_pos.le)
  have high : z ≤ D * (1 + 91 / 10 / 2 ^ 53) :=
    high.trans (mul_le_mul_of_nonneg_left errors value_pos.le)
  have step_pos := leastStep_pos
  rcases h.full with full | least
  · -- half a step is a part of a double with all its digits
    have part : 2 ^ d.exponent / 2 ≤ d.magnitude / 2 ^ 53 := by
      have full : (2 : ℚ) ^ 52 ≤ d.mantissa := by exact_mod_cast full
      have scaled := mul_le_mul_of_nonneg_right full (two_zpow_pos d.exponent).le
      rw [Dyadic.magnitude]
      linarith
    have written := abs_le.mp (written.trans part)
    have rounded := abs_le.mp rounded
    rw [abs_le]
    constructor <;> linarith
  · -- near zero a step is the least one
    have whole : leastStep ≤ d.magnitude := by
      have one_le : (1 : ℚ) ≤ d.mantissa := by exact_mod_cast h.pos
      rw [Dyadic.magnitude, least]
      exact le_mul_of_one_le_left step_pos.le one_le
    rw [least] at written
    have written : |D - d.magnitude| ≤ leastStep / 2 := written
    have written := abs_le.mp written
    have rounded := abs_le.mp rounded
    rw [abs_le]
    constructor <;> linarith

/-- Nothing that is written is read as zero. -/
theorem nearest_unrounded_pos : 0 < nearest (unrounded (gathered d).1 (gathered d).2) := by
  obtain ⟨low, _⟩ := close_shortest h
  have least := leastStep_le_shortest h numberLayout.tie
  have z_pos := (close_shortest h).pos (leastStep_pos.trans_le least)
  have rounded := (abs_le.mp (abs_nearest_sub_le z_pos.le)).1
  generalize unrounded (gathered d).1 (gathered d).2 = z at *
  have errors : ratio ^ 9 ≤ 1 + 91 / 10 / 2 ^ 53 := by norm_num [ratio]
  have low : leastStep ≤ z * (1 + 91 / 10 / 2 ^ 53) :=
    least.trans (low.trans (mul_le_mul_of_nonneg_left errors z_pos.le))
  have step_pos := leastStep_pos
  linarith

/-- The three doubles before the overflow. -/
def IsTop (m : ℕ) (e : ℤ) : Prop := e = 971 ∧ 2 ^ 53 ≤ m + 3

/-- Below them nothing is read beyond the doubles. -/
theorem nearest_unrounded_lt_overflow (low : ¬IsTop d.mantissa d.exponent) :
    nearest (unrounded (gathered d).1 (gathered d).2) < overflow := by
  have value_pos := shortest_value_pos h numberLayout.tie
  -- there is room for the two errors of a product
  have bound : (d.shortest numberLayout.tie).value ≤ (2 ^ 53 - 7 / 2) * 2 ^ (971 : ℤ) := by
    refine (Dyadic.shortest_rounds h numberLayout.tie).high.trans ?_
    have step := two_zpow_pos 971
    have greatest := h.exponent_le
    by_cases top : d.exponent = 971
    · have lower : d.mantissa + 4 ≤ 2 ^ 53 := by
        unfold IsTop at low
        omega
      have lower : (d.mantissa : ℚ) + 4 ≤ 2 ^ 53 := by exact_mod_cast lower
      rw [top]
      exact mul_le_mul_of_nonneg_right (by linarith) step.le
    · have digits : (d.mantissa : ℚ) + 1 ≤ 2 ^ 53 := by exact_mod_cast h.lt
      have half : (2 : ℚ) ^ d.exponent ≤ 2 ^ (971 : ℤ) / 2 := by
        have double : (2 : ℚ) * 2 ^ d.exponent ≤ 2 ^ (971 : ℤ) := by
          rw [← two_zpow_succ]
          exact zpow_le_zpow_right₀ one_le_two (by omega)
        linarith
      calc ((d.mantissa : ℚ) + 1 / 2) * 2 ^ d.exponent
          ≤ 2 ^ 53 * (2 ^ (971 : ℤ) / 2) :=
            mul_le_mul (by linarith) half (two_zpow_pos _).le (by norm_num)
        _ ≤ (2 ^ 53 - 7 / 2) * 2 ^ (971 : ℤ) := by
            generalize (2 : ℚ) ^ (971 : ℤ) = top at *
            linarith
  have small : ((gathered d).1 : ℚ) ≤ 2 ^ 64 := by exact_mod_cast (gathered_lt h).le
  -- a quotient is no greater than its dividend, which has 64 bits
  rcases Int.lt_or_le (gathered d).2 0 with down | up
  · refine nearest_lt_of_close (close_shortest h) value_pos ?_ le_rfl
    rw [← gathered_value]
    refine (mul_le_of_le_one_right (Nat.cast_nonneg _) ?_).trans small
    exact zpow_le_one_of_nonpos₀ (by norm_num) down.le
  · have close := close_of_nonneg (gathered_pos h) up
    rw [gathered_value] at close
    apply nearest_lt_overflow (close.pos value_pos).le
    calc unrounded (gathered d).1 (gathered d).2
        ≤ (d.shortest numberLayout.tie).value * ratio ^ 2 := close.high
      _ ≤ (2 ^ 53 - 7 / 2) * 2 ^ (971 : ℤ) * ratio ^ 2 :=
          mul_le_mul_of_nonneg_right bound (ratio_pow_pos 2).le
      _ = (2 ^ 53 - 7 / 2) * ratio ^ 2 * 2 ^ (971 : ℤ) := by ring
      _ < (2 ^ 53 - 1 / 2) * 2 ^ (971 : ℤ) :=
          mul_lt_mul_of_pos_right (by norm_num [ratio]) (two_zpow_pos 971)

end

/-! ### Rereading -/

theorem gathered_zero (zero : d.mantissa = 0) : gathered d = (0, -1) := by
  simp [gathered, Dyadic.shortest, zero]

/-- A reading that was computed. -/
theorem read_of_check {negative : Bool} {s : ℕ} {k : ℤ} {d' : Dyadic}
    (check : (scaleByTen negative s k).toOption.bind Dyadic.ofFloat? = some d') :
    ∃ y, scaleByTen negative s k = .ok y ∧ Unpacks y d' := by
  cases read : scaleByTen negative s k with
  | error fault =>
    rw [read] at check
    cases check
  | ok y =>
    rw [read] at check
    exact ⟨y, rfl, unpacks_iff.mpr check⟩

/-- Zeros are read with their sign. -/
theorem read_zero (negative : Bool) :
    ∃ y, scaleByTen negative 0 (-1) = .ok y ∧ Unpacks y ⟨negative, 0, 0⟩ := by
  have check : ∀ negative, (scaleByTen negative 0 (-1)).toOption.bind Dyadic.ofFloat? =
      some ⟨negative, 0, 0⟩ := by
    decide +kernel
  exact read_of_check (check negative)

/-- The three greatest doubles are read as doubles: what the reader makes of them is computed. -/
theorem read_top (negative : Bool) {m : ℕ} (great : 2 ^ 53 ≤ m + 3) (lt : m < 2 ^ 53) :
    let d : Dyadic := ⟨negative, m, 971⟩
    ∃ y n, scaleByTen negative (gathered d).1 (gathered d).2 = .ok y ∧
      Unpacks y ⟨negative, n, 971⟩ ∧ m ≤ n ∧ n ≤ m + 1 := by
  -- there are six of them with their signs
  have check : ∀ negative, ∀ i < 3,
      let d : Dyadic := ⟨negative, 2 ^ 53 - 1 - i, 971⟩
      (scaleByTen negative (gathered d).1 (gathered d).2).toOption.bind Dyadic.ofFloat? =
        some ⟨negative, 2 ^ 53 - 1 - i / 2 * 2, 971⟩ := by
    decide +kernel
  obtain ⟨i, few, rfl⟩ : ∃ i < 3, m = 2 ^ 53 - 1 - i := ⟨2 ^ 53 - 1 - m, by omega, by omega⟩
  obtain ⟨y, read, unpacks⟩ := read_of_check (check negative i few)
  exact ⟨y, _, read, unpacks, by omega, by omega⟩

/-- The reader makes a double of what was written for a double, and hardly moves it. -/
theorem exists_read (hx : Unpacks x d) :
    ∃ y d', scaleByTen d.negative (gathered d).1 (gathered d).2 = .ok y ∧ Unpacks y d' ∧
      d.Near d' := by
  -- zeros and the three greatest doubles are computed, all others follow from the errors
  rcases Nat.eq_zero_or_pos d.mantissa with zero | pos
  · have isZero : d = ⟨d.negative, 0, 0⟩ := by
      cases hx with
      | zero => rfl
      | @finite s m e pos h => exact absurd zero pos.ne'
    obtain ⟨y, read, unpacks⟩ := read_zero d.negative
    rw [gathered_zero zero]
    refine ⟨y, _, read, unpacks, rfl, ?_, ?_⟩
    · rw [isZero]
    · rw [isZero]
      simpa [Dyadic.magnitude] using leastStep_pos.le
  · have h := hx.canonical pos
    by_cases top : IsTop d.mantissa d.exponent
    · obtain ⟨exponent, great⟩ := top
      obtain ⟨y, n, read, unpacks, le, few⟩ := read_top d.negative great h.lt
      rw [← exponent] at read unpacks
      refine ⟨y, _, read, unpacks, rfl, ?_, ?_⟩
      · dsimp only
        omega
      · have full : (2 : ℚ) ^ 52 ≤ d.mantissa := by exact_mod_cast (by omega : 2 ^ 52 ≤ d.mantissa)
        have le : (d.mantissa : ℚ) ≤ n := by exact_mod_cast le
        have few : (n : ℚ) ≤ d.mantissa + 1 := by exact_mod_cast few
        have step := two_zpow_pos d.exponent
        have part := mul_le_mul_of_nonneg_right full step.le
        have least := leastStep_pos
        have apart : ((n : ℚ) - d.mantissa) * 2 ^ d.exponent ≤ 1 * 2 ^ d.exponent :=
          mul_le_mul_of_nonneg_right (by linarith) step.le
        simp only [Dyadic.magnitude]
        rw [← sub_mul, abs_mul, abs_of_pos step, abs_of_nonneg (by linarith)]
        linarith
    · obtain ⟨y, d', read, unpacks, sign, magnitude⟩ :=
        scale_gathered h (nearest_unrounded_lt_overflow h top)
      refine ⟨y, d', read, unpacks, sign, ?_, ?_⟩
      · rw [unpacks.mantissa_eq_zero_iff, magnitude]
        have above := nearest_unrounded_pos h
        exact ⟨fun zero => absurd zero above.ne', fun zero => absurd zero pos.ne'⟩
      · rw [magnitude]
        exact abs_nearest_unrounded_sub_le h

/-- All digits that are gathered fit 64 bits. -/
theorem gathered_lt_size (hx : Unpacks x d) : (gathered d).1 < UInt64.size := by
  rcases Nat.eq_zero_or_pos d.mantissa with zero | pos
  · rw [gathered_zero zero]
    decide
  · exact gathered_lt (hx.canonical pos)

/-- What is read where a double was written. -/
theorem reread_spec (hx : Unpacks x d) :
    scaleByTen d.negative (gathered d).1 (gathered d).2 = .ok (reread x) ∧
      ∃ d', Unpacks (reread x) d' ∧ d.Near d' := by
  obtain ⟨y, d', read, unpacks, near⟩ := exists_read hx
  have isRead : reread x = y := by
    unfold reread
    rw [unpacks_iff.mp hx]
    dsimp only
    rw [read]
  rw [isRead]
  exact ⟨read, d', unpacks, near⟩

/-- A double comes back if its digits are few. -/
theorem reread_eq_self (hx : Unpacks x d) (few : HasFewDigits d) : reread x = x := by
  obtain ⟨few, least, greatest⟩ := few
  rcases Nat.eq_zero_or_pos d.mantissa with zero | pos
  · obtain ⟨_, d', unpacks, near⟩ := reread_spec hx
    refine unpacks.eq_of_magnitude hx near.negative ?_
    rw [hx.mantissa_eq_zero_iff.mp zero, unpacks.mantissa_eq_zero_iff.mp (near.null.mpr zero)]
  · have h := hx.canonical pos
    have value_pos := shortest_value_pos h numberLayout.tie
    -- only the last rounding is left, and it is the one that the decimal was chosen for
    have isNearest : nearest (unrounded (gathered d).1 (gathered d).2) = d.magnitude := by
      rw [unrounded_eq few least greatest, gathered_value]
      exact h.nearest_eq value_pos (Dyadic.shortest_rounds h numberLayout.tie)
    have fits : d.magnitude < overflow := by
      refine lt_of_le_of_lt ?_ h.lt_overflow
      exact mul_le_mul_of_nonneg_right (by linarith) (two_zpow_pos _).le
    obtain ⟨y, d', read, unpacks, sign, magnitude⟩ := scale_gathered h (isNearest.trans_lt fits)
    have isRead : y = reread x := by
      rw [(reread_spec hx).1] at read
      exact (Except.ok.inj read).symm
    rw [isRead] at unpacks
    exact unpacks.eq_of_magnitude hx sign (magnitude.trans isNearest)

end Json

end DeadReckoning
