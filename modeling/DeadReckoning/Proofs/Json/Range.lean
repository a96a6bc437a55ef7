import DeadReckoning.Proofs.Json.Numerals

namespace DeadReckoning.Json

/-!
# Numbers — which ones are beyond the doubles

The reader does not look at the number that a numeral stands for, but at what it gathers, and
refuses a product of significand and power of ten that overflows. What it gathers is close to the
number, so that the limit is known up to a few roundings: of the numerals of at most two billion
characters it refuses none up to `10 ^ 308`, and all from twice of that on.

* `isSome_scaleByTen_iff` — which significands and powers of ten are refused
* `exists_gather` — what is gathered from digits, and what is left
* `gathered_close` — significand and power of ten are close to the number
* `Numeral.magnitude` — the number that a numeral stands for, without its sign
* `Numeral.isInRange_of_le`, `Numeral.not_isInRange_of_le` — the limit of what is read
-/

open Binary64

variable {negative : Bool} {s : ℕ} {k : ℤ} {q : ℚ} {ds es : List Char}

/-! ### Products beyond the doubles -/

/-- A significand is null as a double only if it is null. -/
theorem beq_significand (lt : s < 2 ^ 64) : ((UInt64.ofNat s).toFloat == 0.0) = (s == 0) := by
  rcases Nat.eq_zero_or_pos s with rfl | pos
  · decide +kernel
  · have one_le : (1 : ℚ) ≤ s := by exact_mod_cast pos
    rw [beq_zero (isMagnitude_significand lt) (nearest_pos one_le)]
    exact (beq_false_of_ne pos.ne').symm

/-- A significand and a power of ten are refused if their product is beyond the doubles, and at once
if the power is. -/
theorem isSome_scaleByTen_iff (lt : s < 2 ^ 64) :
    (scaleByTen negative s k).toOption.isSome ↔
      s = 0 ∨ k < 0 ∨ k ≤ 308 ∧ nearest (unrounded s k) < overflow := by
  unfold scaleByTen
  by_cases down : k < 0
  · rw [if_pos down]
    exact iff_of_true rfl (.inr (.inl down))
  rw [if_neg down]
  by_cases near : k ≤ 308
  · rw [if_pos near]
    have power : k.natAbs = k.toNat := by omega
    have factor : IsMagnitude (powerOfTen k.natAbs) (nearest (10 ^ k.toNat)) := by
      rw [power]
      exact isMagnitude_powerOfTen (by omega)
    -- powers that are in the table are multiplied with
    have product : unrounded s k = nearest s * nearest (10 ^ k.toNat) := if_pos (by omega)
    rw [product]
    by_cases fits : nearest (nearest s * nearest (10 ^ k.toNat)) < overflow
    · have finite := isInf_eq_false ((isMagnitude_significand lt).mul factor fits)
      simp only [finite, Bool.false_eq_true, if_false]
      exact iff_of_true rfl (.inr (.inr ⟨near, fits⟩))
    · have infinite := (isMagnitude_significand lt).isInf_mul factor (not_lt.mp fits)
      simp only [infinite, if_true]
      refine iff_of_false Bool.false_ne_true ?_
      rintro (rfl | negative | ⟨-, below⟩)
      · rw [Nat.cast_zero, nearest_zero, zero_mul, nearest_zero] at fits
        exact fits overflow_pos
      · exact down negative
      · exact fits below
  · rw [if_neg near]
    simp only [beq_significand lt]
    by_cases zero : s = 0
    · rw [if_pos (beq_iff_eq.mpr zero)]
      exact iff_of_true rfl (.inl zero)
    · rw [if_neg (by simpa using zero)]
      refine iff_of_false Bool.false_ne_true ?_
      -- beyond the table of powers only a zero is accepted
      rintro (isZero | negative | ⟨far, -⟩)
      · exact zero isZero
      · exact down negative
      · exact near far

/-- The greatest power of ten among the doubles, and its double beyond them, with some room for
errors. -/
theorem top_bounds : (11 : ℚ) * 10 ^ 308 ≤ 30 * 2 ^ (1022 : ℤ) ∧ 11 * overflow ≤ 20 * 10 ^ 308 := by
  have whole : ∀ n < 309, 308 ≤ n → 11 * 10 ^ n ≤ 30 * 2 ^ 1022 ∧ 11 * 2 ^ 1024 ≤ 20 * 10 ^ n := by
    decide +kernel
  obtain ⟨below, above⟩ := whole 308 (by norm_num) le_rfl
  rw [overflow, zpow_ofNat, zpow_ofNat]
  exact ⟨by exact_mod_cast below, by exact_mod_cast above⟩

theorem ratio_pow_three_le : ratio ^ 3 ≤ 11 / 10 := by norm_num [ratio]

/-- A number up to `10 ^ 308` is not refused, even if it is gathered with an error. -/
theorem isSome_scaleByTen_of_le (lt : s < 2 ^ 64) (close : Close 1 (s * 10 ^ k) q)
    (le : q ≤ 10 ^ 308) : (scaleByTen negative s k).toOption.isSome := by
  rw [isSome_scaleByTen_iff lt]
  by_cases zero : s = 0
  · exact .inl zero
  by_cases down : k < 0
  · exact .inr (.inl down)
  have one_le : (1 : ℚ) ≤ s := by exact_mod_cast Nat.pos_of_ne_zero zero
  have exact := close_of_nonneg (Nat.pos_of_ne_zero zero) (not_lt.mp down)
  have ratio_le : ratio ≤ 2 := by norm_num [ratio]
  have three := ratio_pow_three_le
  refine .inr (.inr ⟨?_, ?_⟩)
  · -- the power alone would be ten times as great
    by_contra far
    have power : (10 : ℚ) ^ (309 : ℤ) ≤ 10 ^ k := zpow_le_zpow_right₀ (by norm_num) (by omega)
    have split : (10 : ℚ) ^ (309 : ℤ) = 10 * 10 ^ 308 := by rw [zpow_ofNat, pow_succ']
    have high := close.high
    have ten_pos : (0 : ℚ) < 10 ^ 308 := by positivity
    rw [pow_one] at high
    rw [split] at power
    clear split
    generalize (10 : ℚ) ^ 308 = top at *
    have : 10 * top ≤ top * 2 := by
      calc 10 * top ≤ 1 * 10 ^ k := by rwa [one_mul]
        _ ≤ s * 10 ^ k := mul_le_mul_of_nonneg_right one_le (ten_zpow_pos k).le
        _ ≤ q * ratio := high
        _ ≤ top * 2 := mul_le_mul le ratio_le (zero_lt_one.trans one_lt_ratio).le ten_pos.le
    linarith
  · have pos := exact.pos (mul_pos (zero_lt_one.trans_le one_le) (ten_zpow_pos k))
    have high := (exact.trans close).high
    have room := top_bounds.1
    apply nearest_lt_overflow_of_le pos.le
    have ten_pos : (0 : ℚ) < 10 ^ 308 := by positivity
    generalize (10 : ℚ) ^ 308 = top at *
    calc unrounded s k ≤ q * ratio ^ 3 := high
      _ ≤ top * (11 / 10) := mul_le_mul le three (ratio_pow_pos 3).le ten_pos.le
      _ ≤ 3 * 2 ^ (1022 : ℤ) := by linarith

/-- From twice of that on every number is refused. -/
theorem not_isSome_scaleByTen_of_le (lt : s < 2 ^ 64) (close : Close 1 (s * 10 ^ k) q)
    (le : 2 * 10 ^ 308 ≤ q) : ¬(scaleByTen negative s k).toOption.isSome := by
  have ten_pos : (0 : ℚ) < 10 ^ 308 := by positivity
  have pos : 0 < (s : ℚ) * 10 ^ k := close.pos ((mul_pos two_pos ten_pos).trans_le le)
  have s_pos : (0 : ℚ) < s := pos_of_mul_pos_left pos (ten_zpow_pos k).le
  have one_le : 1 ≤ s := by exact_mod_cast s_pos
  have up : 0 ≤ k := by
    -- a significand has twenty digits at most
    by_contra down
    have below : (s : ℚ) * 10 ^ k ≤ s :=
      mul_le_of_le_one_right s_pos.le (zpow_le_one_of_nonpos₀ (by norm_num) (by omega))
    have digits : (s : ℚ) ≤ 10 ^ 20 := by
      have small : (s : ℚ) ≤ 2 ^ 64 := by exact_mod_cast lt.le
      exact small.trans (by norm_num)
    have short : (10 : ℚ) ^ 20 ≤ 10 ^ 308 := pow_le_pow_right₀ (by norm_num) (by norm_num)
    have low := close.low
    have ratio_lt : ratio < 2 := by norm_num [ratio]
    rw [pow_one] at low
    generalize (10 : ℚ) ^ 308 = top at *
    nlinarith
  have exact := (close_of_nonneg one_le up).trans close
  rw [isSome_scaleByTen_iff lt]
  rintro (rfl | down | ⟨-, fits⟩)
  · exact absurd one_le (by norm_num)
  · exact absurd up (not_le.mpr down)
  · have low := exact.low
    have room := top_bounds.2
    have three := ratio_pow_three_le
    have unrounded_pos := exact.pos ((mul_pos two_pos ten_pos).trans_le le)
    refine absurd (overflow_le_nearest ?_) (not_le.mpr fits)
    generalize (10 : ℚ) ^ 308 = top at *
    have scaled : 2 * top ≤ unrounded s k * (11 / 10) :=
      (le.trans low).trans (mul_le_mul_of_nonneg_left three unrounded_pos.le)
    linarith

/-! ### What is gathered -/

/-- Digits behind the point leave the number in front of it. -/
theorem numeral_part_bounds (isDigit : ∀ c ∈ ds, c.isDigit) (n : ℕ) :
    (n : ℚ) ≤ numeral 10 digitValue n ds * 10 ^ (-(ds.length : ℤ)) ∧
      numeral 10 digitValue n ds * 10 ^ (-(ds.length : ℤ)) ≤ (n : ℚ) + 1 := by
  obtain ⟨low, high⟩ := numeral_bounds isDigit n
  have ten_pos : (0 : ℚ) < 10 ^ ds.length := by positivity
  rw [zpow_neg, zpow_natCast, ← div_eq_mul_inv]
  constructor
  · rw [le_div_iff₀ ten_pos]
    exact_mod_cast low
  · rw [div_le_iff₀ ten_pos]
    exact_mod_cast high.le

/-- Digits are gathered from the front, and what is left stands behind eighteen of them at least. -/
theorem exists_gather (isDigit : ∀ c ∈ ds, c.isDigit) (s taken : ℕ) :
    ∃ front, ds = front ++ (gather s taken ds).2.2 ∧
      (gather s taken ds).1 = numeral 10 digitValue s front ∧
      (gather s taken ds).2.1 = taken + front.length ∧
      ((gather s taken ds).2.2 = [] ∨ 10 ^ 18 ≤ (gather s taken ds).1) := by
  induction ds generalizing s taken with
  | nil => exact ⟨[], rfl, rfl, rfl, .inl rfl⟩
  | cons c ds ih =>
    have first := isDigit c List.mem_cons_self
    have others : ∀ d ∈ ds, d.isDigit := fun d mem => isDigit d (List.mem_cons_of_mem c mem)
    rw [gather]
    split
    · obtain ⟨front, split, gathered, count, full⟩ :=
        ih others (s * 10 + digitValue c) (taken + 1)
      refine ⟨c :: front, congrArg (c :: ·) split, gathered, ?_, full⟩
      rw [count, List.length_cons]
      omega
    · -- another digit does not fit into the word, so that eighteen of them were gathered at least
      rename_i full
      refine ⟨[], rfl, rfl, rfl, .inr ?_⟩
      have small := digitValue_le first
      rw [first, Bool.true_and, decide_eq_true_eq, UInt64.size] at full
      dsimp only
      omega

/-- What is gathered has 64 bits. -/
theorem gather_lt (lt : s < 2 ^ 64) (taken : ℕ) (ds : List Char) :
    (gather s taken ds).1 < 2 ^ 64 := by
  induction ds generalizing s taken with
  | nil => exact lt
  | cons c ds ih =>
    rw [gather]
    split
    · rename_i fits
      rw [Bool.and_eq_true, decide_eq_true_eq] at fits
      exact ih fits.2 (taken + 1)
    · exact lt

/-- What is gathered from the digits before and behind a point is close to the number. -/
theorem gathered_close (isDigit : ∀ c ∈ ds, c.isDigit) (isPlace : ∀ c ∈ es, c.isDigit) :
    let whole := gather 0 0 ds
    let places := gather whole.1 0 es
    Close 1 (places.1 * 10 ^ ((whole.2.2.length : ℤ) - places.2.1))
      (decimalNumeral (ds ++ es) * 10 ^ (-(es.length : ℤ))) := by
  dsimp only
  obtain ⟨front, split, gathered, -, full⟩ := exists_gather isDigit 0 0
  have leftDigit : ∀ c ∈ (gather 0 0 ds).2.2, c.isDigit := fun c mem =>
    isDigit c (mem_of_mem_gather 0 0 mem)
  generalize (gather 0 0 ds).1 = s at *
  generalize (gather 0 0 ds).2.2 = left at *
  have number : decimalNumeral (ds ++ es) = numeral 10 digitValue s (left ++ es) := by
    rw [decimalNumeral, split, List.append_assoc, numeral_append, ← gathered]
  rw [number]
  rcases full with none | large
  · -- all digits in front of the point were gathered, and so were the first ones behind it
    obtain ⟨front', split', gathered', count, full'⟩ := exists_gather isPlace s 0
    have leftDigit' : ∀ c ∈ (gather s 0 es).2.2, c.isDigit := fun c mem =>
      isPlace c (mem_of_mem_gather s 0 mem)
    generalize (gather s 0 es).1 = s' at *
    generalize (gather s 0 es).2.1 = taken at *
    generalize (gather s 0 es).2.2 = left' at *
    rw [none, List.nil_append, split', numeral_append, ← gathered', count, List.length_append]
    have front_power :
        (([] : List Char).length : ℤ) - (0 + front'.length : ℕ) = -front'.length := by simp
    have power : (10 : ℚ) ^ (-((front'.length + left'.length : ℕ) : ℤ)) =
        10 ^ (-(left'.length : ℤ)) * 10 ^ (-(front'.length : ℤ)) := by
      rw [← zpow_add₀ (by norm_num)]
      congr 1
      push_cast
      ring
    rw [front_power, power, ← mul_assoc]
    refine Close.scale ?_ (ten_zpow_pos _).le
    rcases full' with none | large
    · rw [none]
      have all :
          (s' : ℚ) = numeral 10 digitValue s' [] * 10 ^ (-(([] : List Char).length : ℤ)) := by
        simp [numeral]
      rw [← all]
      exact .refl s'.cast_nonneg
    · refine .of_front (c := s') (by exact_mod_cast large) ⟨le_rfl, ?_⟩
        (numeral_part_bounds leftDigit' s')
      linarith
  · -- digits in front of the point were left, behind all that matter
    obtain ⟨front', split', gathered', count, -⟩ := exists_gather isPlace s 0
    have frontDigit : ∀ c ∈ front', c.isDigit := fun c mem =>
      isPlace c (split' ▸ List.mem_append_left _ mem)
    have allDigit : ∀ c ∈ left ++ es, c.isDigit := fun c mem =>
      (List.mem_append.mp mem).elim (leftDigit c) (isPlace c)
    have front_power : (10 : ℚ) ^ ((left.length : ℤ) - (0 + front'.length : ℕ)) =
        10 ^ (-(front'.length : ℤ)) * 10 ^ (left.length : ℤ) := by
      rw [← zpow_add₀ (by norm_num)]
      congr 1
      push_cast
      ring
    have power : (10 : ℚ) ^ (-(es.length : ℤ)) =
        10 ^ (-((left ++ es).length : ℤ)) * 10 ^ (left.length : ℤ) := by
      rw [← zpow_add₀ (by norm_num), List.length_append]
      congr 1
      push_cast
      ring
    rw [gathered', count, front_power, power, ← mul_assoc, ← mul_assoc]
    exact (Close.of_front (by exact_mod_cast large) (numeral_part_bounds frontDigit s)
      (numeral_part_bounds allDigit s)).scale (ten_zpow_pos _).le

/-! ### The limit -/

namespace Exponent

/-- The power of ten that an exponent stands for. -/
def value (e : Exponent) : ℤ := if e.isDown then -e.magnitude else e.magnitude

/-- An exponent is added to a power of ten, or taken from it. -/
theorem add_value (e : Exponent) (k : ℤ) :
    k + e.value = if e.isDown then k - e.magnitude else k + e.magnitude := by
  unfold value
  split
  · rfl
  · rfl

end Exponent

/-- The power of ten of an exponent, if there is one. -/
def exponentValue : Option Exponent → ℤ
  | none => 0
  | some e => e.value

/-- A number that is gathered with an error is read up to `10 ^ 308`, unless its digits alone make
it too small for all exponents. -/
theorem isSome_scaled?_of_le (lt : s < 2 ^ 64) (close : Close 1 (s * 10 ^ k) q)
    (least : 0 < q → 10 ^ (-2 * 10 ^ 9 : ℤ) ≤ q) (e? : Option Exponent)
    (le : q * 10 ^ exponentValue e? ≤ 10 ^ 308) : (scaled? negative s k e?).isSome := by
  have scaled := close.scale (ten_zpow_pos (exponentValue e?)).le
  rw [mul_assoc, ← zpow_add₀ (by norm_num)] at scaled
  cases e? with
  | none =>
    rw [exponentValue, add_zero] at scaled
    exact isSome_scaleByTen_of_le lt scaled le
  | some e =>
    rw [exponentValue] at le scaled
    rw [scaled?]
    split
    · rw [← e.add_value]
      exact isSome_scaleByTen_of_le lt scaled le
    · rename_i great
      split
      · -- the significand is not null, and no digits can make up for such an exponent
        rename_i refused
        rw [Bool.and_eq_true, decide_eq_true_eq, Bool.not_eq_true'] at refused
        have s_pos : (0 : ℚ) < s := by exact_mod_cast Nat.pos_of_ne_zero refused.1
        have low := least (close.symm.pos (mul_pos s_pos (ten_zpow_pos k)))
        have up : e.value = e.magnitude := by rw [Exponent.value, refused.2]; rfl
        rw [greatestExponent, not_le] at great
        rw [up] at le
        have beyond : (10 : ℚ) ^ (309 : ℤ) ≤ 10 ^ (308 : ℤ) :=
          calc (10 : ℚ) ^ (309 : ℤ) ≤ 10 ^ (-2 * 10 ^ 9 + (e.magnitude : ℤ)) :=
                zpow_le_zpow_right₀ (by norm_num) (by omega)
            _ = 10 ^ (-2 * 10 ^ 9 : ℤ) * 10 ^ (e.magnitude : ℤ) := zpow_add₀ (by norm_num) _ _
            _ ≤ q * 10 ^ (e.magnitude : ℤ) :=
                mul_le_mul_of_nonneg_right low (ten_zpow_pos _).le
            _ ≤ 10 ^ (308 : ℤ) := le
        exact absurd ((zpow_le_zpow_iff_right₀ (by norm_num)).mp beyond) (by norm_num)
      · rfl

/-- From twice of that on it is refused, unless its digits alone make it too great for all
exponents. -/
theorem not_isSome_scaled?_of_le (lt : s < 2 ^ 64) (close : Close 1 (s * 10 ^ k) q)
    (greatest : q ≤ 10 ^ (2 * 10 ^ 9 : ℤ)) (e? : Option Exponent)
    (le : 2 * 10 ^ 308 ≤ q * 10 ^ exponentValue e?) : ¬(scaled? negative s k e?).isSome := by
  have scaled := close.scale (ten_zpow_pos (exponentValue e?)).le
  rw [mul_assoc, ← zpow_add₀ (by norm_num)] at scaled
  cases e? with
  | none =>
    rw [exponentValue, add_zero] at scaled
    exact not_isSome_scaleByTen_of_le lt scaled le
  | some e =>
    rw [exponentValue] at le scaled
    rw [scaled?]
    split
    · rw [← e.add_value]
      exact not_isSome_scaleByTen_of_le lt scaled le
    · rename_i great
      split
      · exact Bool.false_ne_true
      · -- nor can they make up for one that is as far below
        rename_i accepted
        have ten_pos : (0 : ℚ) < 10 ^ 308 := by positivity
        have pos := scaled.pos ((mul_pos two_pos ten_pos).trans_le le)
        have s_pos : (0 : ℚ) < s := pos_of_mul_pos_left pos (ten_zpow_pos _).le
        have s_ne : s ≠ 0 := by exact_mod_cast s_pos.ne'
        have isDown : e.isDown = true := by
          by_contra up
          exact accepted (by simp [s_ne, up])
        have down : e.value = -e.magnitude := by rw [Exponent.value, isDown]; rfl
        rw [greatestExponent, not_le] at great
        rw [down] at le
        have below : 2 * (10 : ℚ) ^ 308 ≤ 1 :=
          calc 2 * (10 : ℚ) ^ 308 ≤ q * 10 ^ (-(e.magnitude : ℤ)) := le
            _ ≤ 10 ^ (2 * 10 ^ 9 : ℤ) * 10 ^ (-(e.magnitude : ℤ)) :=
                mul_le_mul_of_nonneg_right greatest (ten_zpow_pos _).le
            _ = 10 ^ (2 * 10 ^ 9 + -(e.magnitude : ℤ)) := (zpow_add₀ (by norm_num) _ _).symm
            _ ≤ 1 := zpow_le_one_of_nonpos₀ (by norm_num) (by omega)
        have one_le := one_le_ten_pow 308
        generalize (10 : ℚ) ^ 308 = top at *
        linarith

namespace Numeral

/-- The digits behind the point. -/
def fraction (n : Numeral) : List Char := n.places.elim [] Digits.chars

/-- The number that a numeral stands for, without its sign and before all rounding. -/
def magnitude (n : Numeral) : ℚ :=
  decimalNumeral (n.whole ++ n.fraction) * 10 ^ (-(n.fraction.length : ℤ)) *
    10 ^ exponentValue n.exponent

theorem isDigit_fraction (n : Numeral) : ∀ c ∈ n.fraction, c.isDigit := by
  intro c mem
  unfold fraction at mem
  cases isPlaces : n.places with
  | none =>
    rw [isPlaces] at mem
    cases mem
  | some places =>
    rw [isPlaces] at mem
    exact places.isDigit c mem

/-- The digits of a numeral are part of its text. -/
theorem length_digits_le (n : Numeral) :
    n.whole.length + n.fraction.length ≤ n.write.length := by
  have places : n.fraction.length ≤ (writePlaces n.places).length := by
    unfold fraction
    cases n.places with
    | none => exact le_rfl
    | some places => exact Nat.le_succ _
  rw [write, writeMagnitude]
  split
  · simp only [List.length_cons, List.length_append]
    omega
  · simp only [List.length_append]
    omega

/-- Digits make a number neither too small nor too great for exponents. -/
theorem digits_bounds (n : Numeral) (short : n.write.length ≤ 2 * 10 ^ 9) :
    let q : ℚ := decimalNumeral (n.whole ++ n.fraction) * 10 ^ (-(n.fraction.length : ℤ))
    (0 < q → 10 ^ (-2 * 10 ^ 9 : ℤ) ≤ q) ∧ q ≤ 10 ^ (2 * 10 ^ 9 : ℤ) := by
  have length := n.length_digits_le
  have allDigit : ∀ c ∈ n.whole ++ n.fraction, c.isDigit := fun c mem =>
    (List.mem_append.mp mem).elim (n.isWhole.isDigit c) (n.isDigit_fraction c)
  have high := (numeral_bounds allDigit 0).2
  rw [Nat.zero_add, Nat.one_mul, ← decimalNumeral, List.length_append] at high
  generalize decimalNumeral (n.whole ++ n.fraction) = m at *
  have power := ten_zpow_pos (-(n.fraction.length : ℤ))
  intro q
  constructor
  · intro pos
    have m_pos : (0 : ℚ) < m := pos_of_mul_pos_left pos power.le
    -- a number with a digit other than zero is a unit of its last place at least
    have one_le : (1 : ℚ) ≤ m := by exact_mod_cast m_pos
    calc (10 : ℚ) ^ (-2 * 10 ^ 9 : ℤ) ≤ 10 ^ (-(n.fraction.length : ℤ)) :=
          zpow_le_zpow_right₀ (by norm_num) (by omega)
      _ ≤ m * 10 ^ (-(n.fraction.length : ℤ)) := le_mul_of_one_le_left power.le one_le
  · have high : (m : ℚ) ≤ 10 ^ ((n.whole.length + n.fraction.length : ℕ) : ℤ) := by
      rw [zpow_natCast]
      exact_mod_cast high.le
    calc q ≤ 10 ^ ((n.whole.length + n.fraction.length : ℕ) : ℤ) *
            10 ^ (-(n.fraction.length : ℤ)) := mul_le_mul_of_nonneg_right high power.le
      _ = 10 ^ (n.whole.length : ℤ) := by
          rw [← zpow_add₀ (by norm_num)]
          congr 1
          push_cast
          ring
      _ ≤ 10 ^ (2 * 10 ^ 9 : ℤ) := zpow_le_zpow_right₀ (by norm_num) (by omega)

/-- The places of a numeral only change what is gathered and the power of ten. -/
theorem placed?_places (n : Numeral) (negative : Bool) (s : ℕ) (k : ℤ) (e? : Option Exponent) :
    placed? negative s k e? n.places =
      scaled? negative (gather s 0 n.fraction).1 (k - (gather s 0 n.fraction).2.1) e? := by
  unfold fraction
  cases n.places with
  | none =>
    show scaled? negative s k e? = scaled? negative s (k - (0 : ℕ)) e?
    rw [Nat.cast_zero, sub_zero]
  | some places => rfl

variable {n : Numeral}

/-- A number that is kept as it is has 64 bits. -/
theorem magnitude_lt_of_isShort (isShort : n.isShort) : n.magnitude < 2 ^ 65 := by
  rw [Numeral.isShort, Bool.and_eq_true, Bool.and_eq_true, List.isEmpty_iff,
    Option.isNone_iff_eq_none, Option.isNone_iff_eq_none] at isShort
  obtain ⟨dropped, noPlaces, noExponent⟩ := isShort
  have noFraction : n.fraction = [] := by rw [fraction, noPlaces]; rfl
  -- nothing was dropped, so that what was gathered is the number but for the allowance of one
  -- rounding
  have close := gathered_close n.isWhole.isDigit n.isDigit_fraction
  have lt : (gather 0 0 n.whole).1 < 2 ^ 64 := gather_lt (by norm_num) 0 n.whole
  have dropped : (gather 0 0 n.whole).2.2 = [] := dropped
  rw [magnitude, noExponent, exponentValue, zpow_zero, mul_one]
  dsimp only at close
  rw [noFraction, dropped] at close
  rw [noFraction]
  generalize (gather 0 0 n.whole).1 = s at *
  have lt : (s : ℚ) < 2 ^ 64 := by exact_mod_cast lt
  have ratio_le : ratio ≤ 2 := by norm_num [ratio]
  have ratio_pos : 0 < ratio := zero_lt_one.trans one_lt_ratio
  have same : (s : ℚ) * 10 ^ ((([] : List Char).length : ℤ) - (0 : ℕ)) = s := by simp
  calc _ ≤ (s : ℚ) * 10 ^ ((([] : List Char).length : ℤ) - (0 : ℕ)) * ratio ^ 1 := close.low
    _ = s * ratio := by rw [same, pow_one]
    _ < 2 ^ 64 * ratio := mul_lt_mul_of_pos_right lt ratio_pos
    _ ≤ 2 ^ 64 * 2 := mul_le_mul_of_nonneg_left ratio_le (by norm_num)
    _ = 2 ^ 65 := by norm_num

/-- A number up to `10 ^ 308` is not beyond the doubles. -/
theorem isInRange_of_le (short : n.write.length ≤ 2 * 10 ^ 9) (le : n.magnitude ≤ 10 ^ 308) :
    n.IsInRange := by
  have lt : (gather 0 0 n.whole).1 < 2 ^ 64 := gather_lt (by norm_num) 0 n.whole
  unfold IsInRange number?
  dsimp only
  split
  · rfl
  · rw [Option.isSome_map, placed?_places]
    exact isSome_scaled?_of_le (gather_lt lt 0 n.fraction)
      (gathered_close n.isWhole.isDigit n.isDigit_fraction) (n.digits_bounds short).1 n.exponent le

/-- A number from twice of that on is beyond them. -/
theorem not_isInRange_of_le (short : n.write.length ≤ 2 * 10 ^ 9)
    (le : 2 * 10 ^ 308 ≤ n.magnitude) : ¬n.IsInRange := by
  have lt : (gather 0 0 n.whole).1 < 2 ^ 64 := gather_lt (by norm_num) 0 n.whole
  unfold IsInRange number?
  dsimp only
  split
  · -- a number that is kept as it is would be far too small
    rename_i isShort
    have small := magnitude_lt_of_isShort isShort
    have digits : (2 : ℚ) ^ 65 ≤ 10 ^ 20 := by norm_num
    have few : (10 : ℚ) ^ 20 ≤ 10 ^ 308 := pow_le_pow_right₀ (by norm_num) (by norm_num)
    have one_le := one_le_ten_pow 308
    generalize (10 : ℚ) ^ 308 = top at *
    linarith
  · rw [Option.isSome_map, placed?_places]
    exact not_isSome_scaled?_of_le (gather_lt lt 0 n.fraction)
      (gathered_close n.isWhole.isDigit n.isDigit_fraction) (n.digits_bounds short).2 n.exponent le

end Numeral

end DeadReckoning.Json
