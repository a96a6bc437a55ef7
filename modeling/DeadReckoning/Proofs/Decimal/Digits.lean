import DeadReckoning.Decimal.Layout
import DeadReckoning.Decimal.Literal
import Mathlib.Tactic.NormNum
import Mathlib.Tactic.Ring

namespace DeadReckoning

/-!
# Decimal digits — what is written is read

* `decimalNumeral_digits` — the digits of a number stand for it
* `numeral_bounds` — the first digits tell how great it is
* `eq_zero_of_digits` — no number but zero starts with a zero
* `lt_ten_pow_length` — how many digits a number has
-/

variable {n : ℕ} {c : Char} {cs : List Char}

theorem digits_ne_nil (n : ℕ) : digits n ≠ [] := Nat.toDigits_ne_nil

theorem isDigit_of_mem_digits (h : c ∈ digits n) : c.isDigit :=
  Nat.isDigit_of_mem_toDigits (by norm_num) (by norm_num) h

/-- Digits are read as the library reads them. -/
theorem numeral_eq (n : ℕ) (ds : List Char) :
    numeral 10 digitValue n ds = Nat.ofDigitChars 10 ds n := by
  have step : (fun (m : ℕ) c => m * 10 + digitValue c) =
      fun m c => 10 * m + (c.toNat - '0'.toNat) := by
    funext m c
    rw [mul_comm]
    rfl
  rw [numeral, step]
  rfl

/-- The digits of a number stand for it. -/
@[simp] theorem decimalNumeral_digits (n : ℕ) : decimalNumeral (digits n) = n := by
  rw [decimalNumeral, numeral_eq]
  exact Nat.ofDigitChars_ten_toDigits

/-- A numeral goes on where its front ends. -/
theorem numeral_append (n : ℕ) (ds es : List Char) :
    numeral 10 digitValue n (ds ++ es) = numeral 10 digitValue (numeral 10 digitValue n ds) es :=
  List.foldl_append

/-- Zeros at the end multiply by powers of ten. -/
theorem numeral_zeros (n k : ℕ) :
    numeral 10 digitValue n (List.replicate k '0') = n * 10 ^ k := by
  rw [numeral_eq, Nat.ofDigitChars_replicate_zero, mul_comm]

/-- More digits never make a number less. -/
theorem le_numeral (n : ℕ) (ds : List Char) : n ≤ numeral 10 digitValue n ds := by
  induction ds generalizing n with
  | nil => exact le_rfl
  | cons c ds ih =>
    have least : n ≤ n * 10 + digitValue c := by omega
    exact least.trans (ih _)

/-- No digit is worth more than nine. -/
theorem digitValue_le (isDigit : c.isDigit) : digitValue c ≤ 9 := by
  rw [Char.isDigit, Bool.and_eq_true, decide_eq_true_eq, decide_eq_true_eq] at isDigit
  have high : c.toNat ≤ 57 := isDigit.2
  have zero : '0'.toNat = 48 := rfl
  rw [digitValue, zero]
  omega

/-- Digits behind a number leave it in front. -/
theorem numeral_bounds (isDigit : ∀ c ∈ cs, c.isDigit) (n : ℕ) :
    n * 10 ^ cs.length ≤ numeral 10 digitValue n cs ∧
      numeral 10 digitValue n cs < (n + 1) * 10 ^ cs.length := by
  induction cs generalizing n with
  | nil => simp [numeral]
  | cons c cs ih =>
    have first := digitValue_le (isDigit c List.mem_cons_self)
    obtain ⟨low, high⟩ := ih (fun d mem => isDigit d (List.mem_cons_of_mem c mem))
      (n * 10 + digitValue c)
    rw [List.length_cons, pow_succ', ← mul_assoc, ← mul_assoc]
    constructor
    · exact (Nat.mul_le_mul_right _ (Nat.le_add_right _ _)).trans low
    · refine high.trans_le (Nat.mul_le_mul_right _ ?_)
      omega

/-- No number but zero starts with a zero. -/
theorem eq_zero_of_digits (h : digits n = '0' :: cs) : n = 0 := by
  induction n using Nat.strong_induction_on generalizing cs with
  | _ n ih =>
    rcases Nat.lt_or_ge n 10 with small | large
    · have single := h.symm.trans (Nat.toDigits_of_lt_base small)
      have check : ∀ k < 10, Nat.digitChar k = '0' → k = 0 := by decide
      exact check n small (List.cons.inj single).1.symm
    · -- all digits but the last are those of a tenth of the number
      have split := h.symm.trans (Nat.toDigits_of_base_le (by norm_num) large)
      obtain ⟨d, ds, isDigits⟩ := List.exists_cons_of_ne_nil (digits_ne_nil (n / 10))
      have first : d = '0' := by
        have isDigits : Nat.toDigits 10 (n / 10) = d :: ds := isDigits
        rw [isDigits] at split
        exact (List.cons.inj split).1.symm
      have less := ih (n / 10) (by omega) (first ▸ isDigits)
      omega

/-- Zeros at the end multiply by ten. -/
theorem digits_mul_ten_pow (pos : 0 < n) (k : ℕ) :
    digits (n * 10 ^ k) = digits n ++ List.replicate k '0' := by
  induction k with
  | zero => simp
  | succ k ih =>
    have more : 0 < n * 10 ^ k := Nat.mul_pos pos (Nat.pow_pos (by norm_num))
    have step : n * 10 ^ (k + 1) = 10 * (n * 10 ^ k) + 0 := by rw [pow_succ]; ring
    have last : digits (n * 10 ^ k) ++ digits 0 = digits (10 * (n * 10 ^ k) + 0) :=
      Nat.toDigits_append_toDigits (by norm_num) more (by norm_num)
    rw [step, ← last, ih, List.append_assoc, List.replicate_succ']
    rfl

/-- A number below a power of ten has as few digits. -/
theorem length_digits_le {k : ℕ} (some : 0 < k) (lt : n < 10 ^ k) : (digits n).length ≤ k :=
  (Nat.length_toDigits_le_iff (by norm_num) some).mpr lt

/-- A number is below the power of ten of its digits. -/
theorem lt_ten_pow_length (n : ℕ) : n < 10 ^ (digits n).length :=
  (Nat.length_toDigits_le_iff (by norm_num) Nat.length_toDigits_pos).mp le_rfl

end DeadReckoning
