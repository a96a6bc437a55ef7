import DeadReckoning.Json.Printer
import DeadReckoning.Json.Reader
import DeadReckoning.Proofs.Json.Reread

namespace DeadReckoning.Json

/-!
# Numbers — what is written is read

The reader goes through the digits of a number once. It keeps them all when they fit 64 bits, and
stops at the first character that cannot be part of the number.

* `Stops` — a text that no number goes on with
* `gather_append` — digits are gathered
* `readScale_of_stops`, `readScale_exponent`, `readPlaces_append`, `readMagnitude_append` — the
  parts of a number, from the last one to the first
* `Spells` — texts of numbers, with what is gathered from them
* `readNumber_natural`, `readNumber_real` — whole numbers and doubles that were written
-/

open Binary64

variable {negative : Bool} {n s : ℕ} {k p : ℤ} {x y : Float} {d : Dyadic} {c : Char}
  {ds es cs rest : List Char}

/-- The text goes on with nothing that could be part of a number. -/
structure Stops (rest : List Char) : Prop where
  digit : startsWithDigit rest = false
  fraction : startsWithFraction rest = false

/-- A computation goes on with what its first step gives. -/
theorem bind_of_ok {ε α β : Type} {step : Except ε α} {a : α} {f : α → Except ε β}
    (h : step = .ok a) : (step >>= f) = f a := by
  rw [h]
  rfl

/-! ### Digits -/

theorem takeWhile_of_stop (stop : startsWithDigit rest = false) :
    rest.takeWhile Char.isDigit = [] := by
  cases rest with
  | nil => rfl
  | cons c cs =>
    have stop : c.isDigit = false := stop
    rw [List.takeWhile_cons, stop]
    rfl

theorem dropWhile_of_stop (stop : startsWithDigit rest = false) :
    rest.dropWhile Char.isDigit = rest := by
  cases rest with
  | nil => rfl
  | cons c cs =>
    have stop : c.isDigit = false := stop
    rw [List.dropWhile_cons, stop]
    rfl

/-- Of digits all are taken, and nothing behind them. -/
theorem takeWhile_digits (isDigit : ∀ c ∈ ds, c.isDigit) (stop : startsWithDigit rest = false) :
    (ds ++ rest).takeWhile Char.isDigit = ds := by
  rw [List.takeWhile_append_of_pos isDigit, takeWhile_of_stop stop, List.append_nil]

/-- What is left behind digits is the rest. -/
theorem dropWhile_digits (isDigit : ∀ c ∈ ds, c.isDigit) (stop : startsWithDigit rest = false) :
    (ds ++ rest).dropWhile Char.isDigit = rest := by
  rw [List.dropWhile_append_of_pos isDigit, dropWhile_of_stop stop]

/-- What follows the digits is left alone. -/
theorem gather_rest (stop : startsWithDigit rest = false) (s taken : ℕ) (ds : List Char) :
    gather s taken (ds ++ rest) =
      ((gather s taken ds).1, (gather s taken ds).2.1, (gather s taken ds).2.2 ++ rest) := by
  induction ds generalizing s taken with
  | nil =>
    cases rest with
    | nil => rfl
    | cons c cs =>
      have stop : c.isDigit = false := stop
      rw [List.nil_append, gather, gather, stop]
      rfl
  | cons c ds ih =>
    rw [List.cons_append, gather, gather]
    split
    · exact ih _ _
    · rfl

/-- Digits that do not fit are left. -/
theorem mem_of_mem_gather {c : Char} (s taken : ℕ) (mem : c ∈ (gather s taken ds).2.2) :
    c ∈ ds := by
  induction ds generalizing s taken with
  | nil => exact mem
  | cons d ds ih =>
    rw [gather] at mem
    split at mem
    · exact List.mem_cons_of_mem _ (ih _ _ mem)
    · exact mem

/-- Digits that fit are all gathered. -/
theorem gather_eq (isDigit : ∀ c ∈ ds, c.isDigit) (fits : numeral 10 digitValue s ds < UInt64.size)
    (taken : ℕ) : gather s taken ds = (numeral 10 digitValue s ds, taken + ds.length, []) := by
  -- the significand grows with each digit, so that it fits all along if it fits in the end
  induction ds generalizing s taken with
  | nil => rfl
  | cons c ds ih =>
    have first : c.isDigit = true := isDigit c List.mem_cons_self
    have small : s * 10 + digitValue c < UInt64.size := (le_numeral _ ds).trans_lt fits
    rw [gather, if_pos (by simp [first, small]),
      ih (fun c' mem => isDigit c' (List.mem_cons_of_mem _ mem)) fits]
    have count : taken + 1 + ds.length = taken + (c :: ds).length := by
      rw [List.length_cons]
      omega
    rw [count]
    rfl

/-- They are gathered up to the first character that is none. -/
theorem gather_append (isDigit : ∀ c ∈ ds, c.isDigit)
    (fits : numeral 10 digitValue s ds < UInt64.size) (stop : startsWithDigit rest = false)
    (taken : ℕ) :
    gather s taken (ds ++ rest) = (numeral 10 digitValue s ds, taken + ds.length, rest) := by
  rw [gather_rest stop, gather_eq isDigit fits]
  rfl

/-- The digits of a whole number: no zero stands in front of others. -/
structure IsWhole (ds : List Char) : Prop where
  isDigit : ∀ c ∈ ds, c.isDigit
  ne_nil : ds ≠ []
  lead : ∀ cs, ds = '0' :: cs → cs = []

/-- The digits of a natural number are such: none is a leading zero. -/
theorem isWhole_digits (n : ℕ) : IsWhole (digits n) where
  isDigit _ := isDigit_of_mem_digits
  ne_nil := digits_ne_nil n
  lead cs isZero := by
    have zero := eq_zero_of_digits isZero
    rw [zero] at isZero
    exact (List.cons.inj isZero).2.symm

/-- So are the first of them. -/
theorem isWhole_take (pos : 0 < n) {count : ℕ} (some : 0 < count) :
    IsWhole ((digits n).take count) where
  isDigit c mem := isDigit_of_mem_digits (List.mem_of_mem_take mem)
  ne_nil none := by
    have := digits_ne_nil n
    rw [List.take_eq_nil_iff] at none
    rcases none with none | none
    · omega
    · exact this none
  lead cs isZero := by
    obtain ⟨d, ds, isDigits⟩ := List.exists_cons_of_ne_nil (digits_ne_nil n)
    obtain ⟨count, rfl⟩ := Nat.exists_eq_succ_of_ne_zero some.ne'
    rw [isDigits, List.take_succ_cons] at isZero
    obtain ⟨rfl, -⟩ := List.cons.inj isZero
    exact absurd (eq_zero_of_digits isDigits) pos.ne'

/-! ### Exponents and places -/

/-- Without an exponent the power of ten is that of the places. -/
theorem readScale_of_stops (stops : Stops rest) (scaled : scaleByTen negative s k = .ok y) :
    readScale negative s k rest = .ok (y, rest) := by
  have fraction := stops.fraction
  unfold readScale
  split
  · cases fraction
  · cases fraction
  · rw [scaled]
    rfl

/-- An exponent moves the point. -/
theorem readScale_exponent (small : p.natAbs ≤ greatestExponent)
    (stop : startsWithDigit rest = false) (scaled : scaleByTen negative s (k + p) = .ok y) :
    readScale negative s k ('e' :: (if p < 0 then '-' else '+') :: (digits p.natAbs ++ rest)) =
      .ok (y, rest) := by
  have isDigit : ∀ c ∈ digits p.natAbs, c.isDigit := fun _ => isDigit_of_mem_digits
  have sign : takeSign ((if p < 0 then '-' else '+') :: (digits p.natAbs ++ rest)) =
      (decide (p < 0), digits p.natAbs ++ rest) := by
    by_cases down : p < 0
    · rw [if_pos down, decide_eq_true down]
      rfl
    · rw [if_neg down, decide_eq_false down]
      rfl
  have taken := takeWhile_digits isDigit stop
  have dropped := dropWhile_digits isDigit stop
  have moved : (if decide (p < 0) then k - p.natAbs else k + p.natAbs) = k + p := by
    by_cases down : p < 0
    · rw [if_pos (decide_eq_true down)]
      omega
    · rw [if_neg (by simpa using down)]
      omega
  -- the digits of the exponent are taken whole, since it is small
  show readExponent negative s k _ = _
  unfold readExponent
  simp only [sign]
  obtain ⟨c, cs, isDigits⟩ := List.exists_cons_of_ne_nil (digits_ne_nil p.natAbs)
  have first : c.isDigit = true := isDigit c (by rw [isDigits]; exact List.mem_cons_self)
  have front : digits p.natAbs ++ rest = c :: (cs ++ rest) := by rw [isDigits, List.cons_append]
  rw [front] at taken dropped ⊢
  simp only [first, taken, dropped, decimalNumeral_digits, moved, scaled, small, Bool.not_true,
    Bool.false_eq_true, if_false, if_true]
  rfl

/-- Digits after the point are gathered with those before it. -/
theorem readPlaces_append (isDigit : ∀ c ∈ es, c.isDigit) (some : es ≠ [])
    (fits : numeral 10 digitValue s es < UInt64.size) (stop : startsWithDigit rest = false)
    (scaled : readScale negative (numeral 10 digitValue s es) (k - es.length) rest = .ok (y, cs)) :
    readPlaces negative s k (es ++ rest) = .ok (y, cs) := by
  have gathers := gather_append isDigit fits stop 0
  obtain ⟨e, es, rfl⟩ := List.exists_cons_of_ne_nil some
  have first : e.isDigit = true := isDigit e List.mem_cons_self
  rw [Nat.zero_add] at gathers
  rw [List.cons_append] at gathers ⊢
  unfold readPlaces
  simp only [first, gathers, dropWhile_of_stop stop, scaled, Bool.not_true, Bool.false_eq_true,
    if_false]

/-! ### Whole parts -/

/-- The whole part of a number is gathered as far as it fits; what follows tells what number it
is. -/
theorem readMagnitude_whole (whole : IsWhole ds) (stop : startsWithDigit rest = false) :
    readMagnitude negative (ds ++ rest) =
      if (gather 0 0 ds).2.2.isEmpty && !startsWithFraction rest then
        .ok (wholeNumber negative (gather 0 0 ds).1, rest)
      else do
        let (x, rest) ← readFraction negative (gather 0 0 ds).1 (gather 0 0 ds).2.2.length rest
        return (.real x, rest) := by
  have gathers := gather_rest stop 0 0 ds
  have left : ∀ c ∈ (gather 0 0 ds).2.2, c.isDigit := fun c mem =>
    whole.isDigit c (mem_of_mem_gather 0 0 mem)
  obtain ⟨c, cs, rfl⟩ := List.exists_cons_of_ne_nil whole.ne_nil
  -- the reader takes a zero alone, and other digits as far as they go
  by_cases zero : c = '0'
  · subst zero
    obtain rfl := whole.lead cs rfl
    have alone : gather 0 0 ['0'] = (0, 1, []) := rfl
    show readMagnitude negative ('0' :: rest) = _
    rw [alone]
    unfold readMagnitude
    simp only [stop, Bool.false_eq_true, if_false, List.isEmpty_nil, Bool.true_and]
    cases startsWithFraction rest with
    | true => rfl
    | false => rfl
  · have first : c.isDigit = true := whole.isDigit c List.mem_cons_self
    rw [List.cons_append] at gathers ⊢
    unfold readMagnitude
    split
    · rename_i empty
      cases empty
    · rename_i isZero
      exact absurd (List.cons.inj isZero).1 zero
    · rename_i isFirst
      obtain ⟨rfl, rfl⟩ := List.cons.inj isFirst
      simp only [first, gathers, Bool.not_true, Bool.false_eq_true, if_false]
      generalize gather 0 0 (c :: cs) = gathered at *
      obtain ⟨s, taken, dropped⟩ := gathered
      cases dropped with
      | nil =>
        rw [List.nil_append, if_neg (by simp [stop])]
        cases startsWithFraction rest with
        | true => rfl
        | false => rfl
      | cons d ds =>
        have digit : startsWithDigit (d :: ds ++ rest) := left d List.mem_cons_self
        rw [if_pos digit, takeWhile_digits left stop, List.drop_left]
        rfl

/-- A whole part that fits is gathered. -/
theorem readMagnitude_append (whole : IsWhole ds) (fits : decimalNumeral ds < UInt64.size)
    (stop : startsWithDigit rest = false) :
    readMagnitude negative (ds ++ rest) =
      if startsWithFraction rest then do
        let (x, rest) ← readFraction negative (decimalNumeral ds) 0 rest
        return (.real x, rest)
      else return (wholeNumber negative (decimalNumeral ds), rest) := by
  rw [readMagnitude_whole whole stop, gather_eq whole.isDigit fits]
  cases startsWithFraction rest with
  | true => rfl
  | false => rfl

/-- A number with a point or an exponent is a double. -/
theorem readMagnitude_fraction (whole : IsWhole ds) (fits : decimalNumeral ds < UInt64.size)
    (stop : startsWithDigit rest = false) (fraction : startsWithFraction rest = true)
    (read : readFraction negative (decimalNumeral ds) 0 rest = .ok (y, cs)) :
    readMagnitude negative (ds ++ rest) = .ok (.real y, cs) := by
  rw [readMagnitude_append whole fits stop, if_pos fraction]
  exact bind_of_ok read

/-- Digits with a point between them are read as one significand. -/
theorem readMagnitude_point (whole : IsWhole ds) (isDigit : ∀ c ∈ es, c.isDigit) (some : es ≠ [])
    (fits : decimalNumeral (ds ++ es) < UInt64.size) (stop : startsWithDigit rest = false)
    (scaled : readScale negative (decimalNumeral (ds ++ es)) (-es.length) rest = .ok (y, cs)) :
    readMagnitude negative (ds ++ '.' :: (es ++ rest)) = .ok (.real y, cs) := by
  have shift : ((0 : ℕ) : ℤ) - es.length = -es.length := by
    rw [Nat.cast_zero, zero_sub]
  rw [decimalNumeral, numeral_append] at fits scaled
  rw [← shift] at scaled
  have places : readPlaces negative (decimalNumeral ds) (0 : ℕ) (es ++ rest) = .ok (y, cs) :=
    readPlaces_append isDigit some fits stop scaled
  exact readMagnitude_fraction whole ((le_numeral _ es).trans_lt fits) rfl rfl places

/-- A number that starts with a digit has no minus. -/
theorem readNumber_append (whole : IsWhole ds) (rest : List Char) :
    readNumber (ds ++ rest) = readMagnitude false (ds ++ rest) := by
  obtain ⟨c, cs, rfl⟩ := List.exists_cons_of_ne_nil whole.ne_nil
  have first := whole.isDigit c List.mem_cons_self
  unfold readNumber
  split
  · rename_i isMinus
    rw [(List.cons.inj isMinus).1] at first
    cases first
  · rfl

/-- A natural number that was written is read. -/
theorem readNumber_natural (n : UInt64) (stops : Stops rest) :
    readNumber (writeNatural n ++ rest) = .ok (.natural n, rest) := by
  have whole := isWhole_digits n.toNat
  have fits : decimalNumeral (digits n.toNat) < UInt64.size := by
    rw [decimalNumeral_digits]
    exact n.toNat_lt
  rw [writeNatural, readNumber_append whole, readMagnitude_append whole fits stops.digit,
    stops.fraction, decimalNumeral_digits]
  show Except.ok (Number.natural (UInt64.ofNat n.toNat), rest) = _
  rw [UInt64.ofNat_toNat]

/-! ### Layouts of doubles -/

/-- An exponent with its sign. -/
def exponentText (p : ℤ) : List Char := 'e' :: (if p < 0 then '-' else '+') :: digits p.natAbs

/-- Texts of numbers, with the significand and the power of ten that are gathered from them. -/
inductive Spells : List Char → ℕ → ℤ → Prop
  | point {ds es : List Char} (whole : IsWhole ds) (isDigit : ∀ c ∈ es, c.isDigit)
    (some : es ≠ []) :
    Spells (ds ++ '.' :: es) (decimalNumeral (ds ++ es)) (-es.length)
  | exponent {ds : List Char} {p : ℤ} (whole : IsWhole ds) (small : p.natAbs ≤ greatestExponent) :
    Spells (ds ++ exponentText p) (decimalNumeral ds) p
  | both {ds es : List Char} {p : ℤ} (whole : IsWhole ds) (isDigit : ∀ c ∈ es, c.isDigit)
    (some : es ≠ []) (small : p.natAbs ≤ greatestExponent) :
    Spells (ds ++ '.' :: (es ++ exponentText p)) (decimalNumeral (ds ++ es)) (-es.length + p)

namespace Spells

variable {text : List Char}

/-- A number is read as it is spelled. -/
theorem readMagnitude (h : Spells text s k) (fits : s < UInt64.size)
    (scaled : scaleByTen negative s k = .ok y) (stops : Stops rest) :
    readMagnitude negative (text ++ rest) = .ok (.real y, rest) := by
  cases h with
  | point whole isDigit some =>
    rw [List.append_assoc, List.cons_append]
    exact readMagnitude_point whole isDigit some fits stops.digit (readScale_of_stops stops scaled)
  | @exponent ds _ whole small =>
    -- without places the power of ten is that of the exponent
    have read : readScale negative (decimalNumeral ds) (0 : ℕ) (exponentText k ++ rest) =
        .ok (y, rest) := by
      apply readScale_exponent small stops.digit
      rwa [Nat.cast_zero, zero_add]
    rw [List.append_assoc]
    exact readMagnitude_fraction whole fits rfl rfl read
  | both whole isDigit some small =>
    rw [List.append_assoc, List.cons_append, List.append_assoc]
    exact readMagnitude_point whole isDigit some fits rfl
      (readScale_exponent small stops.digit scaled)

/-- It starts with a digit. -/
theorem starts (h : Spells text s k) : ∃ ds cs, IsWhole ds ∧ text = ds ++ cs := by
  cases h with
  | point whole => exact ⟨_, _, whole, rfl⟩
  | exponent whole => exact ⟨_, _, whole, rfl⟩
  | both whole => exact ⟨_, _, whole, rfl⟩

/-- Whole numbers in the layout of JSON. -/
theorem positional_whole {c : ℕ} {e : ℤ} (up : 0 ≤ e) :
    Spells (Decimal.positional ['.', '0'] ⟨c, e⟩) (c * 10 ^ (e.toNat + 1)) (-1) := by
  have text : Decimal.positional ['.', '0'] ⟨c, e⟩ = digits (c * 10 ^ e.toNat) ++ ['.', '0'] := by
    unfold Decimal.positional
    rw [if_pos up]
    dsimp only
    -- a zero is written with one digit, whatever its exponent
    rcases Nat.eq_zero_or_pos c with zero | pos
    · rw [if_pos zero, zero, Nat.zero_mul]
      rfl
    · rw [if_neg pos.ne', digits_mul_ten_pow pos]
  have value : decimalNumeral (digits (c * 10 ^ e.toNat) ++ ['0']) = c * 10 ^ (e.toNat + 1) := by
    rw [decimalNumeral, numeral_append, ← decimalNumeral, decimalNumeral_digits, pow_succ,
      ← Nat.mul_assoc]
    exact numeral_zeros _ 1
  have isDigit : ∀ d ∈ ['0'], d.isDigit := fun d mem => isDigit_of_mem_digits (n := 0) mem
  rw [text, ← value]
  exact point (isWhole_digits _) isDigit (List.cons_ne_nil _ _)

/-- Fractions in a layout without an exponent. -/
theorem positional_point {c : ℕ} {e : ℤ} (pos : 0 < c) (down : e < 0) (whole : List Char) :
    Spells (Decimal.positional whole ⟨c, e⟩) c e := by
  obtain ⟨places, some, rfl⟩ : ∃ places : ℕ, 0 < places ∧ e = -places :=
    ⟨(-e).toNat, by omega, by omega⟩
  unfold Decimal.positional
  dsimp only
  rw [if_neg (by omega), neg_neg, Int.toNat_natCast]
  -- the point stands among the digits, or zeros are put between it and them
  split
  · rename_i few
    obtain ⟨before, isBefore⟩ : ∃ before, (digits c).length - places = before := ⟨_, rfl⟩
    rw [isBefore]
    have count : ((digits c).drop before).length = places := by
      rw [List.length_drop]
      omega
    have value : decimalNumeral ((digits c).take before ++ (digits c).drop before) = c := by
      rw [List.take_append_drop, decimalNumeral_digits]
    have spells := point (isWhole_take pos (by omega : 0 < before))
      (fun c mem => isDigit_of_mem_digits (List.mem_of_mem_drop mem))
      (List.ne_nil_of_length_pos (count.symm ▸ some))
    rwa [value, count] at spells
  · rename_i many
    obtain ⟨zeros, isZeros⟩ : ∃ zeros, places - (digits c).length = zeros := ⟨_, rfl⟩
    rw [isZeros]
    have count : (List.replicate zeros '0' ++ digits c).length = places := by
      rw [List.length_append, List.length_replicate]
      omega
    have value : decimalNumeral (['0'] ++ (List.replicate zeros '0' ++ digits c)) = c := by
      rw [decimalNumeral, numeral_append, numeral_append]
      have zero : numeral 10 digitValue (numeral 10 digitValue 0 ['0'])
          (List.replicate zeros '0') = 0 := by
        rw [numeral_zeros]
        exact Nat.zero_mul _
      rw [zero, ← decimalNumeral, decimalNumeral_digits]
    have isDigit : ∀ d ∈ List.replicate zeros '0' ++ digits c, d.isDigit := by
      intro d mem
      rcases List.mem_append.mp mem with mem | mem
      · rw [List.eq_of_mem_replicate mem]
        rfl
      · exact isDigit_of_mem_digits mem
    have spells := point (isWhole_digits 0) isDigit (List.ne_nil_of_length_pos (count.symm ▸ some))
    have digits_zero : digits 0 = ['0'] := rfl
    rw [digits_zero, value, count] at spells
    exact spells

/-- The layout with an exponent. -/
theorem scientific {decimal : Decimal} (pos : 0 < decimal.coefficient)
    (small : decimal.leadingPower.natAbs ≤ greatestExponent) :
    Spells decimal.scientific decimal.coefficient decimal.exponent := by
  have value := decimalNumeral_digits decimal.coefficient
  have whole := isWhole_digits decimal.coefficient
  -- a single digit is written without a point
  cases isDigits : digits decimal.coefficient with
  | nil => exact absurd isDigits (digits_ne_nil _)
  | cons first others =>
    rw [isDigits] at value whole
    cases others with
    | nil =>
      have text : decimal.scientific = [first] ++ exponentText decimal.leadingPower := by
        unfold Decimal.scientific
        rw [isDigits]
        rfl
      have power : decimal.leadingPower = decimal.exponent := by
        rw [Decimal.leadingPower, isDigits]
        simp
      have spells := exponent whole small
      rw [value, ← text, power] at spells
      exact spells
    | cons second rest =>
      have text : decimal.scientific =
          [first] ++ '.' :: (second :: rest ++ exponentText decimal.leadingPower) := by
        unfold Decimal.scientific
        rw [isDigits]
        rfl
      have power : -((second :: rest).length : ℤ) + decimal.leadingPower = decimal.exponent := by
        rw [Decimal.leadingPower, isDigits]
        simp only [List.length_cons]
        push_cast
        ring
      have lead : IsWhole [first] := by
        have taken := isWhole_take pos zero_lt_one
        rwa [isDigits] at taken
      have isDigit : ∀ c ∈ second :: rest, c.isDigit :=
        fun c mem => whole.isDigit c (List.mem_cons_of_mem _ mem)
      have spells := both lead isDigit (List.cons_ne_nil second rest) small
      rw [← text, List.singleton_append, value, power] at spells
      exact spells

end Spells

/-- A double is spelled as its significand and power of ten. -/
theorem spells_layOut (hx : Unpacks x d) :
    Spells (numberLayout.layOut d) (gathered d).1 (gathered d).2 := by
  -- plain layouts have a point, after all digits or among them, the others have an exponent
  cases plain :
    d.mantissa == 0 || numberLayout.isPlain (d.shortest numberLayout.tie).leadingPower with
  | true =>
    unfold Layout.layOut gathered
    dsimp only
    rw [plain, if_pos rfl, Bool.true_and]
    by_cases up : 0 ≤ (d.shortest numberLayout.tie).exponent
    · rw [if_pos (decide_eq_true up)]
      exact Spells.positional_whole up
    · rw [if_neg (by simpa using up)]
      have pos : 0 < d.mantissa := by
        by_contra zero
        rw [Dyadic.shortest, if_pos (by simpa using zero)] at up
        exact up le_rfl
      exact Spells.positional_point (shortest_coefficient_pos (hx.canonical pos) _) (not_le.mp up) _
  | false =>
    have pos : 0 < d.mantissa := by
      rw [Bool.or_eq_false_iff] at plain
      exact Nat.pos_of_ne_zero (by simpa using plain.1)
    have h := hx.canonical pos
    have gathers : gathered d =
        ((d.shortest numberLayout.tie).coefficient, (d.shortest numberLayout.tie).exponent) := by
      unfold gathered
      dsimp only
      rw [plain, Bool.false_and, if_neg Bool.false_ne_true]
    have text : numberLayout.layOut d = (d.shortest numberLayout.tie).scientific := by
      unfold Layout.layOut
      dsimp only
      rw [plain, if_neg Bool.false_ne_true]
    have power := gathered_power h
    -- the exponent that is written has three digits, far from what the reader refuses
    have few : (digits (d.shortest numberLayout.tie).coefficient).length ≤ 18 :=
      length_digits_le (by norm_num)
        ((Dyadic.shortest_coefficient_lt h numberLayout.tie).trans (by norm_num))
    rw [gathers] at power
    rw [text, gathers]
    refine Spells.scientific (shortest_coefficient_pos h _) ?_
    rw [Decimal.leadingPower, greatestExponent]
    omega

/-- A double that was written is read. -/
theorem readNumber_real (finite : x.isFinite) (stops : Stops rest) :
    readNumber (writeFloat x ++ rest) = .ok (.real (reread x), rest) := by
  obtain ⟨d, hx⟩ := isFinite_iff.mp finite
  have text : writeFloat x = numberLayout.writeDyadic d := by
    rw [writeFloat, unpacks_iff.mp hx]
  have spells := spells_layOut hx
  have fits := gathered_lt_size hx
  -- what is behind the sign is the same for both signs
  have read {negative : Bool} (sign : d.negative = negative) :
      readMagnitude negative (numberLayout.layOut d ++ rest) = .ok (.real (reread x), rest) := by
    have scaled := (reread_spec hx).1
    rw [sign] at scaled
    exact spells.readMagnitude fits scaled stops
  rw [text, Layout.writeDyadic]
  cases sign : d.negative with
  | true => exact read sign
  | false =>
    -- without a minus the first digit tells that it is a number
    obtain ⟨ds, cs, whole, isText⟩ := spells.starts
    rw [if_neg Bool.false_ne_true, isText, List.append_assoc, readNumber_append whole,
      ← List.append_assoc, ← isText]
    exact read sign

/-! ### First characters -/

/-- The character starts a number. -/
def isNumberStart (c : Char) : Bool := c == '-' || c.isDigit

/-- Digits are the start of a number. -/
theorem IsWhole.start (whole : IsWhole ds) (rest : List Char) :
    (ds ++ rest).head?.any isNumberStart := by
  obtain ⟨c, cs, rfl⟩ := List.exists_cons_of_ne_nil whole.ne_nil
  show isNumberStart c = true
  rw [isNumberStart, whole.isDigit c List.mem_cons_self, Bool.or_true]

/-- A natural number starts as a number does. -/
theorem start_natural (n : UInt64) : (writeNatural n).head?.any isNumberStart := by
  have start := (isWhole_digits n.toNat).start []
  rwa [List.append_nil] at start

/-- So does a finite double, be it negative or not. -/
theorem start_real (finite : x.isFinite) : (writeFloat x).head?.any isNumberStart := by
  obtain ⟨d, hx⟩ := isFinite_iff.mp finite
  rw [writeFloat, unpacks_iff.mp hx]
  dsimp only
  rw [Layout.writeDyadic]
  cases d.negative with
  | true => rfl
  | false =>
    obtain ⟨ds, cs, whole, isText⟩ := (spells_layOut hx).starts
    rw [if_neg Bool.false_ne_true, isText]
    exact whole.start cs

end DeadReckoning.Json
