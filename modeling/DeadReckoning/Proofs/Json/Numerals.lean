import DeadReckoning.Proofs.Json.Strings

namespace DeadReckoning.Json

/-!
# Numbers — what those of the grammar are read as

A number of the grammar may have any digits. What is read depends on the significand that can be
gathered from them and on the power of ten that is left over; only a number that is scaled beyond
the doubles is refused. A reader that only passes over a number does not look at its size.

* `gather_rest` — digits are gathered up to the first one that does not fit
* `Numeral.number?` — the number that a numeral is read as
* `readScale_write`, `readFraction_write`, `readNumber_write` — it is read as that
* `passNumber_write` — it is passed over in any case
-/

variable {negative : Bool} {s : ℕ} {k : ℤ} {ds rest : List Char} {e? : Option Exponent}
  {places? : Option Digits}

/-! ### Digits -/

/-- Digits start with one. -/
theorem Digits.exists_cons (ds : Digits) :
    ∃ c cs, ds.chars = c :: cs ∧ c.isDigit = true := by
  obtain ⟨c, cs, isChars⟩ := List.exists_cons_of_ne_nil ds.ne_nil
  refine ⟨c, cs, isChars, ds.isDigit c ?_⟩
  rw [isChars]
  exact List.mem_cons_self

theorem Digits.start (ds : Digits) (rest : List Char) : startsWithDigit (ds.chars ++ rest) := by
  obtain ⟨c, cs, isChars, first⟩ := ds.exists_cons
  rw [isChars]
  exact first

/-! ### What a number stands for -/

namespace Exponent

/-- The exponent without its sign. -/
def magnitude (e : Exponent) : ℕ := decimalNumeral e.digits.chars

/-- The exponent has a minus. -/
def isDown (e : Exponent) : Bool := e.negative == some true

end Exponent

/-- A significand and a power of ten, which an exponent may change, as a double. -/
def scaled? (negative : Bool) (s : ℕ) (k : ℤ) : Option Exponent → Option Float
  | none => (scaleByTen negative s k).toOption
  | some e =>
    if e.magnitude ≤ greatestExponent then
      (scaleByTen negative s (if e.isDown then k - e.magnitude else k + e.magnitude)).toOption
    else if s ≠ 0 && !e.isDown then none
    else some (if negative then -0.0 else 0.0)

/-- The same after digits behind the point. -/
def placed? (negative : Bool) (s : ℕ) (k : ℤ) (e? : Option Exponent) : Option Digits → Option Float
  | none => scaled? negative s k e?
  | some places =>
    let (s, taken, _) := gather s 0 places.chars
    scaled? negative s (k - taken) e?

namespace Numeral

/-- The digits of a whole part that do not fit 64 bits. -/
def dropped (n : Numeral) : List Char := (gather 0 0 n.whole).2.2

/-- The number is whole and fits 64 bits. -/
def isShort (n : Numeral) : Bool :=
  n.dropped.isEmpty && (n.places.isNone && n.exponent.isNone)

/-- The number, unless it is beyond the doubles. -/
def number? (n : Numeral) : Option Number :=
  let s := (gather 0 0 n.whole).1
  if n.isShort then some (wholeNumber n.negative s)
  else (placed? n.negative s n.dropped.length n.exponent n.places).map .real

/-- The number is not beyond the doubles. -/
def IsInRange (n : Numeral) : Prop := n.number?.isSome

end Numeral

/-! ### Reading numbers -/

/-- The sign of an exponent is taken, if it has one; only a minus makes it negative. -/
theorem takeSign_write (negative : Option Bool) (ds : Digits) (rest : List Char) :
    takeSign (Exponent.writeSign negative ++ (ds.chars ++ rest)) =
      (negative == some true, ds.chars ++ rest) := by
  obtain ⟨c, cs, isChars, first⟩ := ds.exists_cons
  cases negative with
  | none =>
    rw [isChars]
    show takeSign (c :: (cs ++ rest)) = _
    unfold takeSign
    -- the first digit is neither of the two signs
    split
    · rename_i isMinus
      rw [(List.cons.inj isMinus).1] at first
      cases first
    · rename_i isPlus
      rw [(List.cons.inj isPlus).1] at first
      cases first
    · rfl
  | some negative =>
    cases negative with
    | true => rfl
    | false => rfl

/-- The double that a significand and a power of ten make, and the text after it. -/
theorem toOption_scaleByTen (negative : Bool) (s : ℕ) (k : ℤ) (rest : List Char) :
    (do
      let x ← scaleByTen negative s k
      return (x, rest) : Except Fault (Float × List Char)).toOption =
      (scaleByTen negative s k).toOption.map (·, rest) := by
  rw [toOption_bind]
  cases (scaleByTen negative s k).toOption with
  | none => rfl
  | some x => rfl

/-- An exponent is read as the power of ten that it stands for. -/
theorem readExponent_write (negative : Bool) (s : ℕ) (k : ℤ) (e : Exponent)
    (stop : startsWithDigit rest = false) :
    (readExponent negative s k
        (Exponent.writeSign e.negative ++ (e.digits.chars ++ rest))).toOption =
      (scaled? negative s k (some e)).map (·, rest) := by
  -- the digits of the exponent end where the number does
  have taken := takeWhile_digits e.digits.isDigit stop
  have behind := dropWhile_digits e.digits.isDigit stop
  obtain ⟨c, cs, isChars, first⟩ := e.digits.exists_cons
  have front : e.digits.chars ++ rest = c :: (cs ++ rest) := by rw [isChars, List.cons_append]
  have read : readExponent negative s k
      (Exponent.writeSign e.negative ++ (e.digits.chars ++ rest)) =
      if e.magnitude ≤ greatestExponent then do
        let x ← scaleByTen negative s (if e.isDown then k - e.magnitude else k + e.magnitude)
        return (x, rest)
      else if s ≠ 0 && !e.isDown then throw .numberOutOfRange
      else return (if negative then -0.0 else 0.0, rest) := by
    unfold readExponent
    rw [takeSign_write, front]
    rw [front] at taken behind
    simp only [first, taken, behind, Bool.not_true, Bool.false_eq_true, if_false]
    rfl
  rw [read, scaled?]
  split
  · exact toOption_scaleByTen _ _ _ _
  · split
    · rfl
    · rfl

/-- A number is scaled by the exponent that follows it, if one does. -/
theorem readScale_write (e? : Option Exponent) (stops : Stops rest) :
    (readScale negative s k (Numeral.writeExponent e? ++ rest)).toOption =
      (scaled? negative s k e?).map (·, rest) := by
  cases e? with
  | none =>
    have fraction := stops.fraction
    show (readScale negative s k rest).toOption = _
    unfold readScale
    split
    · cases fraction
    · cases fraction
    · exact toOption_scaleByTen _ _ _ _
  | some e =>
    have read := readExponent_write negative s k e stops.digit
    rw [← List.append_assoc] at read
    show (readScale negative s k (e.letter :: (_ ++ rest))).toOption = _
    -- a small letter or a capital one
    rcases e.isLetter with isLetter | isLetter
    · rw [isLetter]
      exact read
    · rw [isLetter]
      exact read

/-- The digits in front of an exponent end with it. -/
theorem stop_writeExponent (e? : Option Exponent) (stops : Stops rest) :
    startsWithDigit (Numeral.writeExponent e? ++ rest) = false := by
  cases e? with
  | none => exact stops.digit
  | some e =>
    show e.letter.isDigit = false
    rcases e.isLetter with isLetter | isLetter
    · rw [isLetter]
      rfl
    · rw [isLetter]
      rfl

/-- What follows the whole part tells whether it is the number. -/
theorem startsWithFraction_write (places? : Option Digits) (e? : Option Exponent)
    (stops : Stops rest) :
    startsWithFraction (Numeral.writePlaces places? ++ (Numeral.writeExponent e? ++ rest)) =
      !(places?.isNone && e?.isNone) := by
  cases places? with
  | some places => rfl
  | none =>
    cases e? with
    | none => exact stops.fraction
    | some e =>
      show (e.letter == '.' || e.letter == 'e' || e.letter == 'E') = true
      rcases e.isLetter with isLetter | isLetter
      · rw [isLetter]
        rfl
      · rw [isLetter]
        rfl

/-- The digits in front of the point end there, or at the exponent. -/
theorem stop_writePlaces (places? : Option Digits) (e? : Option Exponent) (stops : Stops rest) :
    startsWithDigit (Numeral.writePlaces places? ++ (Numeral.writeExponent e? ++ rest)) =
      false := by
  cases places? with
  | none => exact stop_writeExponent e? stops
  | some places => rfl

/-- An exponent is not taken for places. -/
theorem writeExponent_ne_point (e? : Option Exponent) (stops : Stops rest) (cs : List Char) :
    Numeral.writeExponent e? ++ rest ≠ '.' :: cs := by
  cases e? with
  | none =>
    intro isPoint
    -- without an exponent the number ends, and nothing goes on with a point
    have fraction := stops.fraction
    rw [Numeral.writeExponent, List.nil_append] at isPoint
    rw [isPoint] at fraction
    cases fraction
  | some e =>
    intro isPoint
    have isPoint : e.letter = '.' := (List.cons.inj isPoint).1
    rcases e.isLetter with isLetter | isLetter
    · rw [isLetter] at isPoint
      cases isPoint
    · rw [isLetter] at isPoint
      cases isPoint

/-- The places of a number are gathered with its whole part. -/
theorem readFraction_write (negative : Bool) (s shift : ℕ) (places? : Option Digits)
    (e? : Option Exponent) (stops : Stops rest) :
    (readFraction negative s shift
        (Numeral.writePlaces places? ++ (Numeral.writeExponent e? ++ rest))).toOption =
      (placed? negative s shift e? places?).map (·, rest) := by
  cases places? with
  | none =>
    rw [placed?, ← readScale_write e? stops]
    show (readFraction negative s shift (Numeral.writeExponent e? ++ rest)).toOption = _
    unfold readFraction
    split
    · rename_i isPoint
      exact absurd isPoint (writeExponent_ne_point e? stops _)
    · rfl
  | some places =>
    have stop := stop_writeExponent e? stops
    -- digits that are not gathered are dropped, and the exponent follows them
    have gathers := gather_rest stop s 0 places.chars
    have left : ∀ c ∈ (gather s 0 places.chars).2.2, c.isDigit := fun c mem =>
      places.isDigit c (mem_of_mem_gather s 0 mem)
    have behind := dropWhile_digits left stop
    obtain ⟨c, cs, isChars, first⟩ := places.exists_cons
    rw [placed?, ← readScale_write e? stops]
    show (readPlaces negative s shift
      (places.chars ++ (Numeral.writeExponent e? ++ rest))).toOption = _
    rw [isChars] at gathers behind ⊢
    rw [List.cons_append] at gathers ⊢
    unfold readPlaces
    simp only [first, gathers, behind, Bool.not_true, Bool.false_eq_true, if_false]

/-- A number without its sign is read as what it stands for. -/
theorem readMagnitude_write (n : Numeral) (stops : Stops rest) :
    (readMagnitude n.negative (n.writeMagnitude ++ rest)).toOption = n.number?.map (·, rest) := by
  have stop := stop_writePlaces n.places n.exponent stops
  rw [Numeral.writeMagnitude, List.append_assoc, List.append_assoc,
    readMagnitude_whole n.isWhole stop, startsWithFraction_write n.places n.exponent stops,
    Bool.not_not, Numeral.number?]
  show (if n.isShort then _ else _ : Except Fault (Number × List Char)).toOption = _
  cases short : n.isShort with
  | true =>
    rw [Numeral.isShort, Bool.and_eq_true, Bool.and_eq_true] at short
    -- a number that is kept as it is has neither places nor an exponent
    rw [Option.isNone_iff_eq_none.mp short.2.1, Option.isNone_iff_eq_none.mp short.2.2]
    rfl
  | false =>
    have read := readFraction_write n.negative (gather 0 0 n.whole).1 n.dropped.length n.places
      n.exponent stops
    rw [if_neg Bool.false_ne_true, if_neg Bool.false_ne_true]
    refine (toOption_bind_read read _).trans ?_
    cases placed? n.negative (gather 0 0 n.whole).1 n.dropped.length n.exponent n.places with
    | none => rfl
    | some x => rfl

/-- A number is read as what it stands for. -/
theorem readNumber_write (n : Numeral) (stops : Stops rest) :
    (readNumber (n.write ++ rest)).toOption = n.number?.map (·, rest) := by
  rw [← readMagnitude_write n stops, Numeral.write]
  cases n.negative with
  | true => rfl
  | false =>
    rw [if_neg Bool.false_ne_true, Numeral.writeMagnitude, List.append_assoc,
      readNumber_append n.isWhole]

/-- A natural number of 64 bits stands for itself. -/
theorem Numeral.number?_natural (n : UInt64) : (natural n).number? = some (.natural n) := by
  have atEnd : Stops [] := ⟨rfl, rfl⟩
  have read := readNumber_write (natural n) atEnd
  rw [write_natural, readNumber_natural n atEnd] at read
  obtain ⟨number, isNumber, same⟩ := Option.map_eq_some_iff.mp read.symm
  rw [isNumber, (Prod.mk.inj same).1]

/-! ### Numbers that are passed over -/

/-- An exponent is passed over. -/
theorem passExponent_write (e : Exponent) (stop : startsWithDigit rest = false) :
    passExponent (Exponent.writeSign e.negative ++ (e.digits.chars ++ rest)) = .ok rest := by
  have behind := dropWhile_digits e.digits.isDigit stop
  rw [passExponent, takeSign_write]
  dsimp only
  rw [if_pos (e.digits.start rest), behind]

/-- So is an exponent that may be missing. -/
theorem passScale_write (e? : Option Exponent) (stops : Stops rest) :
    passScale (Numeral.writeExponent e? ++ rest) = .ok rest := by
  cases e? with
  | none =>
    have fraction := stops.fraction
    show passScale rest = _
    unfold passScale
    split
    · cases fraction
    · cases fraction
    · rfl
  | some e =>
    have pass := passExponent_write e stops.digit
    rw [← List.append_assoc] at pass
    show passScale (e.letter :: (_ ++ rest)) = _
    rcases e.isLetter with isLetter | isLetter
    · rw [isLetter]
      exact pass
    · rw [isLetter]
      exact pass

/-- So are places and exponent, whichever are there. -/
theorem passFraction_write (places? : Option Digits) (e? : Option Exponent) (stops : Stops rest) :
    passFraction (Numeral.writePlaces places? ++ (Numeral.writeExponent e? ++ rest)) =
      .ok rest := by
  cases places? with
  | none =>
    show passFraction (Numeral.writeExponent e? ++ rest) = _
    unfold passFraction
    split
    · rename_i isPoint
      exact absurd isPoint (writeExponent_ne_point e? stops _)
    · exact passScale_write e? stops
  | some places =>
    have behind := dropWhile_digits places.isDigit (stop_writeExponent e? stops)
    show (if startsWithDigit (places.chars ++ (Numeral.writeExponent e? ++ rest)) then
      passScale ((places.chars ++ (Numeral.writeExponent e? ++ rest)).dropWhile Char.isDigit)
      else _) = _
    rw [if_pos (places.start _), behind]
    exact passScale_write e? stops

/-- A number is passed over whatever its size. -/
theorem passNumber_write (n : Numeral) (stops : Stops rest) :
    passNumber (n.writeMagnitude ++ rest) = .ok rest := by
  have stop := stop_writePlaces n.places n.exponent stops
  have pass := passFraction_write n.places n.exponent stops
  have behind := dropWhile_digits n.isWhole.isDigit stop
  have isWhole := n.isWhole
  rw [Numeral.writeMagnitude, List.append_assoc, List.append_assoc]
  obtain ⟨c, cs, isChars⟩ := List.exists_cons_of_ne_nil isWhole.ne_nil
  rw [isChars] at isWhole behind ⊢
  rw [List.cons_append] at behind ⊢
  have first : c.isDigit = true := isWhole.isDigit c List.mem_cons_self
  generalize Numeral.writePlaces n.places ++ (Numeral.writeExponent n.exponent ++ rest) = cs' at *
  unfold passNumber
  split
  · rename_i isZero
    obtain ⟨rfl, rfl⟩ := List.cons.inj isZero
    -- a leading zero is the only digit
    obtain rfl := isWhole.lead cs rfl
    rw [List.nil_append, stop, if_neg Bool.false_ne_true, pass]
  · show (if c.isDigit then _ else _) = _
    rw [if_pos first, behind, pass]

end DeadReckoning.Json
