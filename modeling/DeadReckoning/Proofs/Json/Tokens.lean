import DeadReckoning.Proofs.Json.Phrases

namespace DeadReckoning.Json

/-!
# Tokens — what is accepted was written by the grammar

The converse of the lemmas on what the texts of the grammar are read as. A reader that accepts a
token has a token of the grammar before it, with the text that it leaves behind that token. A
number that is read could also be passed over, so that only passing has to be looked at.

* `exists_of_bind_ok` — a computation in steps that comes to an end
* `exists_space`, `eq_of_readWord` — white space and words
* `Spelled` — the characters of a string up to its quote
* `exists_glyphs_of_readText`, `exists_glyphs_of_passText` — strings
* `passNumber_of_readMagnitude` — a number that is read could be passed over
* `exists_numeral_of_readNumber`, `exists_numeral_of_passNumber` — numbers
-/

variable {cs rest : List Char}

/-- If a computation comes to an end, so does its first step. -/
theorem exists_of_bind_ok {ε α β : Type} {step : Except ε α} {f : α → Except ε β} {b : β}
    (h : (step >>= f) = .ok b) : ∃ a, step = .ok a ∧ f a = .ok b := by
  cases step with
  | error e => cases h
  | ok a => exact ⟨a, rfl, h⟩

/-! ### White space and words -/

/-- What is passed over before a token is white space. -/
theorem exists_space (cs : List Char) : ∃ blank : Space, cs = blank.chars ++ skipSpace cs :=
  ⟨⟨cs.takeWhile isSpace, fun _ mem => List.mem_takeWhile_imp mem⟩,
    List.takeWhile_append_dropWhile.symm⟩

/-- What was skipped is white space. -/
theorem exists_space_of_skipSpace {c : Char} (h : skipSpace cs = c :: rest) :
    ∃ blank : Space, cs = blank.chars ++ c :: rest := by
  obtain ⟨blank, isText⟩ := exists_space cs
  exact ⟨blank, by rw [← h, ← isText]⟩

/-- A word is spelled out. -/
theorem eq_of_readWord {letters : List Char} (h : readWord letters cs = .ok rest) :
    cs = letters ++ rest := by
  induction letters generalizing cs with
  | nil =>
    rw [readWord] at h
    exact Except.ok.inj h
  | cons l letters ih =>
    cases cs with
    | nil => cases h
    | cons c cs =>
      rw [readWord] at h
      split at h
      · rename_i same
        rw [same, ih h, List.cons_append]
      · cases h

/-! ### Strings -/

/-- After so many characters that are passed over, the characters of a string stand up to its
quote. -/
def Spelled (skip : ℕ) (cs rest : List Char) : Prop :=
  ∃ (skipped : List Char) (s : List Glyph), skipped.length = skip ∧
    cs = skipped ++ (Glyph.writeAll s ++ '"' :: rest)

namespace Spelled

theorem quote (rest : List Char) : Spelled 0 ('"' :: rest) rest := ⟨[], [], rfl, rfl⟩

theorem skip {k : ℕ} (c : Char) (h : Spelled k cs rest) : Spelled (k + 1) (c :: cs) rest := by
  obtain ⟨skipped, s, rfl, rfl⟩ := h
  exact ⟨c :: skipped, s, rfl, rfl⟩

theorem plain {c : Char} (isPlain : IsPlain c) (h : Spelled 0 cs rest) :
    Spelled 0 (c :: cs) rest := by
  obtain ⟨skipped, s, none, rfl⟩ := h
  obtain rfl := List.length_eq_zero_iff.mp none
  exact ⟨[], .plain c isPlain :: s, rfl, rfl⟩

/-- The characters that an escape spans are those that are passed over behind its backslash. -/
theorem escape {length : ℕ} {t : List Glyph} (isEscape : '\\' :: cs.take length = Glyph.writeAll t)
    (h : Spelled length cs rest) : Spelled 0 ('\\' :: cs) rest := by
  obtain ⟨skipped, s, rfl, rfl⟩ := h
  rw [List.take_left] at isEscape
  refine ⟨[], t ++ s, rfl, ?_⟩
  have isText : Glyph.writeAll (t ++ s) = Glyph.writeAll t ++ Glyph.writeAll s :=
    List.flatMap_append
  rw [List.nil_append, isText, ← isEscape, List.cons_append, List.cons_append, List.append_assoc]

/-- What is spelled are glyphs up to a quote. -/
theorem exists_glyphs (h : Spelled 0 cs rest) : ∃ s, cs = Glyph.writeAll s ++ '"' :: rest := by
  obtain ⟨skipped, s, none, rfl⟩ := h
  obtain rfl := List.length_eq_zero_iff.mp none
  exact ⟨s, rfl⟩

end Spelled

/-- A unit is four hexadecimal digits. -/
theorem exists_digits_of_hexUnit {n : ℕ} (h : hexUnit cs = .ok n) :
    ∃ (a b c d : HexDigit) (behind : List Char),
      cs = a.char :: b.char :: c.char :: d.char :: behind := by
  unfold hexUnit at h
  split at h
  · rename_i v₁ v₂ v₃ v₄ values
    have four := length_of_mapM_eq_some values
    -- fewer than four characters do not make a unit
    obtain _ | ⟨a, _ | ⟨b, _ | ⟨c, _ | ⟨d, behind⟩⟩⟩⟩ := cs
    · cases four
    · cases four
    · cases four
    · cases four
    simp only [List.take_succ_cons, List.take_zero, List.mapM_cons, List.mapM_nil,
      Option.bind_eq_bind, Option.bind_eq_some_iff, Option.pure_def, Option.some.injEq,
      List.cons.injEq] at values
    obtain ⟨_, isA, _, ⟨_, isB, _, ⟨_, isC, _, ⟨_, isD, -⟩, -⟩, -⟩, -⟩ := values
    exact ⟨⟨a, _, isA⟩, ⟨b, _, isB⟩, ⟨c, _, isC⟩, ⟨d, _, isD⟩, behind, rfl⟩
  · cases h

/-- So is the second half of a pair, behind its backslash. -/
theorem exists_digits_of_pairedUnit {n : ℕ} (h : pairedUnit cs = .ok n) :
    ∃ (a b c d : HexDigit) (behind : List Char),
      cs = '\\' :: 'u' :: a.char :: b.char :: c.char :: d.char :: behind := by
  unfold pairedUnit at h
  split at h
  · cases h
  · cases h
  · obtain ⟨n, unit, -⟩ := exists_of_bind_ok h
    obtain ⟨a, b, c, d, behind, rfl⟩ := exists_digits_of_hexUnit unit
    exact ⟨a, b, c, d, behind, rfl⟩
  · cases h

/-- An escape that is decoded is one character of the grammar, or two for a pair. -/
theorem exists_glyphs_of_escapeAt {d : Char} {length : ℕ} (h : escapeAt cs = .ok (d, length)) :
    ∃ t, '\\' :: cs.take length = Glyph.writeAll t := by
  unfold escapeAt at h
  split at h
  · cases h
  · obtain ⟨n, unit, last⟩ := exists_of_bind_ok h
    obtain ⟨a, b, c, d, behind, rfl⟩ := exists_digits_of_hexUnit unit
    split at last
    · cases last
    · split at last
      · obtain ⟨m, paired, last⟩ := exists_of_bind_ok last
        -- the first half of a pair takes the second one with it
        obtain ⟨a', b', c', d', more, isPair⟩ := exists_digits_of_pairedUnit paired
        have isPair : behind = _ := isPair
        obtain ⟨-, rfl⟩ := Prod.mk.inj (Except.ok.inj last)
        rw [isPair]
        exact ⟨[.unit a b c d, .unit a' b' c' d'], rfl⟩
      · cases last
        exact ⟨[.unit a b c d], rfl⟩
  · split at h
    · rename_i isEscape
      cases h
      exact ⟨[.letter _ _ isEscape], rfl⟩
    · cases h

/-- So is an escape of which only the length is found. -/
theorem exists_glyphs_of_escapeLength {length : ℕ} (h : escapeLength cs = .ok length) :
    ∃ t, '\\' :: cs.take length = Glyph.writeAll t := by
  unfold escapeLength at h
  split at h
  · cases h
  · obtain ⟨n, unit, last⟩ := exists_of_bind_ok h
    obtain ⟨a, b, c, d, behind, rfl⟩ := exists_digits_of_hexUnit unit
    cases last
    exact ⟨[.unit a b c d], rfl⟩
  · split at h
    · rename_i isEscape
      obtain ⟨d, isEscape⟩ := Option.isSome_iff_exists.mp isEscape
      cases h
      exact ⟨[.letter _ d isEscape], rfl⟩
    · cases h

/-- Characters that are read are those of a string, behind what is passed over. -/
theorem spelled_of_readChars {skip : ℕ} {ds : List Char}
    (h : readChars skip cs = .ok (ds, rest)) : Spelled skip cs rest := by
  -- the induction is on the characters, of which some are passed over as parts of an escape
  induction cs generalizing skip ds with
  | nil => cases skip <;> cases h
  | cons c cs ih =>
    cases skip with
    | succ skip => exact (ih h).skip c
    | zero =>
      rw [readChars] at h
      split at h
      · rename_i isQuote
        cases h
        rw [isQuote]
        exact .quote _
      · rename_i notQuote
        split at h
        · rename_i isBackslash
          obtain ⟨⟨d, length⟩, isEscape, h⟩ := exists_of_bind_ok h
          obtain ⟨⟨ds, behind⟩, others, h⟩ := exists_of_bind_ok h
          obtain ⟨t, isEscape⟩ := exists_glyphs_of_escapeAt isEscape
          cases h
          rw [isBackslash]
          exact (ih others).escape isEscape
        · rename_i notBackslash
          split at h
          · cases h
          · rename_i notControl
            obtain ⟨⟨ds, behind⟩, others, h⟩ := exists_of_bind_ok h
            cases h
            exact (ih others).plain ⟨notQuote, notBackslash, Nat.not_lt.mp notControl⟩

/-- A string that is read is one of the grammar. -/
theorem exists_glyphs_of_readText {text : String} (h : readText cs = .ok (text, rest)) :
    ∃ s, cs = Glyph.writeAll s ++ '"' :: rest := by
  obtain ⟨⟨ds, behind⟩, chars, h⟩ := exists_of_bind_ok h
  cases h
  exact (spelled_of_readChars chars).exists_glyphs

/-- What is passed over as a string is spelled as one. -/
theorem spelled_of_passChars {skip : ℕ} (h : passChars skip cs = .ok rest) :
    Spelled skip cs rest := by
  induction cs generalizing skip with
  | nil => cases skip <;> cases h
  | cons c cs ih =>
    cases skip with
    | succ skip => exact (ih h).skip c
    | zero =>
      rw [passChars] at h
      split at h
      · rename_i isQuote
        cases h
        rw [isQuote]
        exact .quote _
      · rename_i notQuote
        split at h
        · rename_i isBackslash
          obtain ⟨length, isEscape, others⟩ := exists_of_bind_ok h
          obtain ⟨t, isEscape⟩ := exists_glyphs_of_escapeLength isEscape
          rw [isBackslash]
          exact (ih others).escape isEscape
        · rename_i notBackslash
          split at h
          · cases h
          · rename_i notControl
            exact (ih h).plain ⟨notQuote, notBackslash, Nat.not_lt.mp notControl⟩

/-- A string that is passed over is one of the grammar. -/
theorem exists_glyphs_of_passText (h : passText cs = .ok rest) :
    ∃ s, cs = Glyph.writeAll s ++ '"' :: rest :=
  (spelled_of_passChars h).exists_glyphs

/-! ### Numbers that are read -/

variable {negative : Bool} {s taken : ℕ} {k : ℤ} {x : Float}

/-- Where gathering stops within digits, the others follow. -/
theorem dropWhile_gather (s taken : ℕ) (cs : List Char) :
    (gather s taken cs).2.2.dropWhile Char.isDigit = cs.dropWhile Char.isDigit := by
  induction cs generalizing s taken with
  | nil => rfl
  | cons c cs ih =>
    rw [gather]
    split
    · rename_i fits
      rw [Bool.and_eq_true] at fits
      rw [ih, List.dropWhile_cons_of_pos fits.1]
    · rfl

/-- Where a reader insists on a digit, the text starts with one. -/
theorem startsWithDigit_of_not {c : Char} (digit : ¬(!c.isDigit) = true) (cs : List Char) :
    startsWithDigit (c :: cs) = true := by
  show c.isDigit = true
  rwa [Bool.not_eq_true, Bool.not_eq_false'] at digit

/-- An exponent is looked at for its size only after its digits were found. -/
theorem passExponent_of_readExponent (h : readExponent negative s k cs = .ok (x, rest)) :
    passExponent cs = .ok rest := by
  unfold readExponent at h
  unfold passExponent
  generalize takeSign cs = sign at h ⊢
  obtain ⟨down, ds⟩ := sign
  dsimp only at h ⊢
  split at h
  · cases h
  · split at h
    · cases h
    · rename_i digit
      -- the size of the exponent decides on the value only, and here there is one
      rw [if_pos (startsWithDigit_of_not digit _)]
      split at h
      · obtain ⟨y, -, last⟩ := exists_of_bind_ok h
        cases last
        rfl
      · split at h
        · cases h
        · cases h
          rfl

/-- What is read as an exponent is passed over as one. -/
theorem passScale_of_readScale (h : readScale negative s k cs = .ok (x, rest)) :
    passScale cs = .ok rest := by
  unfold passScale
  split
  · exact passExponent_of_readExponent h
  · exact passExponent_of_readExponent h
  · rename_i noLower noUpper
    unfold readScale at h
    split at h
    · exact absurd rfl (noLower _)
    · exact absurd rfl (noUpper _)
    · obtain ⟨y, -, last⟩ := exists_of_bind_ok h
      cases last
      rfl

/-- What is read as places and exponent is passed over as such. -/
theorem passFraction_of_readFraction {shift : ℕ}
    (h : readFraction negative s shift cs = .ok (x, rest)) : passFraction cs = .ok rest := by
  unfold passFraction
  split
  · rename_i cs
    have h : readPlaces negative s shift cs = .ok (x, rest) := h
    unfold readPlaces at h
    split at h
    · cases h
    · split at h
      · cases h
      · rename_i digit
        -- digits that were not gathered are dropped in both
        rw [if_pos (startsWithDigit_of_not digit _), ← dropWhile_gather s 0]
        exact passScale_of_readScale h
  · rename_i noPoint
    unfold readFraction at h
    split at h
    · exact absurd rfl (noPoint _)
    · exact passScale_of_readScale h

/-- Nothing is passed over where there are no places and no exponent. -/
theorem passFraction_of_not (none : ¬startsWithFraction cs = true) : passFraction cs = .ok cs := by
  unfold passFraction
  split
  · exact absurd rfl none
  · unfold passScale
    split
    · exact absurd rfl none
    · exact absurd rfl none
    · rfl

/-- What follows a whole part is read as a fraction, or is not a part of the number. -/
theorem passFraction_of_read {shift : ℕ} {n : Number} {m : Number}
    (h : (if startsWithFraction cs then do
        let (x, rest) ← readFraction negative s shift cs
        return (.real x, rest)
      else return (m, cs) : Except Fault (Number × List Char)) = .ok (n, rest)) :
    passFraction cs = .ok rest := by
  split at h
  · obtain ⟨⟨x, behind⟩, read, last⟩ := exists_of_bind_ok h
    cases last
    exact passFraction_of_readFraction read
  · rename_i none
    cases h
    exact passFraction_of_not none

/-- What is left of a text without the characters at its start. -/
theorem drop_takeWhile (cs : List Char) :
    cs.drop (cs.takeWhile Char.isDigit).length = cs.dropWhile Char.isDigit := by
  induction cs with
  | nil => rfl
  | cons c cs ih =>
    cases digit : c.isDigit with
    | true =>
      rw [List.takeWhile_cons_of_pos digit, List.dropWhile_cons_of_pos digit, ← ih]
      rfl
    | false =>
      rw [List.takeWhile_cons_of_neg (by rw [digit]; exact Bool.false_ne_true),
        List.dropWhile_cons_of_neg (by rw [digit]; exact Bool.false_ne_true)]
      rfl

/-- A number that is read could be passed over. -/
theorem passNumber_of_readMagnitude {n : Number}
    (h : readMagnitude negative cs = .ok (n, rest)) : passNumber cs = .ok rest := by
  unfold readMagnitude at h
  split at h
  · cases h
  · split at h
    · cases h
    · rename_i digit
      rw [passNumber, if_neg digit]
      exact passFraction_of_read h
  · rename_i c cs noZero
    split at h
    · cases h
    · rename_i digit
      have start := startsWithDigit_of_not digit cs
      have pass : passNumber (c :: cs) = passFraction ((c :: cs).dropWhile Char.isDigit) := by
        unfold passNumber
        split
        · rename_i isZero
          cases isZero
          exact (noZero rfl).elim
        · rw [if_pos start]
      rw [pass, ← dropWhile_gather 0 0]
      generalize gather 0 0 (c :: cs) = gathered at h ⊢
      obtain ⟨s, taken, behind⟩ := gathered
      dsimp only at h ⊢
      split at h
      · obtain ⟨⟨x, more⟩, read, last⟩ := exists_of_bind_ok h
        cases last
        rw [drop_takeWhile] at read
        exact passFraction_of_readFraction read
      · rename_i stop
        rw [dropWhile_of_stop (by simpa using stop)]
        exact passFraction_of_read h

/-! ### Numbers that are passed over -/

/-- Digits that are passed over. -/
theorem exists_digits (start : startsWithDigit cs = true) :
    ∃ ds : Digits, cs = ds.chars ++ cs.dropWhile Char.isDigit := by
  refine ⟨⟨cs.takeWhile Char.isDigit, fun _ mem => List.mem_takeWhile_imp mem, ?_⟩,
    List.takeWhile_append_dropWhile.symm⟩
  cases cs with
  | nil => cases start
  | cons c cs =>
    have digit : c.isDigit = true := start
    rw [List.takeWhile_cons_of_pos digit]
    exact List.cons_ne_nil _ _

/-- Whatever is taken as a sign is written as one. -/
theorem exists_sign (cs : List Char) :
    ∃ sign, cs = Exponent.writeSign sign ++ (takeSign cs).2 := by
  unfold takeSign
  split
  · exact ⟨some true, rfl⟩
  · exact ⟨some false, rfl⟩
  · exact ⟨none, rfl⟩

/-- What is passed over behind the `e` are a sign and digits. -/
theorem exists_exponent_of_passExponent (h : passExponent cs = .ok rest) :
    ∃ (sign : Option Bool) (ds : Digits), cs = Exponent.writeSign sign ++ (ds.chars ++ rest) := by
  obtain ⟨sign, isText⟩ := exists_sign cs
  unfold passExponent at h
  dsimp only at h
  split at h
  · rename_i start
    obtain ⟨ds, isDigits⟩ := exists_digits start
    cases h
    exact ⟨sign, ds, by rw [← isDigits, ← isText]⟩
  · cases h

/-- What is passed over as an exponent is written as one, or is nothing. -/
theorem exists_exponent_of_passScale (h : passScale cs = .ok rest) :
    ∃ e?, cs = Numeral.writeExponent e? ++ rest := by
  have text {letter : Char} (isLetter : letter = 'e' ∨ letter = 'E') (sign : Option Bool)
      (ds : Digits) : letter :: (Exponent.writeSign sign ++ (ds.chars ++ rest)) =
        Numeral.writeExponent (some ⟨letter, isLetter, sign, ds⟩) ++ rest := by
    rw [← List.append_assoc]
    rfl
  unfold passScale at h
  split at h
  · obtain ⟨sign, ds, rfl⟩ := exists_exponent_of_passExponent h
    exact ⟨_, text (.inl rfl) sign ds⟩
  · obtain ⟨sign, ds, rfl⟩ := exists_exponent_of_passExponent h
    exact ⟨_, text (.inr rfl) sign ds⟩
  · cases h
    exact ⟨none, rfl⟩

/-- What is passed over behind the whole digits are places and an exponent, either of which may be
missing. -/
theorem exists_places_of_passFraction (h : passFraction cs = .ok rest) :
    ∃ places? e?, cs = Numeral.writePlaces places? ++ (Numeral.writeExponent e? ++ rest) := by
  unfold passFraction at h
  split at h
  · split at h
    · rename_i start
      obtain ⟨places, isPlaces⟩ := exists_digits start
      obtain ⟨e?, isExponent⟩ := exists_exponent_of_passScale h
      refine ⟨some places, e?, ?_⟩
      rw [← isExponent]
      exact congrArg ('.' :: ·) isPlaces
    · cases h
  · obtain ⟨e?, isExponent⟩ := exists_exponent_of_passScale h
    exact ⟨none, e?, isExponent⟩

/-- A number that is passed over, without its sign, is one of the grammar. -/
theorem exists_numeral_of_passNumber (h : passNumber cs = .ok rest) (negative : Bool) :
    ∃ n : Numeral, n.negative = negative ∧ cs = n.writeMagnitude ++ rest := by
  -- places and exponent are those of the grammar, whatever whole part they follow
  have numeral {whole : List Char} (isWhole : IsWhole whole) {behind : List Char}
      (pass : passFraction behind = .ok rest) :
      ∃ n : Numeral, n.negative = negative ∧ whole ++ behind = n.writeMagnitude ++ rest := by
    obtain ⟨places?, e?, rfl⟩ := exists_places_of_passFraction pass
    refine ⟨⟨negative, whole, isWhole, places?, e?⟩, rfl, ?_⟩
    rw [Numeral.writeMagnitude, List.append_assoc, List.append_assoc]
  unfold passNumber at h
  split at h
  · split at h
    · cases h
    · have isWhole : IsWhole ['0'] := ⟨by simp, by simp, by simp⟩
      exact numeral isWhole h
  · rename_i noZero
    split at h
    · rename_i start
      obtain ⟨ds, isDigits⟩ := exists_digits start
      have isWhole : IsWhole ds.chars := by
        -- a leading zero would have been taken alone
        refine ⟨ds.isDigit, ds.ne_nil, fun others isZero => ?_⟩
        rw [isZero] at isDigits
        exact (noZero _ isDigits).elim
      obtain ⟨n, isSign, isText⟩ := numeral isWhole h
      exact ⟨n, isSign, isDigits.trans isText⟩
    · cases h

/-- A number that is read is one of the grammar. -/
theorem exists_numeral_of_readNumber {n : Number} (h : readNumber cs = .ok (n, rest)) :
    ∃ numeral : Numeral, cs = numeral.write ++ rest := by
  unfold readNumber at h
  split at h
  · obtain ⟨numeral, isSign, rfl⟩ :=
      exists_numeral_of_passNumber (passNumber_of_readMagnitude h) true
    exact ⟨numeral, by rw [Numeral.write, isSign]; rfl⟩
  · obtain ⟨numeral, isSign, rfl⟩ :=
      exists_numeral_of_passNumber (passNumber_of_readMagnitude h) false
    exact ⟨numeral, by rw [Numeral.write, isSign]; rfl⟩

end DeadReckoning.Json
