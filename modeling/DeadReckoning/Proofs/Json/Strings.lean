import DeadReckoning.Json.Skip
import DeadReckoning.Proofs.Json.Grammar

namespace DeadReckoning.Json

/-!
# Strings — what those of the grammar are read as

A string of the grammar stands for its characters, unless an escape for one half of a pair stands
without the other half. A reader that only passes over it does not look at that.

* `Glyph.decode?`, `Glyph.text?` — the characters that a string stands for
* `Glyph.IsPaired` — no half of a pair stands alone
* `Glyph.isSome_text?_iff` — then the string stands for something
* `readText_write` — it is read as that
* `passText_write` — it is passed over in any case
-/

variable {rest : List Char}

/-! ### What a string stands for -/

namespace Glyph

/-- The number that four hexadecimal digits stand for. -/
def unitValue (a b c d : HexDigit) : ℕ :=
  ((a.value * 16 + b.value) * 16 + c.value) * 16 + d.value

/-- The character of a pair of units. -/
def pairChar (n m : ℕ) : Char := Char.ofNat (0x10000 + (n - 0xd800) * 0x400 + (m - 0xdc00))

/-- The characters of a string; two halves of a pair make one. -/
def decode? : List Glyph → Option (List Char)
  | [] => some []
  | plain c _ :: s => (decode? s).map (c :: ·)
  | letter _ d _ :: s => (decode? s).map (d :: ·)
  | unit a b c d :: s =>
    if isTrailingHalf (unitValue a b c d) then none
    else if isLeadingHalf (unitValue a b c d) then
      match s with
      | unit a' b' c' d' :: s =>
        if isTrailingHalf (unitValue a' b' c' d') then
          (decode? s).map (pairChar (unitValue a b c d) (unitValue a' b' c' d') :: ·)
        else none
      | _ => none
    else (decode? s).map (Char.ofNat (unitValue a b c d) :: ·)

/-- The text of a string whose first character is an escape of one unit. -/
theorem writeAll_unit (a b c d : HexDigit) (s : List Glyph) (cs : List Char) :
    writeAll (unit a b c d :: s) ++ cs =
      '\\' :: 'u' :: a.char :: b.char :: c.char :: d.char :: (writeAll s ++ cs) := rfl

/-- The text that a string stands for. -/
def text? (s : List Glyph) : Option String := (decode? s).map String.ofList

/-- Every half of a pair stands beside its other half. -/
inductive IsPaired : List Glyph → Prop
  | nil : IsPaired []
  | plain {c : Char} {isPlain : IsPlain c} {s : List Glyph} :
    IsPaired s → IsPaired (.plain c isPlain :: s)
  | letter {c d : Char} {isEscape : letterEscape? c = some d} {s : List Glyph} :
    IsPaired s → IsPaired (.letter c d isEscape :: s)
  | unit {a b c d : HexDigit} {s : List Glyph} (whole : ¬isTrailingHalf (unitValue a b c d))
    (alone : ¬isLeadingHalf (unitValue a b c d)) :
    IsPaired s → IsPaired (.unit a b c d :: s)
  | pair {a b c d a' b' c' d' : HexDigit} {s : List Glyph}
    (first : isLeadingHalf (unitValue a b c d)) (second : isTrailingHalf (unitValue a' b' c' d')) :
    IsPaired s → IsPaired (.unit a b c d :: .unit a' b' c' d' :: s)

/-- The first half of a pair is no second half. -/
theorem not_isTrailingHalf_of_isLeadingHalf {n : ℕ} (leading : isLeadingHalf n) :
    ¬isTrailingHalf n := by
  simp only [isLeadingHalf, isTrailingHalf, Bool.and_eq_true, decide_eq_true_eq] at leading ⊢
  omega

/-- A string stands for something if its halves are paired. -/
theorem isSome_decode?_iff (s : List Glyph) : (decode? s).isSome ↔ IsPaired s := by
  constructor
  · intro isSome
    fun_induction decode? s with
    | case1 => exact .nil
    | case2 c isPlain s ih => exact .plain (ih (by simpa using isSome))
    | case3 c d isEscape s ih => exact .letter (ih (by simpa using isSome))
    | case4 => cases isSome
    | case5 a b c d trailing leading a' b' c' d' s second ih =>
      exact .pair leading second (ih (by simpa using isSome))
    | case6 => cases isSome
    | case7 => cases isSome
    | case8 a b c d s trailing leading ih =>
      exact .unit trailing leading (ih (by simpa using isSome))
  · intro paired
    induction paired with
    | nil => rfl
    | plain _ ih => rw [decode?, Option.isSome_map, ih]
    | letter _ ih => rw [decode?, Option.isSome_map, ih]
    | unit whole alone _ ih =>
      unfold decode?
      rw [if_neg whole, if_neg alone, Option.isSome_map, ih]
    | pair first second _ ih =>
      unfold decode?
      rw [if_neg (not_isTrailingHalf_of_isLeadingHalf first), if_pos first]
      dsimp only
      rw [if_pos second, Option.isSome_map, ih]

/-- A string stands for something if each half of a pair has the other beside it. -/
theorem isSome_text?_iff (s : List Glyph) : (text? s).isSome ↔ IsPaired s := by
  rw [text?, Option.isSome_map, isSome_decode?_iff]

end Glyph

/-! ### Reading strings -/

/-- Four hexadecimal digits are read as the number that they stand for. -/
theorem hexUnit_write (a b c d : HexDigit) (cs : List Char) :
    hexUnit (a.char :: b.char :: c.char :: d.char :: cs) = .ok (Glyph.unitValue a b c d) := by
  have values : (List.take 4 (a.char :: b.char :: c.char :: d.char :: cs)).mapM hexValue? =
      some [a.value, b.value, c.value, d.value] := by
    simp [a.isValue, b.isValue, c.isValue, d.isValue]
  rw [hexUnit, values]
  rfl

/-- The characters of an escape are passed over. -/
theorem readChars_skip (skipped cs : List Char) :
    readChars skipped.length (skipped ++ cs) = readChars 0 cs := by
  induction skipped with
  | nil => rfl
  | cons c skipped ih => rw [List.cons_append, List.length_cons, readChars, ih]

/-- What is read after a character goes on behind it. -/
theorem readChars_step {c d : Char} {cs cs' : List Char} {ds? : Option (List Char)}
    (step : readChars 0 (c :: cs) = do
      let (ds, rest) ← readChars 0 cs'
      return (d :: ds, rest))
    (others : (readChars 0 cs').toOption = ds?.map (·, rest)) :
    (readChars 0 (c :: cs)).toOption = (ds?.map (d :: ·)).map (·, rest) := by
  rw [step, toOption_bind_read others]
  cases ds? with
  | none => rfl
  | some ds => rfl

/-- The characters of an escape are passed over. -/
theorem readChars_escape {d : Char} (skipped : List Char) {cs : List Char}
    {ds? : Option (List Char)}
    (escape : escapeAt (skipped ++ cs) = .ok (d, skipped.length))
    (others : (readChars 0 cs).toOption = ds?.map (·, rest)) :
    (readChars 0 ('\\' :: (skipped ++ cs))).toOption = (ds?.map (d :: ·)).map (·, rest) := by
  refine readChars_step ?_ others
  rw [← readChars_skip skipped cs]
  show (escapeAt (skipped ++ cs) >>= _) = _
  exact bind_of_ok escape

/-- A fault in an escape is a fault of the string. -/
theorem readChars_of_error (fault : Fault) {cs : List Char} (escape : escapeAt cs = .error fault) :
    (readChars 0 ('\\' :: cs)).toOption = none := by
  have step : readChars 0 ('\\' :: cs) = .error fault := by
    show (escapeAt cs >>= _) = _
    rw [escape]
    rfl
  rw [step]
  rfl

/-- What an escape of one unit stands for, with the pair that it may begin. -/
theorem escapeAt_unit (a b c d : HexDigit) (cs : List Char) :
    escapeAt ('u' :: a.char :: b.char :: c.char :: d.char :: cs) =
      if isTrailingHalf (Glyph.unitValue a b c d) then .error .strayHalf
      else if isLeadingHalf (Glyph.unitValue a b c d) then do
        let m ← pairedUnit cs
        return (Glyph.pairChar (Glyph.unitValue a b c d) m, 11)
      else .ok (Char.ofNat (Glyph.unitValue a b c d), 5) :=
  bind_of_ok (hexUnit_write a b c d cs)

/-- Behind the first half of a pair only a second half is accepted. -/
theorem pairedUnit_unit (a b c d : HexDigit) (cs : List Char) :
    pairedUnit ('\\' :: 'u' :: a.char :: b.char :: c.char :: d.char :: cs) =
      if isTrailingHalf (Glyph.unitValue a b c d) then .ok (Glyph.unitValue a b c d)
      else .error .strayHalf :=
  bind_of_ok (hexUnit_write a b c d cs)

/-- Only a unit can be the second half of a pair. -/
theorem pairedUnit_of_no_unit {s : List Glyph} (alone : ∀ a b c d s', s ≠ .unit a b c d :: s')
    (rest : List Char) : pairedUnit (Glyph.writeAll s ++ '"' :: rest) = .error .halfPair := by
  cases s with
  | nil => rfl
  | cons glyph s =>
    cases glyph with
    | plain c isPlain =>
      show pairedUnit (c :: (Glyph.writeAll s ++ '"' :: rest)) = _
      unfold pairedUnit
      split
      · rename_i isText
        cases isText
      · -- a plain character is not a backslash
        rename_i isText
        exact absurd (List.cons.inj isText).1 isPlain.2.1
      · rename_i isText
        exact absurd (List.cons.inj isText).1 isPlain.2.1
      · rfl
    | letter c d isEscape =>
      show pairedUnit ('\\' :: c :: (Glyph.writeAll s ++ '"' :: rest)) = _
      unfold pairedUnit
      split
      · rename_i isText
        cases isText
      · rename_i isText
        cases (List.cons.inj isText).2
      · rename_i isText
        obtain ⟨rfl, _⟩ := List.cons.inj (List.cons.inj isText).2
        cases isEscape
      · rfl
    | unit a b c d => exact absurd rfl (alone a b c d s)

/-- A string is read as its characters. -/
theorem readChars_write (s : List Glyph) (rest : List Char) :
    (readChars 0 (Glyph.writeAll s ++ '"' :: rest)).toOption =
      (Glyph.decode? s).map (·, rest) := by
  fun_induction Glyph.decode? s with
  | case1 => rfl
  | case2 c isPlain s ih =>
    show (readChars 0 (c :: (Glyph.writeAll s ++ '"' :: rest))).toOption = _
    refine readChars_step ?_ ih
    rw [readChars, if_neg isPlain.1, if_neg isPlain.2.1, if_neg (Nat.not_lt.mpr isPlain.2.2)]
  | case3 c d isEscape s ih =>
    refine readChars_escape [c] ?_ ih
    show escapeAt (c :: (Glyph.writeAll s ++ '"' :: rest)) = _
    unfold escapeAt
    split
    · rename_i isText
      cases isText
    · rename_i isText
      obtain ⟨rfl, _⟩ := List.cons.inj isText
      cases isEscape
    · rename_i isText
      obtain ⟨rfl, _⟩ := List.cons.inj isText
      rw [isEscape]
      rfl
  | case4 a b c d s trailing =>
    rw [Glyph.writeAll_unit]
    -- a second half without a first one
    refine readChars_of_error .strayHalf ?_
    rw [escapeAt_unit, if_pos trailing]
  | case5 a b c d trailing leading a' b' c' d' s second ih =>
    rw [Glyph.writeAll_unit, Glyph.writeAll_unit]
    refine readChars_escape
      ['u', a.char, b.char, c.char, d.char, '\\', 'u', a'.char, b'.char, c'.char, d'.char]
      ((escapeAt_unit a b c d _).trans ?_) ih
    rw [if_neg trailing, if_pos leading]
    exact bind_of_ok ((pairedUnit_unit a' b' c' d' _).trans (if_pos second))
  | case6 a b c d trailing leading a' b' c' d' s second =>
    rw [Glyph.writeAll_unit, Glyph.writeAll_unit]
    refine readChars_of_error .strayHalf ?_
    rw [escapeAt_unit, if_neg trailing, if_pos leading, pairedUnit_unit, if_neg second]
    rfl
  | case7 a b c d s trailing leading alone =>
    rw [Glyph.writeAll_unit]
    -- a first half without a second one
    refine readChars_of_error .halfPair ?_
    rw [escapeAt_unit, if_neg trailing, if_pos leading,
      pairedUnit_of_no_unit fun a' b' c' d' s' => alone a' b' c' d' s']
    rfl
  | case8 a b c d s trailing leading ih =>
    rw [Glyph.writeAll_unit]
    refine readChars_escape ['u', a.char, b.char, c.char, d.char]
      ((escapeAt_unit a b c d _).trans ?_) ih
    rw [if_neg trailing, if_neg leading]
    rfl

/-- A string is read as the text that it stands for. -/
theorem readText_write (s : List Glyph) (rest : List Char) :
    (readText (Glyph.writeAll s ++ '"' :: rest)).toOption = (Glyph.text? s).map (·, rest) := by
  rw [readText, toOption_bind_read (readChars_write s rest), Glyph.text?]
  cases Glyph.decode? s with
  | none => rfl
  | some ds => rfl

/-! ### Strings that are passed over -/

/-- What is to be skipped is skipped. -/
theorem passChars_skip (skipped cs : List Char) :
    passChars skipped.length (skipped ++ cs) = passChars 0 cs := by
  induction skipped with
  | nil => rfl
  | cons c skipped ih => rw [List.cons_append, List.length_cons, passChars, ih]

/-- An escape is passed over as a whole. -/
theorem passChars_escape (skipped : List Char) {cs : List Char}
    (escape : escapeLength (skipped ++ cs) = .ok skipped.length) :
    passChars 0 ('\\' :: (skipped ++ cs)) = passChars 0 cs := by
  rw [← passChars_skip skipped cs]
  show (escapeLength (skipped ++ cs) >>= _) = _
  exact bind_of_ok escape

/-- A string is passed over whatever its escapes stand for. -/
theorem passText_write (s : List Glyph) (rest : List Char) :
    passText (Glyph.writeAll s ++ '"' :: rest) = .ok rest := by
  show passChars 0 _ = _
  induction s with
  | nil => rfl
  | cons glyph s ih =>
    cases glyph with
    | plain c isPlain =>
      show passChars 0 (c :: (Glyph.writeAll s ++ '"' :: rest)) = _
      rw [passChars, if_neg isPlain.1, if_neg isPlain.2.1, if_neg (Nat.not_lt.mpr isPlain.2.2), ih]
    | letter c d isEscape =>
      refine (passChars_escape [c] ?_).trans ih
      show escapeLength (c :: (Glyph.writeAll s ++ '"' :: rest)) = _
      unfold escapeLength
      split
      · rename_i isText
        cases isText
      · rename_i isText
        obtain ⟨rfl, _⟩ := List.cons.inj isText
        cases isEscape
      · rename_i isText
        obtain ⟨rfl, _⟩ := List.cons.inj isText
        rw [isEscape]
        rfl
    | unit a b c d =>
      -- of a unit the digits are looked at, but not whether it is half of a pair
      refine (passChars_escape ['u', a.char, b.char, c.char, d.char] ?_).trans ih
      exact bind_of_ok (hexUnit_write a b c d _)

end DeadReckoning.Json
