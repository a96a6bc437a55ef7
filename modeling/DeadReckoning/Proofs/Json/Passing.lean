import DeadReckoning.Proofs.Json.Numerals

namespace DeadReckoning.Json

/-!
# Values that are passed over

A value of the grammar can be passed over however deep it is nested, whatever the size of its
numbers, and whatever its escapes stand for. The stack of open arrays and objects is then as it was,
and no more steps are taken than twice the characters that are passed.

* `IsPassed` — a value that is passed over in so many steps
* `Enters` — the start of an element or a member
* `passContents` — what stands in an array or an object is passed over
* `isPassed` — so is every value
* `passValue_write` — the budget that is given suffices
-/

variable {budget : ℕ} {e : Enclosure} {outer : List Enclosure} {c : Char} {rest cs : List Char}

/-! ### Names and tokens -/

/-- A name is passed over with its colon. -/
theorem passKey_write (before after : Space) (s : List Glyph) (cs : List Char) :
    passKey (before.chars ++ '"' :: (Glyph.writeAll s ++ '"' :: (after.chars ++ ':' :: cs))) =
      .ok cs := by
  rw [passKey, skipSpace_space]
  exact (bind_of_ok (passText_write s _)).trans (readColon_write after cs)

/-- White space in front of a token does not matter. -/
theorem passToken_space (blank : Space) (cs : List Char) :
    passToken (blank.chars ++ cs) = passToken cs := by
  rw [passToken, skipSpace_space, passToken]

/-- A digit is the start of a number. -/
theorem passToken_digit (digit : c.isDigit = true) (cs : List Char) :
    passToken (c :: cs) = do return (none, ← passNumber (c :: cs)) := by
  have number : isNumberStart c := by rw [isNumberStart, digit, Bool.or_true]
  unfold passToken
  rw [skipSpace_cons (isSpace_of_isNumberStart number)]
  -- words, texts, arrays, objects and minus start with characters of their own
  split
  · rename_i isEnd
    cases isEnd
  · rename_i isWord
    exact absurd (List.cons.inj isWord).1 (ne_of_isNumberStart number rfl)
  · rename_i isWord
    exact absurd (List.cons.inj isWord).1 (ne_of_isNumberStart number rfl)
  · rename_i isWord
    exact absurd (List.cons.inj isWord).1 (ne_of_isNumberStart number rfl)
  · rename_i isMinus
    rw [(List.cons.inj isMinus).1] at digit
    cases digit
  · rename_i isQuote
    exact absurd (List.cons.inj isQuote).1 (ne_of_isNumberStart number rfl)
  · rename_i isBracket
    exact absurd (List.cons.inj isBracket).1 (ne_of_isNumberStart number rfl)
  · rename_i isBrace
    exact absurd (List.cons.inj isBrace).1 (ne_of_isNumberStart number rfl)
  · rename_i isFirst
    obtain ⟨rfl, rfl⟩ := List.cons.inj isFirst
    rw [if_pos digit]

/-- A number is one token. -/
theorem passToken_number (n : Numeral) (stops : Stops rest) :
    passToken (n.write ++ rest) = .ok (none, rest) := by
  have pass := passNumber_write n stops
  rw [Numeral.write]
  cases n.negative with
  | true => exact bind_of_ok pass
  | false =>
    obtain ⟨c, cs, isWhole⟩ := List.exists_cons_of_ne_nil n.isWhole.ne_nil
    have mem : c ∈ n.whole := isWhole ▸ List.mem_cons_self
    have digit : c.isDigit = true := n.isWhole.isDigit c mem
    rw [if_neg Bool.false_ne_true]
    rw [Numeral.writeMagnitude, isWhole, List.cons_append, List.cons_append] at pass ⊢
    rw [passToken_digit digit]
    exact bind_of_ok pass

/-- A string is one token. -/
theorem passToken_text (s : List Glyph) (rest : List Char) :
    passToken (Glyph.writeText s ++ rest) = .ok (none, rest) := by
  rw [Glyph.writeText_append]
  exact bind_of_ok (passText_write s rest)

/-! ### Steps -/

/-- Behind a value that encloses nothing the enclosure around it goes on. -/
theorem passOpen_token (budget : ℕ) (stack : List Enclosure)
    (token : passToken cs = .ok (none, rest)) :
    passOpen (budget + 1) .value stack cs = passOpen budget .closed stack rest := by
  rw [passOpen]
  exact bind_of_ok token

/-- A bracket or brace opens an enclosure inside the others. -/
theorem passOpen_enclosure (budget : ℕ) (stack : List Enclosure)
    (token : passToken cs = .ok (some e, rest)) :
    passOpen (budget + 1) .value stack cs = passOpen budget .opened (e :: stack) rest := by
  rw [passOpen]
  exact bind_of_ok token

/-- What is done next in an array or object: with `first` after its opening, else after a value. -/
def within (first : Bool) : Pass := if first then .opened else .closed

/-- The closer of the innermost enclosure takes it away. -/
theorem passOpen_closer (budget : ℕ) (first : Bool) (blank : Space) (e : Enclosure)
    (outer : List Enclosure) (rest : List Char) :
    passOpen (budget + 1) (within first) (e :: outer) (blank.chars ++ e.closer :: rest) =
      passOpen budget .closed outer rest := by
  have closer : skipSpace (blank.chars ++ e.closer :: rest) = e.closer :: rest := by
    rw [skipSpace_space]
    cases e with
    | array => rfl
    | object => rfl
  cases first with
  | true =>
    show passOpen (budget + 1) .opened (e :: outer) _ = _
    rw [passOpen, closer]
    exact if_pos rfl
  | false =>
    show passOpen (budget + 1) .closed (e :: outer) _ = _
    rw [passOpen, closer]
    exact if_pos rfl

/-- What stands in front of the first value in an array or object. -/
theorem passOpen_first (budget : ℕ) (outer : List Enclosure) {front behind : List Char}
    (starts : skipSpace front = c :: cs) (noEnd : c ≠ e.closer)
    (pass : (if e = .object then passKey (c :: cs) else pure (c :: cs)) = .ok behind) :
    passOpen (budget + 1) .opened (e :: outer) front =
      passOpen budget .value (e :: outer) behind := by
  rw [passOpen, starts]
  show (if c = e.closer then _ else _) = _
  rw [if_neg noEnd]
  cases e with
  | array => exact bind_of_ok pass
  | object => exact bind_of_ok pass

/-- What stands in front of the other values. -/
theorem passOpen_next (budget : ℕ) (outer : List Enclosure) {front behind : List Char}
    (starts : skipSpace front = ',' :: cs)
    (pass : (if e = .object then passKey cs else pure cs) = .ok behind) :
    passOpen (budget + 1) .closed (e :: outer) front =
      passOpen budget .value (e :: outer) behind := by
  have noEnd : ',' ≠ e.closer := by
    cases e with
    | array => decide
    | object => decide
  rw [passOpen, starts]
  show (if ',' = e.closer then _ else if ',' = ',' then _ else _) = _
  rw [if_neg noEnd, if_pos rfl]
  cases e with
  | array => exact bind_of_ok pass
  | object => exact bind_of_ok pass

/-! ### Arrays and objects -/

/-- At the start of an element or member the value in it comes next. -/
def Enters (e : Enclosure) (text : List Char) (value : Padded Phrase) : Prop :=
  ∀ (first : Bool) (blank : Space) (outer : List Enclosure) (cs : List Char),
    ∃ before : Space, ∀ budget,
      passOpen (budget + 1) (within first) (e :: outer)
          (blank.chars ++ ((if first then text else ',' :: text) ++ cs)) =
        passOpen budget .value (e :: outer)
          (before.chars ++ (value.content.write ++ (value.after.chars ++ cs)))

/-- An element leads to its value. -/
theorem enters_item (item : Padded Phrase) : Enters .array (item.write Phrase.write) item := by
  intro first blank outer cs
  cases first with
  | true =>
    -- the first element stands right behind the bracket, so that the space in front of it is
    -- skipped with the blank
    obtain ⟨c, ds, isText, noSpace, noEnd⟩ := item.content.exists_cons
    have starts : skipSpace (blank.chars ++ (item.write Phrase.write ++ cs)) =
        c :: (ds ++ (item.after.chars ++ cs)) := by
      rw [Padded.write_append, skipSpace_space, skipSpace_space, isText, List.cons_append,
        skipSpace_cons noSpace]
    rw [isText]
    exact ⟨.none, fun budget => passOpen_first budget outer starts noEnd rfl⟩
  | false =>
    have starts : skipSpace (blank.chars ++ ',' :: (item.write Phrase.write ++ cs)) =
        ',' :: (item.write Phrase.write ++ cs) := skipSpace_space _ _
    refine ⟨item.before, fun budget => ?_⟩
    rw [← Padded.write_append Phrase.write item cs]
    exact passOpen_next budget outer starts rfl

/-- A member leads to its value, past the name and the colon. -/
theorem enters_entry (entry : Entry Phrase) :
    Enters .object (entry.write Phrase.write) entry.value := by
  intro first blank outer cs
  have pass (before : Space) := passKey_write before entry.name.after entry.name.content
    (entry.value.write Phrase.write ++ cs)
  refine ⟨entry.value.before, fun budget => ?_⟩
  rw [Padded.write_append] at pass
  -- the first member has no comma in front
  cases first with
  | true =>
    have starts : skipSpace (blank.chars ++ (entry.write Phrase.write ++ cs)) =
        '"' :: (Glyph.writeAll entry.name.content ++ '"' :: (entry.name.after.chars ++
          ':' :: (entry.value.write Phrase.write ++ cs))) := by
      rw [Entry.write_append, skipSpace_space, skipSpace_space]
      rfl
    rw [Padded.write_append] at starts
    exact passOpen_first (e := .object) budget outer starts (by decide) (pass .none)
  | false =>
    have starts : skipSpace (blank.chars ++ ',' :: (entry.write Phrase.write ++ cs)) =
        ',' :: (entry.write Phrase.write ++ cs) := skipSpace_space _ _
    refine passOpen_next (e := .object) budget outer starts ?_
    rw [Entry.write_append, Padded.write_append]
    exact pass entry.name.before

/-- A value that is passed over in at most so many steps as it has characters, twice. -/
def IsPassed (phrase : Phrase) : Prop :=
  ∀ (stack : List Enclosure) (blank : Space) (rest : List Char), Stops rest →
    ∃ steps, steps + 1 ≤ 2 * phrase.write.length ∧ ∀ budget,
      passOpen (budget + steps) .value stack (blank.chars ++ (phrase.write ++ rest)) =
        passOpen budget .closed stack rest

theorem stops_closer (e : Enclosure) (rest : List Char) : Stops (e.closer :: rest) := by
  cases e with
  | array => exact stops_bracket rest
  | object => exact stops_brace rest

/-- What stands in an array or object is passed over up to its end. -/
theorem passContents {α : Type} {xs : List α} {text : α → List Char} {value : α → Padded Phrase}
    (enters : ∀ x ∈ xs, Enters e (text x) (value x))
    (passes : ∀ x ∈ xs, IsPassed (value x).content)
    (part : ∀ x ∈ xs, (value x).content.write.length ≤ (text x).length)
    (first : Bool) (blank : Space) (outer : List Enclosure) (rest : List Char) :
    ∃ steps, steps ≤ 2 * (itemsText first (xs.map text)).length + 1 ∧ ∀ budget,
      passOpen (budget + steps) (within first) (e :: outer)
          (blank.chars ++ (itemsText first (xs.map text) ++ e.closer :: rest)) =
        passOpen budget .closed outer rest := by
  -- a step enters each value, and a last one closes; the first value has no comma before it
  induction xs generalizing first blank with
  | nil =>
    refine ⟨1, by omega, fun budget => ?_⟩
    rw [List.map_nil, itemsText_nil, List.nil_append, passOpen_closer]
  | cons x xs ih =>
    have stops := stops_space (value x).after (stops_items (xs.map text) (stops_closer e rest))
    obtain ⟨before, enter⟩ := enters x List.mem_cons_self first blank outer
      (itemsText false (xs.map text) ++ e.closer :: rest)
    obtain ⟨one, few, passed⟩ := passes x List.mem_cons_self (e :: outer) before _ stops
    obtain ⟨others, fewer, closed⟩ := ih (fun y mem => enters y (List.mem_cons_of_mem _ mem))
      (fun y mem => passes y (List.mem_cons_of_mem _ mem))
      (fun y mem => part y (List.mem_cons_of_mem _ mem)) false (value x).after
    have shorter := part x List.mem_cons_self
    refine ⟨others + one + 1, ?_, fun budget => ?_⟩
    · rw [List.map_cons, itemsText_cons, List.length_append]
      split
      · omega
      · rw [List.length_cons]
        omega
    · rw [List.map_cons, itemsText_cons, List.append_assoc, ← Nat.add_assoc, ← Nat.add_assoc]
      exact (enter _).trans ((passed _).trans (closed budget))

theorem length_value_le (entry : Entry Phrase) :
    entry.value.content.write.length ≤ (entry.write Phrase.write).length := by
  have part := length_content_le entry.value
  rw [Entry.write, List.length_append, List.length_cons]
  omega

/-- A token takes one step. -/
theorem isPassed_of_token {phrase : Phrase}
    (token : ∀ rest, Stops rest → passToken (phrase.write ++ rest) = .ok (none, rest)) :
    IsPassed phrase := by
  intro stack blank rest stops
  obtain ⟨c, cs, isText, -⟩ := phrase.exists_cons
  refine ⟨1, ?_, fun budget => passOpen_token budget stack ?_⟩
  · rw [isText, List.length_cons]
    omega
  · rw [passToken_space, token rest stops]

/-- An array or object takes a step to open and the steps for what is in it. -/
theorem isPassed_of_contents {α : Type} {phrase : Phrase} (blank : Space) {xs : List α}
    {text : α → List Char} {value : α → Padded Phrase}
    (isText : ∀ rest, passToken (phrase.write ++ rest) =
      .ok (some e, blank.chars ++ (itemsText true (xs.map text) ++ e.closer :: rest)))
    (long : (itemsText true (xs.map text)).length + 2 ≤ phrase.write.length)
    (enters : ∀ x ∈ xs, Enters e (text x) (value x))
    (passes : ∀ x ∈ xs, IsPassed (value x).content)
    (part : ∀ x ∈ xs, (value x).content.write.length ≤ (text x).length) :
    IsPassed phrase := by
  intro stack before rest _
  obtain ⟨steps, few, closed⟩ := passContents enters passes part true blank stack rest
  refine ⟨steps + 1, by omega, fun budget => ?_⟩
  have token := (passToken_space before (phrase.write ++ rest)).trans (isText rest)
  exact (passOpen_enclosure (budget + steps) stack token).trans (closed budget)

/-- Every value is passed over. -/
theorem isPassed (phrase : Phrase) : IsPassed phrase := by
  induction phrase using Phrase.induct with
  | null => exact isPassed_of_token fun rest _ => rfl
  | bool b =>
    cases b with
    | true => exact isPassed_of_token fun rest _ => rfl
    | false => exact isPassed_of_token fun rest _ => rfl
  | number n => exact isPassed_of_token fun rest stops => passToken_number n stops
  | text s => exact isPassed_of_token fun rest _ => passToken_text s rest
  | array blank items ih =>
    -- nothing limits the depth here: what is open is kept on a stack
    refine isPassed_of_contents blank (fun rest => ?_) (Phrase.length_array blank items)
      (fun item _ => enters_item item) ih fun item _ => length_content_le item
    rw [Phrase.write_array_append]
    rfl
  | object blank entries ih =>
    refine isPassed_of_contents blank (fun rest => ?_) (Phrase.length_object blank entries)
      (fun entry _ => enters_entry entry) ih fun entry _ => length_value_le entry
    rw [Phrase.write_object_append]
    rfl

/-- The text after a value. -/
theorem passValue_write (phrase : Phrase) (long : phrase.write.length < budget) (blank : Space)
    (stops : Stops rest) :
    passValue budget (blank.chars ++ (phrase.write ++ rest)) = .ok rest := by
  obtain ⟨steps, few, passed⟩ := isPassed phrase [] blank rest stops
  obtain ⟨left, enough⟩ : ∃ left, 2 * budget = left + 1 + steps :=
    ⟨2 * budget - steps - 1, by omega⟩
  rw [passValue, enough, passed]
  rfl

end DeadReckoning.Json
