import DeadReckoning.Json.Record
import DeadReckoning.Proofs.Json.Numbers

namespace DeadReckoning.Json

/-!
# Arrays and objects — what is written is read

A writer puts nothing between its tokens, so that a reader finds each token where the one before it
ends.

* `Reads` — a reader takes a text, and no more, for a value
* `readItems_texts`, `readMembers_texts` — the contents of arrays and objects
* `Reads.number`, `Reads.null`, `Reads.word`, `Reads.array`, `Reads.object` — values
-/

variable {α β : Type} {reader : Reader β} {text rest cs : List Char} {x : β} {c : Char}
  {budget : ℕ}

/-! ### Tokens -/

/-- The character starts a value: it is neither white space nor the end of an array. -/
def isStart (c : Char) : Bool := !isSpace c && c != ']'

/-- A reader takes a text for a value, whatever follows, and stops after it. -/
structure Reads (reader : Reader β) (text : List Char) (x : β) : Prop where
  start : text.head?.any isStart
  read : ∀ rest, Stops rest → reader (text ++ rest) = .ok (x, rest)

/-- In front of anything else there is no white space to skip. -/
theorem skipSpace_cons (h : isSpace c = false) (cs : List Char) :
    skipSpace (c :: cs) = c :: cs := by
  rw [skipSpace, List.dropWhile_cons, h]
  rfl

/-- A text that starts a value starts where it stands. -/
theorem exists_cons_of_isStart (start : text.head?.any isStart) :
    ∃ c cs, text = c :: cs ∧ isSpace c = false ∧ c ≠ ']' := by
  cases text with
  | nil => cases start
  | cons c cs =>
    have start : isStart c = true := start
    rw [isStart, Bool.and_eq_true] at start
    exact ⟨c, cs, rfl, by simpa using start.1, by simpa using start.2⟩

/-- Texts that are separated: the first one, and the others with a comma in front. -/
theorem separate_cons (text : List Char) (texts : List (List Char)) :
    separate (text :: texts) = text ++ texts.flatMap (',' :: ·) := by
  induction texts generalizing text with
  | nil => simp [separate]
  | cons next texts ih =>
    have step : separate (text :: next :: texts) = text ++ [','] ++ separate (next :: texts) := by
      simp [separate]
    rw [step, ih, List.flatMap_cons, List.append_assoc]
    rfl

/-- They take at least a comma each, but for the first one. -/
theorem length_texts_le (texts : List (List Char)) :
    texts.length ≤ (separate texts).length + 1 := by
  cases texts with
  | nil => exact Nat.zero_le _
  | cons first others =>
    have commas : others.length ≤ (others.flatMap (',' :: ·)).length := by
      induction others with
      | nil => exact Nat.zero_le _
      | cons next others ih =>
        rw [List.flatMap_cons, List.length_append, List.length_cons, List.length_cons]
        omega
    rw [separate_cons, List.length_append, List.length_cons]
    omega

/-- A comma ends a number. -/
theorem stops_comma (cs : List Char) : Stops (',' :: cs) := ⟨rfl, rfl⟩

theorem stops_bracket (cs : List Char) : Stops (']' :: cs) := ⟨rfl, rfl⟩

theorem stops_brace (cs : List Char) : Stops ('\x7d' :: cs) := ⟨rfl, rfl⟩

/-! ### Arrays -/

/-- The first element stands after the bracket, the others after commas. -/
theorem moreElements_read (start : text.head?.any isStart) (first : Bool) (rest : List Char) :
    moreElements first ((if first then text else ',' :: text) ++ rest) =
      .ok (true, text ++ rest) := by
  obtain ⟨c, cs, rfl, noSpace, noEnd⟩ := exists_cons_of_isStart start
  cases first with
  | true =>
    show moreElements true (c :: (cs ++ rest)) = _
    unfold moreElements
    rw [skipSpace_cons noSpace]
    split
    · rename_i none
      cases none
    · rename_i isEnd
      exact absurd (List.cons.inj isEnd).1 noEnd
    · rename_i isFirst
      obtain ⟨rfl, rfl⟩ := List.cons.inj isFirst
      rfl
  | false =>
    show moreElements false (',' :: c :: (cs ++ rest)) = _
    -- the comma is taken, and the element must not be the end of the array
    have comma : skipSpace (',' :: c :: (cs ++ rest)) = ',' :: c :: (cs ++ rest) := rfl
    unfold moreElements
    rw [comma]
    show (if false then _ else if ',' = ',' then _ else _) = _
    rw [if_neg Bool.false_ne_true, if_pos rfl, skipSpace_cons noSpace]
    split
    · rename_i none
      cases none
    · rename_i isEnd
      exact absurd (List.cons.inj isEnd).1 noEnd
    · rfl

section
variable {write : α → List Char} {f : α → β} {xs : List α}

/-- The contents of an array: with `first` from its bracket on, else from the comma. -/
def itemsText (first : Bool) (texts : List (List Char)) : List Char :=
  if first then separate texts else texts.flatMap (',' :: ·)

@[simp] theorem itemsText_nil (first : Bool) : itemsText first [] = [] := by
  cases first with
  | true => rfl
  | false => rfl

/-- A text in front of others, with a comma unless it is the first. -/
theorem itemsText_cons (first : Bool) (text : List Char) (texts : List (List Char)) :
    itemsText first (text :: texts) =
      (if first then text else ',' :: text) ++ itemsText false texts := by
  cases first with
  | true => exact separate_cons text texts
  | false => rfl

/-- What follows a text in an array or an object ends it. -/
theorem stops_items (texts : List (List Char)) (h : Stops (c :: rest)) :
    Stops (itemsText false texts ++ c :: rest) := by
  cases texts with
  | nil => exact h
  | cons text texts => exact stops_comma _

/-- The elements of an array are read one by one. -/
theorem readItems_texts (h : ∀ x ∈ xs, Reads reader (write x) (f x)) (few : xs.length < budget)
    (first : Bool) (rest : List Char) :
    readItems reader budget first (itemsText first (xs.map write) ++ ']' :: rest) =
      .ok (xs.map f, rest) := by
  -- every element takes one from the budget, and only the first one has no comma before it
  induction xs generalizing budget first with
  | nil =>
    obtain ⟨budget, rfl⟩ : ∃ b, budget = b + 1 := ⟨budget - 1, by simp at few; omega⟩
    cases first <;> rfl
  | cons x xs ih =>
    rw [List.length_cons] at few
    obtain ⟨budget, rfl⟩ : ∃ b, budget = b + 1 := ⟨budget - 1, by omega⟩
    have head := h x List.mem_cons_self
    have few : xs.length < budget := by omega
    have others := ih (fun y mem => h y (List.mem_cons_of_mem _ mem)) few false
    have stops := stops_items (xs.map write) (stops_bracket rest)
    rw [List.map_cons, itemsText_cons, List.append_assoc]
    unfold readItems
    refine (bind_of_ok (moreElements_read head.start first _)).trans ?_
    refine (bind_of_ok (head.read _ stops)).trans ?_
    exact bind_of_ok others

end

/-! ### Objects -/

/-- The name needs no escape. -/
def isPlainName (s : String) : Bool :=
  s.toList.all fun c => c != '"' && c != '\\' && 0x20 ≤ c.toNat

/-- Characters that need no escape are read up to the quote. -/
theorem readChars_plain {ds : List Char}
    (plain : ds.all fun c => c != '"' && c != '\\' && 0x20 ≤ c.toNat) (rest : List Char) :
    readChars 0 (ds ++ '"' :: rest) = .ok (ds, rest) := by
  induction ds with
  | nil => rfl
  | cons d ds ih =>
    rw [List.all_cons, Bool.and_eq_true] at plain
    obtain ⟨first, others⟩ := plain
    simp only [Bool.and_eq_true, bne_iff_ne, decide_eq_true_iff] at first
    rw [List.cons_append, readChars, if_neg first.1.1, if_neg first.1.2, if_neg (by omega),
      ih others]
    rfl

/-- A plain name is read up to its quote. -/
theorem readText_plain {s : String} (plain : isPlainName s) (rest : List Char) :
    readText (s.toList ++ '"' :: rest) = .ok (s, rest) := by
  rw [readText, readChars_plain plain]
  show Except.ok (String.ofList s.toList, rest) = _
  rw [String.ofList_toList]

/-- A member of an object: its name, the text of its value, and the value. -/
structure Member (β : Type) where
  name : String
  text : List Char
  value : β

namespace Member

/-- The text of a member. -/
def write (m : Member β) : List Char := writeMember m.name m.text

/-- The member is read as it was written. -/
structure IsRead (reader : Reader β) (m : Member β) : Prop where
  name : isPlainName m.name
  value : Reads reader m.text m.value

end Member

/-- The name of a member is read up to its colon. -/
theorem nextKey?_read {name : String} (plain : isPlainName name) (first : Bool)
    (text rest : List Char) :
    nextKey? first
        ((if first then writeMember name text else ',' :: writeMember name text) ++ rest) =
      .ok (some name, ':' :: (text ++ rest)) := by
  have key : keyOr .keyNotText (writeMember name text ++ rest) =
      .ok (some name, ':' :: (text ++ rest)) := by
    have quoted : name.toList ++ ['"'] ++ ':' :: text ++ rest =
        name.toList ++ '"' :: ':' :: (text ++ rest) := by simp
    exact bind_of_ok ((congrArg readText quoted).trans (readText_plain plain _))
  cases first with
  | true => exact key
  | false => exact key

/-- The members of an object are read one by one. -/
theorem readMembers_texts {members : List (Member β)} (h : ∀ m ∈ members, m.IsRead reader)
    (few : members.length < budget) (first : Bool) (rest : List Char) :
    readMembers reader budget first
        (itemsText first (members.map Member.write) ++ '\x7d' :: rest) =
      .ok (members.map fun m => (m.name, m.value), rest) := by
  -- as in an array, a member takes one from the budget, and commas stand between them
  induction members generalizing budget first with
  | nil =>
    obtain ⟨budget, rfl⟩ : ∃ b, budget = b + 1 := ⟨budget - 1, by simp at few; omega⟩
    cases first <;> rfl
  | cons m members ih =>
    rw [List.length_cons] at few
    obtain ⟨budget, rfl⟩ : ∃ b, budget = b + 1 := ⟨budget - 1, by omega⟩
    obtain ⟨name, value⟩ := h m List.mem_cons_self
    have few : members.length < budget := by omega
    have others := ih (fun m' mem => h m' (List.mem_cons_of_mem _ mem)) few false
    have stops := stops_items (members.map Member.write) (stops_brace rest)
    rw [List.map_cons, itemsText_cons, List.append_assoc]
    unfold readMembers
    refine (bind_of_ok (nextKey?_read name first m.text _)).trans ?_
    refine (bind_of_ok (value.read _ stops)).trans ?_
    exact bind_of_ok others

/-! ### Values -/

section
variable {nested : Option (Reader Value)} {inner : Reader Value} {n : Number}

/-- A character that starts a number is none of those that do not. -/
theorem ne_of_isNumberStart (h : isNumberStart c) {other : Char}
    (isOther : isNumberStart other = false) : c ≠ other := by
  rintro rfl
  rw [h] at isOther
  cases isOther

/-- A number may start a value. -/
theorem isStart_of_isNumberStart (h : isNumberStart c) : isStart c := by
  have ne {b : Char} (isOther : isNumberStart b = false) : c ≠ b := ne_of_isNumberStart h isOther
  have space : c ≠ ' ' := ne rfl
  have newline : c ≠ '\n' := ne rfl
  have tab : c ≠ '\t' := ne rfl
  have carriage : c ≠ '\r' := ne rfl
  have bracket : c ≠ ']' := ne rfl
  simp [isStart, isSpace, space, newline, tab, carriage, bracket]

/-- A number does not start with white space. -/
theorem isSpace_of_isNumberStart (h : isNumberStart c) : isSpace c = false := by
  have start := isStart_of_isNumberStart h
  rw [isStart, Bool.and_eq_true] at start
  simpa using start.1

/-- A character that starts a number starts no other value. -/
theorem readValueWith_number (start : isNumberStart c) (cs : List Char) :
    readValueWith budget nested (c :: cs) = do
      let (n, rest) ← readNumber (c :: cs)
      return (.number n, rest) := by
  unfold readValueWith
  rw [skipSpace_cons (isSpace_of_isNumberStart start)]
  -- words, texts, arrays and objects start with characters of their own
  split
  · rename_i none
    cases none
  · rename_i isWord
    exact absurd (List.cons.inj isWord).1 (ne_of_isNumberStart start rfl)
  · rename_i isWord
    exact absurd (List.cons.inj isWord).1 (ne_of_isNumberStart start rfl)
  · rename_i isWord
    exact absurd (List.cons.inj isWord).1 (ne_of_isNumberStart start rfl)
  · rename_i isQuote
    exact absurd (List.cons.inj isQuote).1 (ne_of_isNumberStart start rfl)
  · rename_i isBracket
    exact absurd (List.cons.inj isBracket).1 (ne_of_isNumberStart start rfl)
  · rename_i isBrace
    exact absurd (List.cons.inj isBrace).1 (ne_of_isNumberStart start rfl)
  · rename_i isFirst
    obtain ⟨rfl, rfl⟩ := List.cons.inj isFirst
    rw [isNumberStart] at start
    rw [if_pos start]

/-- A number is read where a value is. -/
theorem Reads.number (start : text.head?.any isNumberStart)
    (read : ∀ rest, Stops rest → readNumber (text ++ rest) = .ok (n, rest)) :
    Reads (readValueWith budget nested) text (.number n) := by
  cases text with
  | nil => cases start
  | cons c cs =>
    have start : isNumberStart c = true := start
    exact ⟨isStart_of_isNumberStart start, fun rest stops =>
      (readValueWith_number start _).trans (bind_of_ok (read rest stops))⟩

theorem Reads.null : Reads (readValueWith budget nested) "null".toList .null where
  start := rfl
  read _ _ := rfl

/-- A plain name between quotes is read. -/
theorem Reads.word {s : String} (plain : isPlainName s) :
    Reads (readValueWith budget nested) (writeWord s) (.text s) where
  start := rfl
  read rest _ := by
    have quoted : s.toList ++ ['"'] ++ rest = s.toList ++ '"' :: rest := by simp
    exact bind_of_ok ((congrArg readText quoted).trans (readText_plain plain rest))

/-- An array is read if its elements are. -/
theorem Reads.array {write : α → List Char} {f : α → Value} {xs : List α}
    (h : ∀ x ∈ xs, Reads inner (write x) (f x)) (few : xs.length < budget) :
    Reads (readValueWith budget (some inner)) (writeArray (xs.map write)) (.array (xs.map f)) where
  start := rfl
  read rest _ := by
    have items := readItems_texts h few true rest
    rw [itemsText, if_pos rfl, ← List.singleton_append, ← List.append_assoc] at items
    exact bind_of_ok items

/-- An object is read if its members are. -/
theorem Reads.object {members : List (Member Value)} (h : ∀ m ∈ members, m.IsRead inner)
    (few : members.length < budget) :
    Reads (readValueWith budget (some inner)) (writeObject (members.map Member.write))
      (.object (members.map fun m => (m.name, m.value))) where
  start := rfl
  read rest _ := by
    have contents := readMembers_texts h few true rest
    rw [itemsText, if_pos rfl, ← List.singleton_append, ← List.append_assoc] at contents
    exact bind_of_ok contents

end

/-! ### Values of known form -/

/-- A number is read where one is wanted. -/
theorem readWantedNumber_eq (start : text.head?.any isNumberStart) (wanted : Wanted)
    (rest : List Char) : readWantedNumber wanted (text ++ rest) = readNumber (text ++ rest) := by
  cases text with
  | nil => cases start
  | cons c ds =>
    have start : isNumberStart c = true := start
    rw [List.cons_append, readWantedNumber, skipSpace_cons (isSpace_of_isNumberStart start)]
    exact if_pos start

theorem start_of_number (start : text.head?.any isNumberStart) : text.head?.any isStart := by
  cases text with
  | nil => cases start
  | cons c cs => exact isStart_of_isNumberStart start

/-- A natural number is read as itself. -/
theorem Reads.natural (n : UInt64) : Reads readNatural (writeNatural n) n where
  start := start_of_number (start_natural n)
  read rest stops := by
    rw [readNatural, readWantedNumber_eq (start_natural n), readNumber_natural n stops]
    rfl

/-- A number is no `null`. -/
theorem readOptional_eq (start : text.head?.any isNumberStart) (rest : List Char) :
    readOptional reader (text ++ rest) = do
      let (x, rest) ← reader (text ++ rest)
      return (some x, rest) := by
  cases text with
  | nil => cases start
  | cons c cs =>
    have start : isNumberStart c = true := start
    rw [List.cons_append, readOptional, skipSpace_cons (isSpace_of_isNumberStart start)]
    split
    · rename_i isWord
      exact absurd (List.cons.inj isWord).1 (ne_of_isNumberStart start rfl)
    · rfl

/-- A number is read where `null` may stand. -/
theorem Reads.optional (h : Reads reader text x) (number : text.head?.any isNumberStart) :
    Reads (readOptional reader) text (some x) where
  start := h.start
  read rest stops := by
    rw [readOptional_eq number, h.read rest stops]
    rfl

/-- A list of things of one kind is read if each of them is. -/
theorem Reads.sequence {write : α → List Char} {f : α → β} {xs : List α}
    (h : ∀ x ∈ xs, Reads reader (write x) (f x)) (few : xs.length < budget) :
    Reads (readSequence budget reader) (writeArray (xs.map write)) (xs.map f) where
  start := rfl
  read rest _ := by
    have items := readItems_texts h few true rest
    rw [itemsText, if_pos rfl, ← List.singleton_append, ← List.append_assoc] at items
    exact items

/-! ### Records -/

section
variable {γ : Type} {f : RecordField β} {g : RecordField γ} {s t : List Char} {y : γ}

/-- The first field of a record is read by its name. -/
theorem readPairMembers_first (plain : isPlainName f.name) (h : Reads f.read s x)
    (stops : Stops rest) (first : Bool) (space budget : ℕ) (found : Option γ) :
    readPairMembers f g space (budget + 1) first none found
        ((if first then writeMember f.name s else ',' :: writeMember f.name s) ++ rest) =
      readPairMembers f g space budget false (some x) found rest := by
  rw [readPairMembers]
  beta_reduce
  refine (bind_of_ok (nextKey?_read plain first s rest)).trans ?_
  dsimp only
  rw [if_pos rfl]
  exact bind_of_ok (h.read rest stops)

/-- So is the second one. -/
theorem readPairMembers_second (plain : isPlainName g.name) (other : g.name ≠ f.name)
    (h : Reads g.read t y) (stops : Stops rest) (first : Bool) (space budget : ℕ)
    (found : Option β) :
    readPairMembers f g space (budget + 1) first found none
        ((if first then writeMember g.name t else ',' :: writeMember g.name t) ++ rest) =
      readPairMembers f g space budget false found (some y) rest := by
  rw [readPairMembers]
  beta_reduce
  refine (bind_of_ok (nextKey?_read plain first t rest)).trans ?_
  dsimp only
  rw [if_neg other, if_pos rfl]
  exact bind_of_ok (h.read rest stops)

/-- A record that was written as an object of its fields is read. -/
theorem readPair_members (names : isPlainName f.name ∧ isPlainName g.name)
    (other : g.name ≠ f.name)
    (hf : Reads f.read s x) (hg : Reads g.read t y) (few : 2 < budget) (record : String)
    (rest : List Char) :
    readPair budget record f g
        (writeObject [writeMember f.name s, writeMember g.name t] ++ rest) =
      .ok ((x, y), rest) := by
  obtain ⟨budget, rfl⟩ : ∃ b, budget = b + 3 := ⟨budget - 3, by omega⟩
  have text : writeObject [writeMember f.name s, writeMember g.name t] ++ rest =
      '\x7b' :: (writeMember f.name s ++ (',' :: writeMember g.name t ++ '\x7d' :: rest)) := by
    simp [writeObject, separate]
  rw [text]
  show readPairMembers f g (budget + 3) (budget + 3) true none none _ = _
  -- one step for each field, and one for the end
  have first := readPairMembers_first (g := g) names.1 hf
    (stops_comma (writeMember g.name t ++ '\x7d' :: rest)) true (budget + 3) (budget + 2) none
  have second := readPairMembers_second (f := f) names.2 other hg (stops_brace rest) false
    (budget + 3) (budget + 1) (some x)
  exact first.trans (second.trans rfl)

end

end DeadReckoning.Json
