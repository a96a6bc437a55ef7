import DeadReckoning.Proofs.Json.Passing
import DeadReckoning.Proofs.Json.Tokens

namespace DeadReckoning.Json

/-!
# Values — what is accepted was written by the grammar

Whether a value is read or only passed over, the text in front of what is left is a value of the
grammar. While values are passed over the text still has to close all arrays and objects that are
open, from the inside outwards.

* `ValueThen` — a value in front of the rest of a text
* `Takes` — a reader that goes over one value
* `Reaches`, `PartsThen` — the way to the next part of an array or object, and all that follow
* `takes_readValue` — values are read
* `Closes` — what a stack of open arrays and objects demands of a text
* `valueThen_of_passValue` — values are passed over
* `parse_eq_ok_iff` — the texts that hold one value
-/

variable {β : Type} {cs rest behind : List Char}

/-! ### Values in front of a text -/

/-- A text is a value, perhaps behind white space, and the rest. -/
def ValueThen (cs rest : List Char) : Prop :=
  ∃ (blank : Space) (phrase : Phrase), cs = blank.chars ++ (phrase.write ++ rest)

/-- What a reader accepts is a value, and the rest is left. -/
def Takes (reader : Reader β) : Prop :=
  ∀ {cs : List Char} {x : β} {rest : List Char}, reader cs = .ok (x, rest) → ValueThen cs rest

/-- One space after the other. -/
def Space.append (a b : Space) : Space where
  chars := a.chars ++ b.chars
  blank c mem := (List.mem_append.mp mem).elim (a.blank c) (b.blank c)

/-- A value starts at the first token of a text. -/
theorem ValueThen.of_skipSpace (h : ValueThen (skipSpace cs) rest) : ValueThen cs rest := by
  obtain ⟨first, isText⟩ := exists_space cs
  obtain ⟨blank, phrase, isValue⟩ := h
  refine ⟨first.append blank, phrase, ?_⟩
  rw [isText, isValue, Space.append, List.append_assoc]

theorem valueThen_of_phrase (phrase : Phrase) (rest : List Char) :
    ValueThen (phrase.write ++ rest) rest := ⟨.none, phrase, rfl⟩

/-- A string between its quotes is a value. -/
theorem valueThen_text {s : List Glyph} (rest : List Char) :
    ValueThen ('"' :: (Glyph.writeAll s ++ '"' :: rest)) rest := by
  rw [← Glyph.writeText_append]
  exact valueThen_of_phrase (.text s) rest

/-! ### Arrays and objects -/

namespace Enclosure

/-- The character that opens it. -/
def opener : Enclosure → Char
  | array => '['
  | object => '\x7b'

/-- The texts are elements of an array, or members of an object. -/
def IsParts : Enclosure → List (List Char) → Prop
  | array, texts => ∃ items : List (Padded Phrase), texts = items.map (Padded.write Phrase.write)
  | object, texts => ∃ entries : List (Entry Phrase), texts = entries.map (Entry.write Phrase.write)

/-- What stands in front of the value of a part: white space, or a name and a colon. -/
def IsFront : Enclosure → List Char → Prop
  | array, front => ∃ blank : Space, front = blank.chars
  | object, front => ∃ name : Padded (List Glyph), front = name.write Glyph.writeText ++ [':']

theorem isParts_nil (e : Enclosure) : e.IsParts [] := by
  cases e with
  | array => exact ⟨[], rfl⟩
  | object => exact ⟨[], rfl⟩

/-- One more part in front of others. -/
theorem IsParts.cons {e : Enclosure} {front : List Char} {texts : List (List Char)}
    (isFront : e.IsFront front) (value : Padded Phrase) (others : e.IsParts texts) :
    e.IsParts ((front ++ value.write Phrase.write) :: texts) := by
  cases e with
  | array =>
    obtain ⟨blank, rfl⟩ := isFront
    obtain ⟨items, rfl⟩ := others
    refine ⟨⟨blank.append value.before, value.content, value.after⟩ :: items, ?_⟩
    rw [List.map_cons, Padded.write, Padded.write, Space.append, List.append_assoc]
  | object =>
    obtain ⟨name, rfl⟩ := isFront
    obtain ⟨entries, rfl⟩ := others
    refine ⟨⟨name, value⟩ :: entries, ?_⟩
    rw [List.map_cons, Entry.write, List.append_assoc]
    rfl

end Enclosure

variable {e : Enclosure} {first : Bool}

/-- The value of the next part of an array or object is reached: behind a comma, unless it is the
first, and behind what stands in front of it. -/
def Reaches (e : Enclosure) (first : Bool) (cs behind : List Char) : Prop :=
  ∃ (blank : Space) (front : List Char), e.IsFront front ∧
    cs = blank.chars ++ ((if first then front else ',' :: front) ++ behind)

/-- The end of an array or object is reached behind white space. -/
def Ends (e : Enclosure) (cs rest : List Char) : Prop :=
  ∃ blank : Space, cs = blank.chars ++ e.closer :: rest

/-- All further parts of an array or object, its end, and the rest. -/
def PartsThen (e : Enclosure) (first : Bool) (cs rest : List Char) : Prop :=
  ∃ (blank : Space) (texts : List (List Char)), e.IsParts texts ∧
    cs = blank.chars ++ (itemsText first texts ++ e.closer :: rest)

theorem PartsThen.nil (ends : Ends e cs rest) (first : Bool) : PartsThen e first cs rest := by
  obtain ⟨blank, rfl⟩ := ends
  exact ⟨blank, [], e.isParts_nil, by rw [itemsText_nil, List.nil_append]⟩

/-- A part is what reaches a value, the value, and the other parts behind it. -/
theorem PartsThen.cons {more : List Char} (reaches : Reaches e first cs behind)
    (value : ValueThen behind more) (others : PartsThen e false more rest) :
    PartsThen e first cs rest := by
  obtain ⟨blank, front, isFront, rfl⟩ := reaches
  obtain ⟨before, phrase, rfl⟩ := value
  obtain ⟨after, texts, isParts, rfl⟩ := others
  refine ⟨blank, _, isParts.cons isFront ⟨before, phrase, after⟩, ?_⟩
  rw [itemsText_cons, Padded.write]
  cases first with
  | true => simp only [if_true, List.append_assoc]
  | false => simp only [Bool.false_eq_true, if_false, List.append_assoc, List.cons_append]

/-- An array or object is a value. -/
theorem ValueThen.of_parts (parts : PartsThen e true cs rest) :
    ValueThen (e.opener :: cs) rest := by
  obtain ⟨blank, texts, isParts, rfl⟩ := parts
  cases e with
  | array =>
    obtain ⟨items, rfl⟩ := isParts
    have isText := Phrase.write_array_append blank items rest
    show ValueThen ('[' :: (blank.chars ++ (_ ++ ']' :: rest))) rest
    rw [← isText]
    exact valueThen_of_phrase _ rest
  | object =>
    obtain ⟨entries, rfl⟩ := isParts
    have isText := Phrase.write_object_append blank entries rest
    show ValueThen ('\x7b' :: (blank.chars ++ (_ ++ '\x7d' :: rest))) rest
    rw [← isText]
    exact valueThen_of_phrase _ rest

/-! ### Separators that are read -/

/-- If there is one more element, what was taken leads to it: a comma, unless it is the first one,
and white space. -/
theorem reaches_of_moreElements (h : moreElements first cs = .ok (true, behind)) :
    Reaches .array first cs behind := by
  unfold moreElements at h
  split at h
  · cases h
  · cases h
  · rename_i c rest _ isText
    obtain ⟨blank, isText⟩ := exists_space_of_skipSpace isText
    split at h
    · rename_i isFirst
      cases h
      exact ⟨blank, [], ⟨.none, rfl⟩, by rw [isText, if_pos isFirst]; rfl⟩
    · -- behind another element there has to be a comma, and after it more than the bracket
      rename_i notFirst
      split at h
      · rename_i isComma
        obtain ⟨after, isRest⟩ := exists_space rest
        split at h
        · cases h
        · cases h
        · cases h
          refine ⟨blank, after.chars, ⟨after, rfl⟩, ?_⟩
          rw [isText, if_neg notFirst, isComma, List.cons_append, ← isRest]
      · cases h

/-- If there are no more elements, the array ends here, and its bracket is left. -/
theorem ends_of_moreElements (h : moreElements first cs = .ok (false, behind)) :
    ∃ rest, behind = ']' :: rest ∧ Ends .array cs rest := by
  unfold moreElements at h
  split at h
  · cases h
  · rename_i rest isText
    cases h
    exact ⟨rest, rfl, exists_space_of_skipSpace isText⟩
  · split at h
    · cases h
    · split at h
      · split at h
        · cases h
        · cases h
        · cases h
      · cases h

/-- Where an array is closed it ends. -/
theorem ends_of_closeArray (h : closeArray cs = .ok rest) : Ends .array cs rest := by
  unfold closeArray at h
  split at h
  · cases h
  · rename_i isText
    cases h
    exact exists_space_of_skipSpace isText
  · split at h
    · cases h
    · cases h
  · cases h

/-- A colon with white space in front of it. -/
theorem exists_space_of_readColon (h : readColon cs = .ok rest) :
    ∃ blank : Space, cs = blank.chars ++ ':' :: rest := by
  unfold readColon at h
  split at h
  · cases h
  · rename_i isText
    cases h
    exact exists_space_of_skipSpace isText
  · cases h

/-- A name from its quote on, and the colon behind it. -/
theorem isFront_of_name {s : List Glyph} {more : List Char} (before : Space)
    (colon : readColon more = .ok behind) :
    ∃ front, Enclosure.object.IsFront front ∧
      before.chars ++ '"' :: (Glyph.writeAll s ++ '"' :: more) = front ++ behind := by
  obtain ⟨after, rfl⟩ := exists_space_of_readColon colon
  refine ⟨_, ⟨⟨before, s, after⟩, rfl⟩, ?_⟩
  rw [List.append_assoc, Padded.write_append, Glyph.writeText_append]
  rfl

/-- A name is read in any case. -/
theorem exists_glyphs_of_keyOr {fault : Fault} {key? : Option String}
    (h : keyOr fault cs = .ok (key?, rest)) :
    ∃ key s, key? = some key ∧ cs = '"' :: (Glyph.writeAll s ++ '"' :: rest) := by
  unfold keyOr at h
  split at h
  · obtain ⟨⟨key, more⟩, read, last⟩ := exists_of_bind_ok h
    obtain ⟨s, isText⟩ := exists_glyphs_of_readText read
    cases last
    exact ⟨key, s, rfl, by rw [isText]⟩
  · cases h

/-- A name and the colon behind it lead to the value of a member. -/
theorem reaches_of_nextKey? {key : String} {more : List Char}
    (h : nextKey? first cs = .ok (some key, more)) (colon : readColon more = .ok behind) :
    Reaches .object first cs behind := by
  unfold nextKey? at h
  split at h
  · cases h
  · cases h
  · rename_i c rest _ isText
    obtain ⟨blank, isText⟩ := exists_space_of_skipSpace isText
    split at h
    · rename_i isFirst
      obtain ⟨-, s, -, isName⟩ := exists_glyphs_of_keyOr h
      obtain ⟨front, isFront, isRest⟩ := isFront_of_name (s := s) .none colon
      exact ⟨blank, front, isFront, by rw [isText, isName, if_pos isFirst, ← isRest]; rfl⟩
    · rename_i notFirst
      split at h
      · rename_i isComma
        obtain ⟨before, isRest⟩ := exists_space rest
        split at h
        · cases h
        · cases h
        · -- behind a comma the name may have white space in front of it
          obtain ⟨-, s, -, isName⟩ := exists_glyphs_of_keyOr h
          obtain ⟨front, isFront, isFronted⟩ := isFront_of_name (s := s) before colon
          refine ⟨blank, front, isFront, ?_⟩
          rw [isText, if_neg notFirst, isComma, List.cons_append, ← isFronted, ← isName, ← isRest]
      · cases h

/-- If there are no more members, the object ends here, and its brace is left. -/
theorem ends_of_nextKey? (h : nextKey? first cs = .ok (none, behind)) :
    ∃ rest, behind = '\x7d' :: rest ∧ Ends .object cs rest := by
  -- where a name is asked for, the object does not end
  have named {fault : Fault} {cs : List Char} (h : keyOr fault cs = .ok (none, behind)) :
      False := by
    obtain ⟨key, -, isKey, -⟩ := exists_glyphs_of_keyOr h
    cases isKey
  unfold nextKey? at h
  split at h
  · cases h
  · rename_i rest isText
    cases h
    exact ⟨rest, rfl, exists_space_of_skipSpace isText⟩
  · split at h
    · exact (named h).elim
    · split at h
      · split at h
        · cases h
        · cases h
        · exact (named h).elim
      · cases h

/-! ### Values that are read -/

variable {reader : Reader β} {budget : ℕ}

/-- The elements of an array are values. -/
theorem partsThen_of_readItems (takes : Takes reader) {xs : List β}
    (h : readItems reader budget first cs = .ok (xs, rest)) : PartsThen .array first cs rest := by
  -- the budget is one for each element, and runs out only with a fault
  induction budget generalizing first cs xs with
  | zero => cases h
  | succ budget ih =>
    obtain ⟨⟨goesOn, behind⟩, more, h⟩ := exists_of_bind_ok h
    cases goesOn with
    | false =>
      obtain ⟨more, rfl, ends⟩ := ends_of_moreElements more
      cases h
      exact .nil ends first
    | true =>
      obtain ⟨⟨x, after⟩, read, h⟩ := exists_of_bind_ok h
      obtain ⟨⟨others, last⟩, reads, h⟩ := exists_of_bind_ok h
      cases h
      exact .cons (reaches_of_moreElements more) (takes read) (ih reads)

/-- So are the members of an object. -/
theorem partsThen_of_readMembers (takes : Takes reader) {members : List (String × β)}
    (h : readMembers reader budget first cs = .ok (members, rest)) :
    PartsThen .object first cs rest := by
  induction budget generalizing first cs members with
  | zero => cases h
  | succ budget ih =>
    obtain ⟨⟨key?, behind⟩, next, h⟩ := exists_of_bind_ok h
    cases key? with
    | none =>
      obtain ⟨more, rfl, ends⟩ := ends_of_nextKey? next
      cases h
      exact .nil ends first
    | some key =>
      obtain ⟨value, colon, h⟩ := exists_of_bind_ok h
      obtain ⟨⟨x, after⟩, read, h⟩ := exists_of_bind_ok h
      obtain ⟨⟨others, last⟩, reads, h⟩ := exists_of_bind_ok h
      cases h
      exact .cons (reaches_of_nextKey? next colon) (takes read) (ih reads)

/-- A word that is spelled out is a value. -/
theorem valueThen_of_word {letters : List Char} {c : Char} (phrase : Phrase)
    (isWord : phrase.write = c :: letters) (h : readWord letters cs = .ok rest) :
    ValueThen (c :: cs) rest := by
  rw [eq_of_readWord h, ← List.cons_append, ← isWord]
  exact valueThen_of_phrase phrase rest

/-- One of the words `null`, `true` and `false` is a value. -/
theorem valueThen_of_readWord {letters : List Char} {c : Char} {v x : Value} (phrase : Phrase)
    (isWord : phrase.write = c :: letters)
    (h : (do return (v, ← readWord letters cs) : Except Fault (Value × List Char)) =
      .ok (x, rest)) :
    ValueThen (c :: cs) rest := by
  obtain ⟨behind, word, last⟩ := exists_of_bind_ok h
  cases last
  exact valueThen_of_word phrase isWord word

/-- What is read as a string is one. -/
theorem valueThen_of_readText {s : String} (h : readText cs = .ok (s, rest)) :
    ValueThen ('"' :: cs) rest := by
  obtain ⟨s, rfl⟩ := exists_glyphs_of_readText h
  exact valueThen_text rest

/-- What is read as a number is one. -/
theorem valueThen_of_readNumber {n : Number} (h : readNumber cs = .ok (n, rest)) :
    ValueThen cs rest := by
  obtain ⟨numeral, rfl⟩ := exists_numeral_of_readNumber h
  exact valueThen_of_phrase (.number numeral) rest

/-- A reader of values takes values only if the readers of what is nested do. -/
theorem takes_readValueWith {nested : Option (Reader Value)}
    (takes : ∀ reader, nested = some reader → Takes reader) :
    Takes (readValueWith budget nested) := by
  intro cs x rest h
  refine ValueThen.of_skipSpace ?_
  unfold readValueWith at h
  split at h
  · cases h
  · rename_i isText
    rw [isText]
    exact valueThen_of_readWord .null rfl h
  · rename_i isText
    rw [isText]
    exact valueThen_of_readWord (.bool true) rfl h
  · rename_i isText
    rw [isText]
    exact valueThen_of_readWord (.bool false) rfl h
  · rename_i isText
    obtain ⟨⟨s, behind⟩, read, h⟩ := exists_of_bind_ok h
    cases h
    rw [isText]
    exact valueThen_of_readText read
  · rename_i isText
    split at h
    · cases h
    · -- without a reader of what is nested there is no array
      rename_i inner
      obtain ⟨⟨items, behind⟩, reads, h⟩ := exists_of_bind_ok h
      cases h
      rw [isText]
      exact .of_parts (partsThen_of_readItems (takes inner rfl) reads)
  · rename_i isText
    split at h
    · cases h
    · rename_i inner
      obtain ⟨⟨members, behind⟩, reads, h⟩ := exists_of_bind_ok h
      cases h
      rw [isText]
      exact .of_parts (partsThen_of_readMembers (takes inner rfl) reads)
  · rename_i isText
    split at h
    · obtain ⟨⟨n, behind⟩, read, h⟩ := exists_of_bind_ok h
      cases h
      rw [isText]
      exact valueThen_of_readNumber read
    · cases h

/-- Values are read. -/
theorem takes_readValue (budget depth : ℕ) : Takes (readValue budget depth) := by
  induction depth with
  | zero =>
    refine takes_readValueWith fun reader isNested => ?_
    cases isNested
  | succ depth ih =>
    refine takes_readValueWith fun reader isNested => ?_
    cases isNested
    exact ih

/-! ### Values that are passed over -/

/-- What is passed over as a string is one. -/
theorem valueThen_of_passText (h : passText cs = .ok rest) : ValueThen ('"' :: cs) rest := by
  obtain ⟨s, rfl⟩ := exists_glyphs_of_passText h
  exact valueThen_text rest

/-- A name that is passed over with its colon stands in front of a value. -/
theorem exists_front_of_passKey (h : passKey cs = .ok behind) :
    ∃ front, Enclosure.object.IsFront front ∧ cs = front ++ behind := by
  unfold passKey at h
  split at h
  · cases h
  · rename_i isText
    obtain ⟨before, isText⟩ := exists_space_of_skipSpace isText
    obtain ⟨more, pass, colon⟩ := exists_of_bind_ok h
    obtain ⟨s, isName⟩ := exists_glyphs_of_passText pass
    obtain ⟨front, isFront, isFronted⟩ := isFront_of_name (s := s) before colon
    exact ⟨front, isFront, by rw [isText, isName, isFronted]⟩
  · cases h

/-- What stands in front of a value, in an array or in an object, before the value is passed. -/
theorem exists_front {pass : List Char → Except Fault (List Char)}
    (h : (do
      let behind ← if e = Enclosure.object then passKey cs else pure cs
      pass behind) = .ok rest) :
    ∃ front behind, e.IsFront front ∧ cs = front ++ behind ∧ pass behind = .ok rest := by
  cases e with
  | array => exact ⟨[], cs, ⟨.none, rfl⟩, rfl, h⟩
  | object =>
    obtain ⟨behind, key, passed⟩ := exists_of_bind_ok h
    obtain ⟨front, isFront, isText⟩ := exists_front_of_passKey key
    exact ⟨front, behind, isFront, isText, passed⟩

/-- A number that is passed over is a value, with a minus before it or not. -/
theorem valueThen_of_passNumber (negative : Bool) (h : passNumber cs = .ok rest) :
    ValueThen (if negative then '-' :: cs else cs) rest := by
  obtain ⟨n, isSign, rfl⟩ := exists_numeral_of_passNumber h negative
  have isText : n.write ++ rest =
      if negative then '-' :: (n.writeMagnitude ++ rest) else n.writeMagnitude ++ rest := by
    rw [Numeral.write, isSign]
    cases negative with
    | true => rfl
    | false => rfl
  rw [← isText]
  exact valueThen_of_phrase (.number n) rest

/-- A token is a value, or it opens an array or object. -/
theorem cases_of_passToken {opens : Option Enclosure} (h : passToken cs = .ok (opens, rest)) :
    opens = none ∧ ValueThen cs rest ∨ ∃ e, opens = some e ∧ skipSpace cs = e.opener :: rest := by
  -- what is passed over is a value if the token that it starts with opens nothing
  have token {text : List Char} {pass : Except Fault (List Char)} (isText : skipSpace cs = text)
      (h : (do return (none, ← pass) : Except Fault (Option Enclosure × List Char)) =
        .ok (opens, rest)) (value : pass = .ok rest → ValueThen text rest) :
      opens = none ∧ ValueThen cs rest := by
    obtain ⟨behind, passed, last⟩ := exists_of_bind_ok h
    cases last
    exact ⟨rfl, .of_skipSpace (isText ▸ value passed)⟩
  unfold passToken at h
  split at h
  · cases h
  · rename_i isText
    exact .inl (token isText h (valueThen_of_word .null rfl))
  · rename_i isText
    exact .inl (token isText h (valueThen_of_word (.bool true) rfl))
  · rename_i isText
    exact .inl (token isText h (valueThen_of_word (.bool false) rfl))
  · rename_i isText
    exact .inl (token isText h (valueThen_of_passNumber true))
  · rename_i isText
    exact .inl (token isText h valueThen_of_passText)
  · rename_i isText
    cases h
    exact .inr ⟨.array, rfl, isText⟩
  · rename_i isText
    cases h
    exact .inr ⟨.object, rfl, isText⟩
  · rename_i isText
    split at h
    · exact .inl (token isText h (valueThen_of_passNumber false))
    · cases h

/-- A step inside an array or object: it ends, or the value of its next part is reached. -/
theorem cases_of_passOpen {outer : List Enclosure}
    (h : passOpen (budget + 1) (within first) (e :: outer) cs = .ok rest) :
    (∃ more, Ends e cs more ∧ passOpen budget .closed outer more = .ok rest) ∨
      ∃ behind, Reaches e first cs behind ∧
        passOpen budget .value (e :: outer) behind = .ok rest := by
  -- an enclosure that was opened may end at once, and one with a value in it goes on with a comma
  cases first with
  | true =>
    have h : passOpen (budget + 1) .opened (e :: outer) cs = .ok rest := h
    rw [passOpen] at h
    split at h
    · cases h
    · rename_i c text isText
      obtain ⟨blank, isText⟩ := exists_space_of_skipSpace isText
      split at h
      · rename_i isCloser
        exact .inl ⟨text, ⟨blank, isCloser ▸ isText⟩, h⟩
      · obtain ⟨front, behind, isFront, isFronted, passed⟩ := exists_front h
        exact .inr ⟨behind, ⟨blank, front, isFront, by rw [isText, isFronted]; rfl⟩, passed⟩
  | false =>
    have h : passOpen (budget + 1) .closed (e :: outer) cs = .ok rest := h
    rw [passOpen] at h
    split at h
    · cases h
    · rename_i c text isText
      obtain ⟨blank, isText⟩ := exists_space_of_skipSpace isText
      split at h
      · rename_i isCloser
        exact .inl ⟨text, ⟨blank, isCloser ▸ isText⟩, h⟩
      · split at h
        · rename_i isComma
          obtain ⟨front, behind, isFront, isFronted, passed⟩ := exists_front h
          exact .inr ⟨behind, ⟨blank, front, isFront, by rw [isText, isComma, isFronted]; rfl⟩,
            passed⟩
        · cases h

/-- What the arrays and objects that are open demand of a text: each of them has further parts and
ends, from the inside outwards. -/
inductive Closes : List Enclosure → List Char → List Char → Prop
  | nil (rest : List Char) : Closes [] rest rest
  | cons {e : Enclosure} {outer : List Enclosure} {cs behind rest : List Char}
    (parts : PartsThen e false cs behind) (others : Closes outer behind rest) :
    Closes (e :: outer) cs rest

/-- What is demanded of a text by the way: a value first, or the parts of what was just opened. -/
def Demands : Pass → List Enclosure → List Char → List Char → Prop
  | .value, stack, cs, rest => ∃ behind, ValueThen cs behind ∧ Closes stack behind rest
  | .closed, stack, cs, rest => Closes stack cs rest
  | .opened, [], _, _ => True
  | .opened, e :: outer, cs, rest =>
    ∃ behind, PartsThen e true cs behind ∧ Closes outer behind rest

/-- Inside an array or object a value is passed over, then the parts behind it, then the rest. -/
theorem Demands.of_reaches {outer : List Enclosure} (reaches : Reaches e first cs behind)
    (h : Demands .value (e :: outer) behind rest) :
    ∃ more, PartsThen e first cs more ∧ Closes outer more rest := by
  obtain ⟨after, value, closes⟩ := h
  cases closes with
  | cons parts others => exact ⟨_, .cons reaches value parts, others⟩

/-- A text that is passed over meets the demands of what is open. -/
theorem demands_of_passOpen {pass : Pass} {stack : List Enclosure}
    (h : passOpen budget pass stack cs = .ok rest) : Demands pass stack cs rest := by
  -- every step is taken with a demand on what follows, which the step before it has made
  induction budget generalizing pass stack cs with
  | zero => cases h
  | succ budget ih =>
    cases pass with
    | value =>
      rw [passOpen] at h
      obtain ⟨⟨opens, behind⟩, token, h⟩ := exists_of_bind_ok h
      rcases cases_of_passToken token with ⟨rfl, value⟩ | ⟨e, rfl, isText⟩
      · exact ⟨behind, value, ih h⟩
      · obtain ⟨more, parts, others⟩ := ih h
        exact ⟨more, .of_skipSpace (isText ▸ .of_parts parts), others⟩
    | closed =>
      cases stack with
      | nil =>
        cases h
        exact .nil _
      | cons e outer =>
        have h : passOpen (budget + 1) (within false) (e :: outer) cs = .ok rest := h
        rcases cases_of_passOpen h with ⟨more, ends, h⟩ | ⟨behind, reaches, h⟩
        · exact .cons (.nil ends false) (ih h)
        · obtain ⟨more, parts, others⟩ := (ih h).of_reaches reaches
          exact .cons parts others
    | opened =>
      cases stack with
      | nil => trivial
      | cons e outer =>
        have h : passOpen (budget + 1) (within true) (e :: outer) cs = .ok rest := h
        rcases cases_of_passOpen h with ⟨more, ends, h⟩ | ⟨behind, reaches, h⟩
        · exact ⟨more, .nil ends true, ih h⟩
        · exact (ih h).of_reaches reaches

/-- What is passed over is a value. -/
theorem valueThen_of_passValue (h : passValue budget cs = .ok rest) : ValueThen cs rest := by
  obtain ⟨behind, value, closes⟩ := demands_of_passOpen h
  cases closes
  exact value

/-! ### Texts -/

/-- A text that is read holds one value of the grammar. -/
theorem exists_phrase_of_readDocument {document : (budget : ℕ) → Reader β} {text : String} {x : β}
    (takes : ∀ budget, Takes (document budget)) (h : readDocument document text = .ok x) :
    ∃ p : Padded Phrase, text = String.ofList (p.write Phrase.write) := by
  obtain ⟨⟨y, rest⟩, read, last⟩ := exists_of_bind_ok h
  obtain ⟨before, phrase, isText⟩ := takes _ read
  obtain ⟨after, isEnd⟩ := exists_space rest
  dsimp only at last
  split at last
  · rename_i atEnd
    rw [List.isEmpty_iff.mp atEnd, List.append_nil] at isEnd
    refine ⟨⟨before, phrase, after⟩, ?_⟩
    rw [Padded.write, ← isEnd, ← isText, String.ofList_toList]
  · cases last

/-- The texts that hold a value are those of the grammar whose value stands for it. -/
theorem parse_eq_ok_iff (text : String) (v : Value) :
    Value.parse text = .ok v ↔ ∃ p : Padded Phrase,
      text = String.ofList (p.write Phrase.write) ∧ p.content.value? greatestDepth = some v := by
  constructor
  · intro h
    obtain ⟨p, rfl⟩ := exists_phrase_of_readDocument (fun budget => takes_readValue budget _) h
    exact ⟨p, rfl, by rw [← parse_write, h]; rfl⟩
  · rintro ⟨p, rfl, isValue⟩
    exact toOption_eq_some_iff.mp ((parse_write p).trans isValue)

end DeadReckoning.Json
