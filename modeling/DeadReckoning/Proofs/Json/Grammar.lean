import DeadReckoning.Proofs.Json.Structure

namespace DeadReckoning.Json

/-!
# The grammar of JSON — values as they are written

A value can be written in many ways: white space may stand around every token, a character of a
string may be escaped, and a number may have leading signs, places and exponents of any length. A
phrase keeps all of that, so that the texts of the grammar are those that phrases are written as.

* `Space`, `Digits`, `Exponent`, `Numeral`, `Glyph` — the tokens
* `Padded`, `Entry`, `Phrase` — values, with the elements and members that are nested in them
* `Phrase.write` — the text of a phrase
* `Phrase.induct` — induction on what is nested
* `Phrase.length_item_lt`, `Phrase.length_entry_lt` — what is nested has a shorter text
* `Yields` — what a reader makes of a text, if anything
-/

/-! ### Tokens -/

/-- White space between tokens. -/
structure Space where
  chars : List Char
  blank : ∀ c ∈ chars, isSpace c

/-- No white space. -/
def Space.none : Space := ⟨[], fun _ mem => absurd mem List.not_mem_nil⟩

/-- One or more decimal digits. -/
structure Digits where
  chars : List Char
  isDigit : ∀ c ∈ chars, c.isDigit
  ne_nil : chars ≠ []

/-- The exponent of a number: its letter, its sign if it has one, and its digits. -/
structure Exponent where
  letter : Char
  isLetter : letter = 'e' ∨ letter = 'E'
  negative : Option Bool
  digits : Digits

/-- A number: a whole part without needless zeros, perhaps digits after a point, perhaps an
exponent. -/
structure Numeral where
  negative : Bool
  whole : List Char
  isWhole : IsWhole whole
  places : Option Digits
  exponent : Option Exponent

/-- A hexadecimal digit of either case. -/
structure HexDigit where
  char : Char
  value : ℕ
  isValue : hexValue? char = some value

/-- The character needs no escape. -/
def IsPlain (c : Char) : Prop := c ≠ '"' ∧ c ≠ '\\' ∧ 0x20 ≤ c.toNat

/-- A character of a string: as it is, as an escape of one letter, or as a numeric escape, which may
also be one half of a pair. -/
inductive Glyph where
  | plain (c : Char) (isPlain : IsPlain c)
  | letter (c d : Char) (isEscape : letterEscape? c = some d)
  | unit (a b c d : HexDigit)

namespace Exponent

/-- A sign, if there is one. -/
def writeSign : Option Bool → List Char
  | none => []
  | some true => ['-']
  | some false => ['+']

/-- The text of an exponent. -/
def write (e : Exponent) : List Char := e.letter :: (writeSign e.negative ++ e.digits.chars)

end Exponent

namespace Numeral

/-- A point and the digits after it, if there are any. -/
def writePlaces : Option Digits → List Char
  | none => []
  | some places => '.' :: places.chars

/-- The text of an exponent, if there is one. -/
def writeExponent : Option Exponent → List Char
  | none => []
  | some e => e.write

/-- The text of a number without its sign. -/
def writeMagnitude (n : Numeral) : List Char :=
  n.whole ++ (writePlaces n.places ++ writeExponent n.exponent)

/-- The text of a number. -/
def write (n : Numeral) : List Char :=
  if n.negative then '-' :: n.writeMagnitude else n.writeMagnitude

/-- A natural number of 64 bits, which is written in one way. -/
def natural (n : UInt64) : Numeral where
  negative := false
  whole := digits n.toNat
  isWhole := isWhole_digits n.toNat
  places := none
  exponent := none

theorem write_natural (n : UInt64) : (natural n).write = writeNatural n := by
  show digits n.toNat ++ ([] ++ []) = _
  rw [List.append_nil, List.append_nil]
  rfl

end Numeral

namespace Glyph

/-- The text of a character. -/
def write : Glyph → List Char
  | plain c _ => [c]
  | letter c _ _ => ['\\', c]
  | unit a b c d => ['\\', 'u', a.char, b.char, c.char, d.char]

/-- The text of a string between its quotes. -/
def writeAll (s : List Glyph) : List Char := s.flatMap write

/-- The text of a string. -/
def writeText (s : List Glyph) : List Char := '"' :: (writeAll s ++ ['"'])

/-- A string and what follows it, quote by quote. -/
theorem writeText_append (s : List Glyph) (rest : List Char) :
    writeText s ++ rest = '"' :: (writeAll s ++ '"' :: rest) := by
  rw [writeText, List.cons_append, List.append_assoc]
  rfl

end Glyph

/-! ### Values -/

/-- A thing with the white space around it. -/
structure Padded (α : Type) where
  before : Space
  content : α
  after : Space

/-- A member of an object. -/
structure Entry (α : Type) where
  name : Padded (List Glyph)
  value : Padded α

/-- A value as it is written. -/
inductive Phrase where
  | null
  | bool (b : Bool)
  | number (n : Numeral)
  | text (s : List Glyph)
  | array (blank : Space) (items : List (Padded Phrase))
  | object (blank : Space) (entries : List (Entry Phrase))

variable {α : Type}

/-- The text of a thing and of the white space around it. -/
def Padded.write (text : α → List Char) (p : Padded α) : List Char :=
  p.before.chars ++ (text p.content ++ p.after.chars)

/-- The rest follows the white space behind. -/
theorem Padded.write_append (text : α → List Char) (p : Padded α) (rest : List Char) :
    p.write text ++ rest = p.before.chars ++ (text p.content ++ (p.after.chars ++ rest)) := by
  rw [write, List.append_assoc, List.append_assoc]

/-- The text of a member. -/
def Entry.write (text : α → List Char) (e : Entry α) : List Char :=
  e.name.write Glyph.writeText ++ ':' :: e.value.write text

/-- A member and what follows it, from its name to its value. -/
theorem Entry.write_append (text : α → List Char) (e : Entry α) (rest : List Char) :
    e.write text ++ rest = e.name.before.chars ++ '"' :: (Glyph.writeAll e.name.content ++
      '"' :: (e.name.after.chars ++ ':' :: (e.value.write text ++ rest))) := by
  rw [write, List.append_assoc, Padded.write_append, Glyph.writeText_append]
  rfl

namespace Phrase

mutual

/-- The text of a value. -/
def write : Phrase → List Char
  | null => "null".toList
  | bool true => "true".toList
  | bool false => "false".toList
  | number n => n.write
  | text s => Glyph.writeText s
  | array blank items => '[' :: (blank.chars ++ (separate (writeItems items) ++ [']']))
  | object blank entries => '\x7b' :: (blank.chars ++ (separate (writeEntries entries) ++ ['\x7d']))

/-- The texts of the elements of an array. -/
def writeItems : List (Padded Phrase) → List (List Char)
  | [] => []
  | ⟨before, value, after⟩ :: items =>
    (before.chars ++ (value.write ++ after.chars)) :: writeItems items

/-- The texts of the members of an object. -/
def writeEntries : List (Entry Phrase) → List (List Char)
  | [] => []
  | ⟨name, ⟨before, value, after⟩⟩ :: entries =>
    (name.write Glyph.writeText ++ ':' :: (before.chars ++ (value.write ++ after.chars))) ::
      writeEntries entries

end

theorem writeItems_eq (items : List (Padded Phrase)) :
    writeItems items = items.map (Padded.write write) := by
  induction items with
  | nil => rfl
  | cons item items ih =>
    rw [writeItems, ih]
    rfl

theorem writeEntries_eq (entries : List (Entry Phrase)) :
    writeEntries entries = entries.map (Entry.write write) := by
  induction entries with
  | nil => rfl
  | cons entry entries ih =>
    rw [writeEntries, ih]
    rfl

theorem write_array (blank : Space) (items : List (Padded Phrase)) :
    (array blank items).write =
      '[' :: (blank.chars ++ (itemsText true (items.map (Padded.write write)) ++ [']'])) := by
  rw [write, writeItems_eq]
  rfl

/-- The text of an array and what follows it. -/
theorem write_array_append (blank : Space) (items : List (Padded Phrase)) (rest : List Char) :
    (array blank items).write ++ rest =
      '[' :: (blank.chars ++ (itemsText true (items.map (Padded.write write)) ++ ']' :: rest)) := by
  rw [write_array, List.cons_append, List.append_assoc, List.append_assoc]
  rfl

theorem write_object (blank : Space) (entries : List (Entry Phrase)) :
    (object blank entries).write = '\x7b' :: (blank.chars ++
      (itemsText true (entries.map (Entry.write write)) ++ ['\x7d'])) := by
  rw [write, writeEntries_eq]
  rfl

/-- The text of an object and what follows it. -/
theorem write_object_append (blank : Space) (entries : List (Entry Phrase)) (rest : List Char) :
    (object blank entries).write ++ rest = '\x7b' :: (blank.chars ++
      (itemsText true (entries.map (Entry.write write)) ++ '\x7d' :: rest)) := by
  rw [write_object, List.cons_append, List.append_assoc, List.append_assoc]
  rfl

end Phrase

/-! ### Lengths -/

/-- Texts with commas between them are at least as long as each of them. -/
theorem length_le_separate {text : List Char} {texts : List (List Char)} (mem : text ∈ texts) :
    text.length ≤ (separate texts).length := by
  cases texts with
  | nil => cases mem
  | cons first others =>
    rw [separate_cons, List.length_append, List.length_flatMap]
    rcases List.mem_cons.mp mem with rfl | mem
    · exact Nat.le_add_right _ _
    · have one := List.le_sum_of_mem (List.mem_map_of_mem (f := fun s => (',' :: s).length) mem)
      rw [List.length_cons] at one
      omega

/-- White space only makes a text longer. -/
theorem length_content_le (p : Padded Phrase) :
    p.content.write.length ≤ (p.write Phrase.write).length := by
  rw [Padded.write, List.length_append, List.length_append]
  omega

namespace Phrase

variable {blank : Space} {items : List (Padded Phrase)} {entries : List (Entry Phrase)}

/-- Elements and commas are part of an array, which has two brackets besides. -/
theorem length_array (blank : Space) (items : List (Padded Phrase)) :
    (separate (items.map (Padded.write write))).length + 2 ≤ (array blank items).write.length := by
  rw [write_array, itemsText, if_pos rfl]
  simp only [List.length_cons, List.length_append, List.length_nil]
  omega

/-- Members and commas are part of an object, which has two braces besides. -/
theorem length_object (blank : Space) (entries : List (Entry Phrase)) :
    (separate (entries.map (Entry.write write))).length + 2 ≤
      (object blank entries).write.length := by
  rw [write_object, itemsText, if_pos rfl]
  simp only [List.length_cons, List.length_append, List.length_nil]
  omega

/-- An array has fewer elements than its text has characters. -/
theorem length_items_lt (blank : Space) (items : List (Padded Phrase)) :
    items.length < (array blank items).write.length := by
  have long := length_array blank items
  have few := length_texts_le (items.map (Padded.write write))
  rw [List.length_map] at few
  omega

/-- An object is longer than the number of its members. -/
theorem length_entries_lt (blank : Space) (entries : List (Entry Phrase)) :
    entries.length < (object blank entries).write.length := by
  have long := length_object blank entries
  have few := length_texts_le (entries.map (Entry.write write))
  rw [List.length_map] at few
  omega

/-- An element has a shorter text than its array. -/
theorem length_item_lt {item : Padded Phrase} (mem : item ∈ items) :
    item.content.write.length < (array blank items).write.length := by
  have long := length_array blank items
  have part := length_le_separate (List.mem_map_of_mem (f := Padded.write write) mem)
  have content := length_content_le item
  omega

theorem length_entry_lt {entry : Entry Phrase} (mem : entry ∈ entries) :
    entry.value.content.write.length < (object blank entries).write.length := by
  have long := length_object blank entries
  have part := length_le_separate (List.mem_map_of_mem (f := Entry.write write) mem)
  simp only [Entry.write, Padded.write, List.length_append, List.length_cons] at part
  omega

/-- What holds of a value if it holds of all that is nested in it, holds of every value. -/
theorem induct {P : Phrase → Prop} (null : P null) (bool : ∀ b, P (bool b))
    (number : ∀ n, P (number n)) (text : ∀ s, P (text s))
    (array : ∀ blank items, (∀ item ∈ items, P item.content) → P (array blank items))
    (object : ∀ blank entries, (∀ entry ∈ entries, P entry.value.content) →
      P (object blank entries)) :
    ∀ phrase, P phrase
  | .null => null
  | .bool b => bool b
  | .number n => number n
  | .text s => text s
  | .array blank items => array blank items fun item _ =>
    induct null bool number text array object item.content
  | .object blank entries => object blank entries fun entry _ =>
    induct null bool number text array object entry.value.content
termination_by phrase => phrase.write.length
decreasing_by
  · exact length_item_lt ‹_›
  · exact length_entry_lt ‹_›

end Phrase

/-! ### What stands before and behind a token -/

/-- White space is passed over. -/
theorem skipSpace_space (space : Space) (cs : List Char) :
    skipSpace (space.chars ++ cs) = skipSpace cs :=
  List.dropWhile_append_of_pos space.blank

/-- A colon stands behind white space. -/
theorem readColon_write (blank : Space) (cs : List Char) :
    readColon (blank.chars ++ ':' :: cs) = .ok cs := by
  rw [readColon, skipSpace_space]
  rfl

/-- No number goes on with white space. -/
theorem stops_space (space : Space) {rest : List Char} (stops : Stops rest) :
    Stops (space.chars ++ rest) := by
  obtain ⟨chars, blank⟩ := space
  cases chars with
  | nil => exact stops
  | cons c cs =>
    have space : isSpace c = true := blank c List.mem_cons_self
    simp only [isSpace, Bool.or_eq_true, beq_iff_eq] at space
    rcases space with ((rfl | rfl) | rfl) | rfl
    · exact ⟨rfl, rfl⟩
    · exact ⟨rfl, rfl⟩
    · exact ⟨rfl, rfl⟩
    · exact ⟨rfl, rfl⟩

/-- So does no number at the end of a text. -/
theorem Space.stops (space : Space) : Stops space.chars := by
  have atEnd : Stops [] := ⟨rfl, rfl⟩
  have stops := stops_space space atEnd
  rwa [List.append_nil] at stops

/-- A number starts with a digit or a minus. -/
theorem Numeral.start (n : Numeral) : n.write.head?.any isNumberStart := by
  rw [write]
  cases n.negative with
  | true => rfl
  | false => exact n.isWhole.start _

/-- A numeral starts with a sign or a digit. -/
theorem Numeral.exists_cons (n : Numeral) : ∃ c cs, n.write = c :: cs ∧ isNumberStart c := by
  have start := n.start
  cases isText : n.write with
  | nil =>
    rw [isText] at start
    cases start
  | cons c cs =>
    rw [isText] at start
    exact ⟨c, cs, rfl, start⟩

/-- A value starts with a character that is neither white space nor the end of an array. -/
theorem Phrase.start (phrase : Phrase) : phrase.write.head?.any isStart := by
  cases phrase with
  | null => rfl
  | bool b =>
    cases b with
    | true => rfl
    | false => rfl
  | number n => exact start_of_number n.start
  | text s => rfl
  | array blank items =>
    rw [write_array]
    rfl
  | object blank entries =>
    rw [write_object]
    rfl

/-- The first character of a value. -/
theorem Phrase.exists_cons (phrase : Phrase) :
    ∃ c cs, phrase.write = c :: cs ∧ isSpace c = false ∧ c ≠ ']' :=
  exists_cons_of_isStart phrase.start

/-! ### Outcomes -/

variable {β : Type}

/-- After white space a reader takes a text for a value, or refuses it, and stops behind it. -/
def Yields (reader : Reader β) (text : List Char) (x? : Option β) : Prop :=
  ∀ (blank : Space) (rest : List Char), Stops rest →
    (reader (blank.chars ++ (text ++ rest))).toOption = x?.map (·, rest)

theorem toOption_eq_some_iff {ε : Type} {step : Except ε α} {a : α} :
    step.toOption = some a ↔ step = .ok a := by
  cases step with
  | error e => exact ⟨fun h => (nomatch h), fun h => (nomatch h)⟩
  | ok b => simp [Except.toOption]

/-- Nothing is read if there is a fault, whichever it is. -/
theorem toOption_eq_none_iff {ε : Type} {step : Except ε α} :
    step.toOption = none ↔ ∃ e, step = .error e := by
  cases step with
  | error e => exact ⟨fun _ => ⟨e, rfl⟩, fun _ => rfl⟩
  | ok a => exact ⟨fun h => (nomatch h), fun ⟨_, h⟩ => (nomatch h)⟩

/-- Of two steps one after the other something comes if something comes of both. -/
theorem toOption_bind {ε : Type} (step : Except ε α) (f : α → Except ε β) :
    (step >>= f).toOption = step.toOption.bind fun a => (f a).toOption := by
  cases step with
  | error e => rfl
  | ok a => rfl

/-- A computation that goes on with what was read. -/
theorem toOption_bind_read {read : Except Fault (α × List Char)} {x? : Option α} {rest : List Char}
    (h : read.toOption = x?.map (·, rest)) (f : α × List Char → Except Fault β) :
    (read >>= f).toOption = x?.bind fun x => (f (x, rest)).toOption := by
  rw [toOption_bind, h]
  cases x? with
  | none => rfl
  | some x => rfl

end DeadReckoning.Json
