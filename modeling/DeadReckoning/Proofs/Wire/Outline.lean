import DeadReckoning.Proofs.Json.Records
import DeadReckoning.Wire.Batch

namespace DeadReckoning

open Json

/-!
# Outlines of messages — which texts have one

The outline of a message is read if the text is a value of the grammar that stands for one: an
object whose members' names all stand for something, with one member for the items and at most one
for the time, or an array of time and items. The items have to be an array of values that stand for
something, two levels down, and the time a natural number or `null`. Other members may hold
anything.

* `Envelope.ofPhrase?` — the outline that a value stands for
* `Envelope.parse_write` — a text of the grammar is read as the outline that it stands for
* `Envelope.IsOutlineOf`, `Envelope.parse_eq_ok_iff` — no other text is read
* `Envelope.IsTimeless` — the values whose outline has no time
-/

namespace Envelope

variable {budget : ℕ}

/-- The time that a value stands for; `null` stands for none. -/
def time? : Phrase → Option (Option Micros)
  | .null => some none
  | .number n =>
    match n.number? with
    | some (.natural time) => some (some time)
    | _ => none
  | _ => none

/-- The items that a value stands for, two levels below the top. -/
def items? : Phrase → Option (List Value)
  | .array _ items => items.mapM fun item => item.content.value? (greatestDepth - 2)
  | _ => none

/-- The time that the members of its name stand for, of which there may be none. -/
def timeOf? : List Phrase → Option (Option Micros)
  | [] => some none
  | [p] => time? p
  | _ => none

/-- The items that the members of their name stand for. -/
def itemsOf? : List Phrase → Option (List Value)
  | [p] => items? p
  | _ => none

/-- The outline that a value stands for. -/
def ofPhrase? : Phrase → Option Envelope
  | .object _ entries => do
    let _ ← Entry.names? entries
    let timestamp ← timeOf? (Entry.valuesOf "ts" entries)
    let items ← itemsOf? (Entry.valuesOf "items" entries)
    return { timestamp, items }
  | .array _ [time, items] => do
    let timestamp ← time? time.content
    let items ← items? items.content
    return { timestamp, items }
  | _ => none

/-! ### The fields -/

/-- A number is read as the time that it stands for. -/
theorem readOptional_number (n : Numeral) {rest : List Char} (stops : Stops rest) :
    (readOptional readNatural (n.write ++ rest)).toOption =
      (time? (.number n)).map (·, rest) := by
  have read := readNumber_write n stops
  rw [readOptional_eq n.start, readNatural, readWantedNumber_eq n.start, time?]
  refine (toOption_bind _ _).trans ?_
  rw [toOption_bind_read read]
  cases n.number? with
  | none => rfl
  | some number =>
    cases number with
    | natural time => rfl
    | negative magnitude => rfl
    | real x => rfl

/-- The time is read as what it stands for. -/
theorem yields_time (phrase : Phrase) :
    Yields timestampField.read phrase.write (time? phrase) := by
  intro blank rest stops
  have behind : readOptional readNatural (blank.chars ++ (phrase.write ++ rest)) =
      readOptional readNatural (phrase.write ++ rest) := by
    rw [readOptional, skipSpace_space, readOptional]
  show (readOptional readNatural _).toOption = _
  rw [behind]
  cases phrase with
  | null => rfl
  | bool b =>
    cases b with
    | true => rfl
    | false => rfl
  | number n => exact readOptional_number n stops
  | text s => rfl
  | array blank items =>
    rw [Phrase.write_array_append]
    rfl
  | object blank entries =>
    rw [Phrase.write_object_append]
    rfl

/-- The items are read as what they stand for. -/
theorem yields_items (phrase : Phrase) (long : phrase.write.length < budget) :
    Yields (itemsField budget).read phrase.write (items? phrase) := by
  intro blank rest stops
  show (readSequence budget (readValue budget (greatestDepth - 2)) _).toOption = _
  rw [readSequence, skipSpace_space]
  cases phrase with
  | null => rfl
  | bool b =>
    cases b with
    | true => rfl
    | false => rfl
  | number n =>
    obtain ⟨c, cs, isText, start⟩ := n.exists_cons
    rw [Phrase.write, isText, List.cons_append, skipSpace_cons (isSpace_of_isNumberStart start)]
    split
    · rfl
    · rename_i isArray
      exact absurd (List.cons.inj isArray).1 (ne_of_isNumberStart start rfl)
    · rfl
  | text s => rfl
  | array blank items =>
    rw [Phrase.write_array_append]
    exact readItems_write
      (fun item mem => readValue_write item.content ((Phrase.length_item_lt mem).trans long) _)
      ((Phrase.length_items_lt blank items).trans long) true blank rest
  | object blank entries =>
    rw [Phrase.write_object_append]
    rfl

/-- What is read as a time is a value. -/
theorem takes_time : Takes timestampField.read := by
  intro cs x rest h
  have h : readOptional readNatural cs = .ok (x, rest) := h
  refine ValueThen.of_skipSpace ?_
  -- either the word null, or a number that is a natural one
  unfold readOptional at h
  split at h
  · rename_i isText
    obtain ⟨behind, word, last⟩ := exists_of_bind_ok h
    cases last
    rw [isText]
    exact valueThen_of_word .null rfl word
  · obtain ⟨⟨n, behind⟩, read, last⟩ := exists_of_bind_ok h
    cases last
    obtain ⟨⟨number, more⟩, wanted, last⟩ := exists_of_bind_ok read
    obtain ⟨natural, -, last⟩ := exists_of_bind_ok last
    cases last
    unfold readWantedNumber at wanted
    split at wanted
    · cases wanted
    · rename_i isText
      split at wanted
      · refine .of_skipSpace ?_
        rw [isText]
        exact valueThen_of_readNumber wanted
      · cases wanted

theorem takes_items : Takes (itemsField budget).read := by
  intro cs x rest h
  have h : readSequence budget (readValue budget (greatestDepth - 2)) cs = .ok (x, rest) := h
  refine ValueThen.of_skipSpace ?_
  unfold readSequence at h
  split at h
  · cases h
  · rename_i isText
    rw [isText]
    exact .of_parts (partsThen_of_readItems (takes_readValue _ _) h)
  · cases h

/-! ### Outlines -/

/-- The time by the values of its members: missing without any, and none if there are several. -/
theorem given?_time (phrases : List Phrase) :
    timestampField.given? time? phrases = timeOf? phrases := by
  match phrases with
  | [] => rfl
  | [p] => rfl
  | p :: q :: others => rfl

theorem given?_items (phrases : List Phrase) :
    (itemsField budget).given? items? phrases = itemsOf? phrases := by
  match phrases with
  | [] => rfl
  | [p] => rfl
  | p :: q :: others => rfl

/-- The two fields of the outline that a value stands for. -/
theorem pair?_eq (budget : ℕ) (phrase : Phrase) :
    (pair? timestampField (itemsField budget) time? items? phrase).map
      (fun (timestamp, items) => { timestamp, items }) = ofPhrase? phrase := by
  cases phrase with
  | object blank entries =>
    simp only [pair?, ofPhrase?, given?_time, given?_items, Option.bind_eq_bind,
      Option.map_eq_bind, Option.bind_assoc]
    rfl
  | array blank items =>
    -- arrays of two elements are pairs, others are none
    cases items with
    | nil => rfl
    | cons time items =>
      cases items with
      | nil =>
        show Option.map _ (Option.bind _ fun _ => none) = none
        rw [Option.bind_fun_none, Option.map_none]
      | cons items others =>
        cases others with
        | nil =>
          simp only [pair?, elements?, List.map_cons, List.map_nil, RecordField.given?, ofPhrase?,
            Option.bind_eq_bind, Option.map_eq_bind, Option.bind_assoc]
          rfl
        | cons other others =>
          show Option.map _ (Option.bind _ fun _ => none) = none
          rw [Option.bind_fun_none, Option.map_none]
  | null => rfl
  | bool b => rfl
  | number n => rfl
  | text s => rfl

/-- A text of the grammar is read as the outline that it stands for. -/
theorem parse_write (p : Padded Phrase) :
    (Envelope.parse (String.ofList (p.write Phrase.write))).toOption = ofPhrase? p.content := by
  have long : p.content.write.length < (p.write Phrase.write).length + 1 :=
    Nat.lt_succ_of_le (length_content_le p)
  have distinct : "items" ≠ "ts" := by decide
  refine readDocument_of_read p.after ?_
  rw [String.toList_ofList]
  generalize (p.write Phrase.write).length + 1 = budget at long ⊢
  -- both members are looked for among all members of the object
  have read := readPair_write (f := timestampField) (g := itemsField budget) distinct
    (fun phrase _ => yields_time phrase) (fun phrase long => yields_items phrase long)
    recordName p.content long p.before p.after.chars p.after.stops
  refine (toOption_bind_read read _).trans ?_
  rw [← pair?_eq budget]
  cases pair? timestampField (itemsField budget) time? items? p.content with
  | none => rfl
  | some pair => rfl

/-- What is read as an outline is a value. -/
theorem takes_read (budget : ℕ) : Takes (Envelope.read budget) := by
  intro cs envelope rest h
  obtain ⟨⟨pair, behind⟩, read, last⟩ := exists_of_bind_ok h
  cases last
  exact takes_readPair takes_time takes_items recordName read

/-- The text is written as a value that stands for the outline. -/
def IsOutlineOf (envelope : Envelope) (text : String) : Prop :=
  ∃ p : Padded Phrase, text = String.ofList (p.write Phrase.write) ∧
    ofPhrase? p.content = some envelope

/-- The texts with an outline are those that are read. -/
theorem parse_eq_ok_iff (text : String) (envelope : Envelope) :
    Envelope.parse text = .ok envelope ↔ envelope.IsOutlineOf text := by
  constructor
  · intro h
    obtain ⟨p, rfl⟩ := exists_phrase_of_readDocument takes_read h
    exact ⟨p, rfl, by rw [← parse_write, h]; rfl⟩
  · rintro ⟨p, rfl, isOutline⟩
    exact toOption_eq_some_iff.mp ((parse_write p).trans isOutline)

/-- A value with items that stand for something, whose time is `null` or missing. -/
inductive IsTimeless : Phrase → Prop
  | object {blank itemsBlank : Space} {entries : List (Entry Phrase)} {items : List (Padded Phrase)}
    (names : ∀ entry ∈ entries, Glyph.IsPaired entry.name.content)
    (hasNoTime : Entry.valuesOf "ts" entries = [] ∨ Entry.valuesOf "ts" entries = [.null])
    (hasItems : Entry.valuesOf "items" entries = [.array itemsBlank items])
    (readable : ∀ item ∈ items, item.content.IsReadable (greatestDepth - 2)) :
    IsTimeless (.object blank entries)
  | array {blank itemsBlank before after before' after' : Space} {items : List (Padded Phrase)}
    (readable : ∀ item ∈ items, item.content.IsReadable (greatestDepth - 2)) :
    IsTimeless (.array blank [⟨before, .null, after⟩, ⟨before', .array itemsBlank items, after'⟩])

/-- A time is left open by `null` only. -/
theorem time?_eq_none_iff (phrase : Phrase) : time? phrase = some none ↔ phrase = .null := by
  constructor
  · intro h
    unfold time? at h
    split at h
    · rfl
    · split at h
      · cases h
      · cases h
    · cases h
  · rintro rfl
    rfl

/-- The outline has no time if the member is missing or `null`. -/
theorem timeOf?_eq_none_iff (phrases : List Phrase) :
    timeOf? phrases = some none ↔ phrases = [] ∨ phrases = [.null] := by
  match phrases with
  | [] => simp [timeOf?]
  | [p] => simp [timeOf?, time?_eq_none_iff]
  | p :: q :: others => simp [timeOf?]

/-- Items are read from an array of readable values. -/
theorem isSome_items?_iff (phrase : Phrase) :
    (items? phrase).isSome ↔ ∃ (blank : Space) (items : List (Padded Phrase)),
      phrase = .array blank items ∧
        ∀ item ∈ items, item.content.IsReadable (greatestDepth - 2) := by
  cases phrase with
  | array blank items =>
    simp only [items?, isSome_mapM_iff, Phrase.isSome_value?_iff]
    constructor
    · exact fun readable => ⟨blank, items, rfl, readable⟩
    · rintro ⟨_, _, same, readable⟩
      cases same
      exact readable
  | null => simp [items?]
  | bool b => simp [items?]
  | number n => simp [items?]
  | text s => simp [items?]
  | object blank entries => simp [items?]

/-- Items are read if there is one such member, an array of readable values. -/
theorem exists_itemsOf?_iff {phrases : List Phrase} :
    (∃ values, itemsOf? phrases = some values) ↔ ∃ (blank : Space) (items : List (Padded Phrase)),
      phrases = [.array blank items] ∧
        ∀ item ∈ items, item.content.IsReadable (greatestDepth - 2) := by
  match phrases with
  | [] => simp [itemsOf?]
  | [p] =>
    simp only [itemsOf?, ← Option.isSome_iff_exists, isSome_items?_iff, List.cons.injEq, and_true]
  | p :: q :: others => simp [itemsOf?]

/-- The values whose outline has no time. -/
theorem exists_ofPhrase?_iff (phrase : Phrase) :
    (∃ items, ofPhrase? phrase = some ⟨none, items⟩) ↔ IsTimeless phrase := by
  constructor
  · rintro ⟨values, h⟩
    unfold ofPhrase? at h
    split at h
    · rename_i blank entries
      obtain ⟨names, isNames, h⟩ := Option.bind_eq_some_iff.mp h
      obtain ⟨timestamp, isTime, h⟩ := Option.bind_eq_some_iff.mp h
      obtain ⟨items, isItems, h⟩ := Option.bind_eq_some_iff.mp h
      cases h
      obtain ⟨itemsBlank, items, hasItems, readable⟩ := exists_itemsOf?_iff.mp ⟨_, isItems⟩
      exact .object (Entry.isSome_names?_iff.mp (Option.isSome_iff_exists.mpr ⟨_, isNames⟩))
        ((timeOf?_eq_none_iff _).mp isTime) hasItems readable
    · rename_i blank time value
      -- in an array the time comes first and the items second
      obtain ⟨before, content, after⟩ := time
      obtain ⟨before', content', after'⟩ := value
      obtain ⟨timestamp, isTime, h⟩ := Option.bind_eq_some_iff.mp h
      obtain ⟨items, isItems, h⟩ := Option.bind_eq_some_iff.mp h
      cases h
      obtain rfl := (time?_eq_none_iff _).mp isTime
      obtain ⟨itemsBlank, items, rfl, readable⟩ :=
        (isSome_items?_iff _).mp (Option.isSome_iff_exists.mpr ⟨_, isItems⟩)
      exact .array readable
    · cases h
  · intro timeless
    cases timeless with
    | object names hasNoTime hasItems readable =>
      obtain ⟨names, isNames⟩ := Option.isSome_iff_exists.mp (Entry.isSome_names?_iff.mpr names)
      obtain ⟨values, isItems⟩ := exists_itemsOf?_iff.mpr ⟨_, _, hasItems, readable⟩
      refine ⟨values, ?_⟩
      rw [ofPhrase?, isNames, (timeOf?_eq_none_iff _).mpr hasNoTime, isItems]
      rfl
    | array readable =>
      obtain ⟨values, isItems⟩ := Option.isSome_iff_exists.mp
        ((isSome_items?_iff _).mpr ⟨_, _, rfl, readable⟩)
      refine ⟨values, ?_⟩
      rw [ofPhrase?, isItems]
      rfl

end Envelope

end DeadReckoning
