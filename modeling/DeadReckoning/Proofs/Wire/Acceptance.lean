import DeadReckoning.Proofs.Wire.Outline

namespace DeadReckoning

open Json

/-!
# Messages — which ones are read

A message is read if its outline is an object with one time and one list of items. Yet all items are
made into values before the first of them is judged, so that a value that the reader refuses takes
the whole message with it: one that is nested too deep, holds a number beyond the doubles, or holds
half of a pair of escapes. So does the name of a member, though not the value of a member that
nobody asked for. Every item of a message that is read is accounted for.

* `Message` — a message as it is written, with any items and other members
* `Message.parse_envelope` — its outline
* `Message.IsReadable` — all of its names and items stand for something
* `Message.message_is_read_or_dropped` — then it is read, and else it is not
-/

/-- A message as it is written: an object with one member for the time, one for the items, and any
others. -/
structure Message where
  before : Space
  blank : Space
  entries : List (Entry Phrase)
  after : Space
  time : Micros
  itemsBlank : Space
  items : List (Padded Phrase)
  hasTime : Entry.valuesOf "ts" entries = [.number (.natural time)]
  hasItems : Entry.valuesOf "items" entries = [.array itemsBlank items]

namespace Batch

/-- Every outcome is a sighting or a refusal. -/
theorem length_sort (index : ℕ) (outcomes : List (Except ItemError (Sighting Float))) :
    (sort index outcomes).1.length + (sort index outcomes).2.length = outcomes.length := by
  induction outcomes generalizing index with
  | nil => rfl
  | cons outcome outcomes ih =>
    have others := ih (index + 1)
    cases outcome with
    | ok s =>
      show (s :: (sort (index + 1) outcomes).1).length + (sort (index + 1) outcomes).2.length = _
      rw [List.length_cons, List.length_cons]
      omega
    | error e =>
      show (sort (index + 1) outcomes).1.length +
        (Refusal.mk index e :: (sort (index + 1) outcomes).2).length = _
      rw [List.length_cons, List.length_cons]
      omega

/-- As many outcomes as items. -/
theorem length_ofItems (time : Micros) (items : List Value) :
    (ofItems time items).sightings.length + (ofItems time items).refusals.length =
      items.length := by
  have counts := length_sort 0 (items.map Sighting.ofValue)
  rwa [List.length_map] at counts

end Batch

namespace Message

/-- The text of a message. -/
def text (m : Message) : String :=
  String.ofList (m.before.chars ++ ((Phrase.object m.blank m.entries).write ++ m.after.chars))

/-- What the items stand for, two levels below the top. -/
def values? (m : Message) : Option (List Value) :=
  m.items.mapM fun item => item.content.value? (greatestDepth - 2)

/-- The outline of a message. -/
theorem parse_envelope (m : Message) :
    (Envelope.parse m.text).toOption =
      (Entry.names? m.entries).bind fun _ => m.values?.map fun values => ⟨some m.time, values⟩ := by
  have time : Envelope.time? (.number (.natural m.time)) = some (some m.time) := by
    rw [Envelope.time?, Numeral.number?_natural]
  refine (Envelope.parse_write ⟨m.before, .object m.blank m.entries, m.after⟩).trans ?_
  rw [Envelope.ofPhrase?, m.hasTime, m.hasItems, Envelope.timeOf?, time]
  cases Entry.names? m.entries with
  | none => rfl
  | some names =>
    show (Option.bind m.values? _) = m.values?.map _
    cases m.values? with
    | none => rfl
    | some values => rfl

/-- All names and all items of the message stand for something. -/
structure IsReadable (m : Message) : Prop where
  names : ∀ entry ∈ m.entries, Glyph.IsPaired entry.name.content
  items : ∀ item ∈ m.items, item.content.IsReadable (greatestDepth - 2)

/-- A message is readable if all its names and items stand for something. -/
theorem isReadable_iff (m : Message) :
    m.IsReadable ↔ (Entry.names? m.entries).isSome ∧ m.values?.isSome := by
  simp only [Entry.isSome_names?_iff, values?, isSome_mapM_iff, Phrase.isSome_value?_iff]
  exact ⟨fun readable => ⟨readable.names, readable.items⟩,
    fun isSome => ⟨isSome.1, isSome.2⟩⟩

/-- A message whose names and items all stand for something is read, and every item is accounted
for. -/
theorem exists_parse_of_isReadable {m : Message} (readable : m.IsReadable) :
    ∃ batch, Batch.parse m.text = .ok batch ∧ batch.serverTime = m.time ∧
      batch.sightings.length + batch.refusals.length = m.items.length := by
  have outline := m.parse_envelope
  obtain ⟨names, values⟩ := m.isReadable_iff.mp readable
  obtain ⟨names, isNames⟩ := Option.isSome_iff_exists.mp names
  obtain ⟨values, isValues⟩ := Option.isSome_iff_exists.mp values
  rw [isNames, isValues] at outline
  have envelope := toOption_eq_some_iff.mp outline
  have count := length_of_mapM_eq_some isValues
  refine ⟨Batch.ofItems m.time values, ?_, rfl, ?_⟩
  · rw [Batch.parse, envelope]
  · rw [Batch.length_ofItems, count]

/-- Any other message is dropped as a whole. -/
theorem exists_fault_of_not_isReadable {m : Message} (unreadable : ¬m.IsReadable) :
    ∃ fault, Batch.parse m.text = .error (.malformed fault) := by
  rw [isReadable_iff] at unreadable
  have none : (Envelope.parse m.text).toOption = none := by
    rw [m.parse_envelope]
    cases isNames : Entry.names? m.entries with
    | none => rfl
    | some names =>
      cases isValues : m.values? with
      | none => rfl
      | some values => exact absurd ⟨by rw [isNames]; rfl, by rw [isValues]; rfl⟩ unreadable
  obtain ⟨fault, malformed⟩ := toOption_eq_none_iff.mp none
  exact ⟨fault, by rw [Batch.parse, malformed]⟩

/-- A message whose names and items all stand for something is read, and every item is accounted
for; any other message is dropped as a whole. -/
theorem message_is_read_or_dropped (m : Message) :
    (m.IsReadable → ∃ batch, Batch.parse m.text = .ok batch ∧ batch.serverTime = m.time ∧
      batch.sightings.length + batch.refusals.length = m.items.length) ∧
    (¬m.IsReadable → ∃ fault, Batch.parse m.text = .error (.malformed fault)) :=
  ⟨exists_parse_of_isReadable, exists_fault_of_not_isReadable⟩

/-! ### Two ships -/

/-- Characters that are written as they are. -/
def plain : (cs : List Char) → (∀ c ∈ cs, IsPlain c) → List Glyph
  | [], _ => []
  | c :: cs, isPlain =>
    .plain c (isPlain c List.mem_cons_self) ::
      plain cs fun d mem => isPlain d (List.mem_cons_of_mem c mem)

/-- Characters that are written as they are stand for themselves. -/
theorem text?_plain (cs : List Char) (isPlain : ∀ c ∈ cs, IsPlain c) :
    Glyph.text? (plain cs isPlain) = some (String.ofList cs) := by
  have decodes : Glyph.decode? (plain cs isPlain) = some cs := by
    induction cs with
    | nil => rfl
    | cons c cs ih => rw [plain, Glyph.decode?, ih, Option.map_some]
  rw [Glyph.text?, decodes, Option.map_some]

/-- A member without white space. -/
def member (cs : List Char) (isPlain : ∀ c ∈ cs, IsPlain c) (value : Phrase) : Entry Phrase :=
  ⟨⟨.none, plain cs isPlain, .none⟩, ⟨.none, value, .none⟩⟩

/-- The numeral `1e400`. -/
def tooLarge : Numeral where
  negative := false
  whole := ['1']
  isWhole := ⟨by simp, by simp, fun cs isZero => by cases isZero⟩
  places := none
  exponent := some ⟨'e', .inl rfl, none, ⟨['4', '0', '0'], by simp, by simp⟩⟩

/-- A ship at rest. -/
def shipAt (id : UInt64) (y : Numeral) : Phrase :=
  .object .none [
    member ['t', 'y', 'p', 'e'] (by simp [IsPlain])
      (.text (plain ['s', 'h', 'i', 'p'] (by simp [IsPlain]))),
    member ['i', 'd'] (by simp [IsPlain]) (.number (.natural id)),
    member ['p', 'o', 's'] (by simp [IsPlain])
      (.array .none [⟨.none, .number (.natural 0), .none⟩, ⟨.none, .number y, .none⟩,
        ⟨.none, .number (.natural 0), .none⟩, ⟨.none, .number (.natural 0), .none⟩])]

/-- Two ships, the first of which is anywhere. -/
def twoShips (y : Numeral) : Message :=
  let ships : List (Padded Phrase) :=
    [⟨.none, shipAt 1 y, .none⟩, ⟨.none, shipAt 2 (.natural 7), .none⟩]
  { before := .none
    blank := .none
    entries := [
      member ['t', 's'] (by simp [IsPlain]) (.number (.natural 5)),
      member ['i', 't', 'e', 'm', 's'] (by simp [IsPlain]) (.array .none ships)]
    after := .none
    time := 5
    itemsBlank := .none
    items := ships
    hasTime := by
      rw [Entry.valuesOf_cons_same (text?_plain _ _), Entry.valuesOf_cons_other]
      · rfl
      · refine (text?_plain _ _).trans_ne ?_
        decide +kernel
    hasItems := by
      rw [Entry.valuesOf_cons_other, Entry.valuesOf_cons_same (text?_plain _ _)]
      · rfl
      · refine (text?_plain _ _).trans_ne ?_
        decide +kernel }

/-- With a number that is a double both ships are accounted for. -/
theorem two_ships_are_read :
    ∃ batch, Batch.parse (twoShips (.natural 3)).text = .ok batch ∧ batch.serverTime = 5 ∧
      batch.sightings.length + batch.refusals.length = 2 := by
  have names : (Entry.names? (twoShips (.natural 3)).entries).isSome := by decide +kernel
  have values : (twoShips (.natural 3)).values?.isSome := by decide +kernel
  exact (message_is_read_or_dropped (twoShips (.natural 3))).1
    ((isReadable_iff _).mpr ⟨names, values⟩)

/-- A bad number takes the other ship with it, so that not every message has its items accounted
for. -/
theorem bad_number_drops_message :
    (twoShips tooLarge).text = "\x7b\"ts\":5,\"items\":[" ++
      "\x7b\"type\":\"ship\",\"id\":1,\"pos\":[0,1e400,0,0]\x7d," ++
      "\x7b\"type\":\"ship\",\"id\":2,\"pos\":[0,7,0,0]\x7d]\x7d" ∧
    ¬∀ m : Message, ∃ batch, Batch.parse m.text = .ok batch ∧ batch.serverTime = m.time ∧
      batch.sightings.length + batch.refusals.length = m.items.length := by
  refine ⟨by decide +kernel, fun all => ?_⟩
  obtain ⟨batch, read, -⟩ := all (twoShips tooLarge)
  have dropped : (Batch.parse (twoShips tooLarge).text).toOption.isNone = true := by decide +kernel
  rw [read] at dropped
  cases dropped

end Message

end DeadReckoning
