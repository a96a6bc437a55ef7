import DeadReckoning.Proofs.Json.Range
import DeadReckoning.Proofs.Wire.Acceptance

namespace DeadReckoning

open Json

/-!
# Limits — which numbers drop a message

A number beyond the doubles drops the message that it is in. As long as a text has at most two
billion characters, these are none of the numbers up to `10 ^ 308` and all numbers from twice of
that on. Only the numbers in the items count: what the other members of a message hold is passed
over.

* `Numeral.IsIn` — a numeral stands somewhere in a value
* `Phrase.IsWellFormed`, `Message.IsWellFormed` — all but the numbers is fit to be read
* `Phrase.isReadable_iff_isWellFormed` — a value is readable by its form and its numbers
* `Message.exists_parse_of_magnitude_le` — numbers up to `10 ^ 308` are read
* `Message.exists_fault_of_le_magnitude` — a number from twice of that on drops the message
-/

namespace Json

variable {n : Numeral} {depth : ℕ} {phrase : Phrase}

/-! ### The numbers of a value -/

/-- A numeral stands somewhere in a value. -/
inductive Numeral.IsIn (n : Numeral) : Phrase → Prop
  | number : IsIn n (.number n)
  | item {blank : Space} {items : List (Padded Phrase)} {item : Padded Phrase} (mem : item ∈ items)
    (inside : IsIn n item.content) : IsIn n (.array blank items)
  | entry {blank : Space} {entries : List (Entry Phrase)} {entry : Entry Phrase}
    (mem : entry ∈ entries) (inside : IsIn n entry.value.content) : IsIn n (.object blank entries)

/-- A numeral is not longer than a value that it stands in. -/
theorem Numeral.IsIn.length_le (isIn : n.IsIn phrase) :
    n.write.length ≤ phrase.write.length := by
  induction isIn with
  | number => exact le_rfl
  | item mem _ ih => exact ih.trans (Phrase.length_item_lt mem).le
  | entry mem _ ih => exact ih.trans (Phrase.length_entry_lt mem).le

namespace Phrase

/-- A value that is nested at most `depth` levels deep, with halves of pairs only beside each other
and any numbers. -/
inductive IsWellFormed : (depth : ℕ) → Phrase → Prop
  | null {depth : ℕ} : IsWellFormed depth null
  | bool {depth : ℕ} {b : Bool} : IsWellFormed depth (bool b)
  | number {depth : ℕ} {n : Numeral} : IsWellFormed depth (number n)
  | text {depth : ℕ} {s : List Glyph} (paired : Glyph.IsPaired s) : IsWellFormed depth (text s)
  | array {depth : ℕ} {blank : Space} {items : List (Padded Phrase)}
    (each : ∀ item ∈ items, IsWellFormed depth item.content) :
    IsWellFormed (depth + 1) (array blank items)
  | object {depth : ℕ} {blank : Space} {entries : List (Entry Phrase)}
    (names : ∀ entry ∈ entries, Glyph.IsPaired entry.name.content)
    (each : ∀ entry ∈ entries, IsWellFormed depth entry.value.content) :
    IsWellFormed (depth + 1) (object blank entries)

/-- The form of a readable value is right, whatever its numbers are. -/
theorem IsReadable.isWellFormed (readable : phrase.IsReadable depth) :
    phrase.IsWellFormed depth := by
  induction readable with
  | null => exact .null
  | bool => exact .bool
  | number _ => exact .number
  | text paired => exact .text paired
  | array _ ih => exact .array ih
  | object names _ ih => exact .object names ih

/-- No number of a readable value is beyond the doubles, however deep it stands. -/
theorem IsReadable.isInRange (readable : phrase.IsReadable depth) (isIn : n.IsIn phrase) :
    n.IsInRange := by
  induction isIn generalizing depth with
  | number =>
    cases readable with
    | number inRange => exact inRange
  | item mem _ ih =>
    cases readable with
    | array each => exact ih (each _ mem)
  | entry mem _ ih =>
    cases readable with
    | object _ each => exact ih (each _ mem)

/-- A value whose form is right is readable if no number in it is beyond the doubles. -/
theorem IsWellFormed.isReadable (wellFormed : phrase.IsWellFormed depth)
    (inRange : ∀ n : Numeral, n.IsIn phrase → n.IsInRange) : phrase.IsReadable depth := by
  induction wellFormed with
  | null => exact .null
  | bool => exact .bool
  | number => exact .number (inRange _ .number)
  | text paired => exact .text paired
  | array _ ih =>
    exact .array fun item mem => ih item mem fun n inside => inRange n (.item mem inside)
  | object names _ ih =>
    exact .object names fun entry mem =>
      ih entry mem fun n inside => inRange n (.entry mem inside)

/-- Whether a value is readable is up to its form and to each number in it. -/
theorem isReadable_iff_isWellFormed : phrase.IsReadable depth ↔
    phrase.IsWellFormed depth ∧ ∀ n : Numeral, n.IsIn phrase → n.IsInRange :=
  ⟨fun readable => ⟨readable.isWellFormed, fun _ => readable.isInRange⟩,
    fun ⟨wellFormed, inRange⟩ => wellFormed.isReadable inRange⟩

end Phrase

end Json

/-! ### The numbers of a message -/

namespace Message

variable {m : Message} {n : Numeral}

/-- All names of a message have their pairs, and its items are well formed. -/
structure IsWellFormed (m : Message) : Prop where
  names : ∀ entry ∈ m.entries, Glyph.IsPaired entry.name.content
  items : ∀ item ∈ m.items, item.content.IsWellFormed (greatestDepth - 2)

/-- A numeral stands in an item of a message. -/
def Holds (m : Message) (n : Numeral) : Prop := ∃ item ∈ m.items, n.IsIn item.content

/-- Whether a message is readable is up to its form and to each number in its items. -/
theorem isReadable_iff_isWellFormed :
    m.IsReadable ↔ m.IsWellFormed ∧ ∀ n, m.Holds n → n.IsInRange := by
  constructor
  · intro ⟨names, items⟩
    refine ⟨⟨names, fun item mem => (items item mem).isWellFormed⟩, ?_⟩
    rintro n ⟨item, mem, inside⟩
    exact (items item mem).isInRange inside
  · intro ⟨⟨names, items⟩, inRange⟩
    exact ⟨names, fun item mem =>
      (items item mem).isReadable fun n inside => inRange n ⟨item, mem, inside⟩⟩

/-- A number in an item is part of the text. -/
theorem length_le_of_holds (holds : m.Holds n) : n.write.length ≤ m.text.length := by
  obtain ⟨item, mem, inside⟩ := holds
  have inItems : n.IsIn (.array m.itemsBlank m.items) := .item mem inside
  -- the list of items is the value of a member of the message
  have member : Phrase.array m.itemsBlank m.items ∈ Entry.valuesOf "items" m.entries := by
    rw [m.hasItems]
    exact List.mem_singleton_self _
  obtain ⟨entry, isEntry, isValue⟩ := List.mem_map.mp member
  have inEntries : n.IsIn (.object m.blank m.entries) :=
    .entry (List.mem_of_mem_filter isEntry) (isValue ▸ inItems)
  have part := inEntries.length_le
  rw [text, String.length_ofList, List.length_append, List.length_append]
  omega

/-- Numbers up to `10 ^ 308` drop no message: if nothing else stands against it, the message is read
and every item is accounted for. -/
theorem exists_parse_of_magnitude_le (short : m.text.length ≤ 2 * 10 ^ 9)
    (wellFormed : m.IsWellFormed) (le : ∀ n, m.Holds n → n.magnitude ≤ 10 ^ 308) :
    ∃ batch, Batch.parse m.text = .ok batch ∧ batch.serverTime = m.time ∧
      batch.sightings.length + batch.refusals.length = m.items.length := by
  refine exists_parse_of_isReadable (isReadable_iff_isWellFormed.mpr ⟨wellFormed, ?_⟩)
  intro n holds
  exact n.isInRange_of_le ((length_le_of_holds holds).trans short) (le n holds)

/-- One number from twice of that on drops the message with all its items. -/
theorem exists_fault_of_le_magnitude (short : m.text.length ≤ 2 * 10 ^ 9) (holds : m.Holds n)
    (le : 2 * 10 ^ 308 ≤ n.magnitude) :
    ∃ fault, Batch.parse m.text = .error (.malformed fault) := by
  apply exists_fault_of_not_isReadable
  intro readable
  have inRange := (isReadable_iff_isWellFormed.mp readable).2 n holds
  exact n.not_isInRange_of_le ((length_le_of_holds holds).trans short) le inRange

end Message

end DeadReckoning
