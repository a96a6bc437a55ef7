import DeadReckoning.Proofs.Wire.Acceptance

namespace DeadReckoning

open Json

/-!
# Outcomes — each item of a message is judged by itself

The sightings and the refusals of a batch are two lists that grow apart, yet nothing of the message
is lost in them: a refusal tells its place, and the other places are those of the sightings, in
order. So the outcome of an item can be told from the batch, and depends on that item alone.

* `Batch.refusal?` — the refusal of an item that is no sighting
* `Batch.outcome?` — what became of an item, as far as a batch tells
* `Batch.Judges` — a batch accounts for the items of a message, each by itself
* `Batch.judges_ofItems` — so does every batch that is read
* `Batch.items_are_judged_alone` — with the texts that are read, and those that have no time
-/

namespace Batch

/-- The refusal of an item that is no sighting. -/
def refusal? (v : Value) (index : ℕ) : Option Refusal :=
  match Sighting.ofValue v with
  | .ok _ => none
  | .error error => some { index, error }

/-- What became of the item at a place, as far as the batch tells: it was refused there, or it is
the next sighting after those of the places before it. -/
def outcome? (batch : Batch Float) (i : ℕ) : Option (Except ItemError (Sighting Float)) :=
  match batch.refusals.find? (·.index = i) with
  | some refusal => some (.error refusal.error)
  | none => batch.sightings[i - batch.refusals.countP (·.index < i)]?.map .ok

/-- The batch accounts for these items: the sightings are those of the items that are one, in
order, the refusals are those of all others, with their places, and each item has its outcome. -/
structure Judges (batch : Batch Float) (items : List Value) : Prop where
  sightings : batch.sightings = items.filterMap fun v => (Sighting.ofValue v).toOption
  refusals : batch.refusals = items.zipIdx.filterMap fun (v, i) => refusal? v i
  increasing : batch.refusals.Pairwise (·.index < ·.index)
  complete : batch.sightings.length + batch.refusals.length = items.length
  outcome (i : ℕ) : batch.outcome? i = items[i]?.map Sighting.ofValue

/-! ### Sorting items -/

variable {index : ℕ} {v : Value} {items : List Value}

/-- The sightings and refusals of items that are numbered from `index`. -/
def sorted (index : ℕ) (items : List Value) : List (Sighting Float) × List Refusal :=
  sort index (items.map Sighting.ofValue)

/-- A sighting goes to the sightings. -/
theorem sorted_cons_ok {s : Sighting Float} (isSighting : Sighting.ofValue v = .ok s) :
    sorted index (v :: items) =
      (s :: (sorted (index + 1) items).1, (sorted (index + 1) items).2) := by
  rw [sorted, List.map_cons, isSighting]
  rfl

/-- An item with an error goes to the refusals, with its place. -/
theorem sorted_cons_error {error : ItemError} (isError : Sighting.ofValue v = .error error) :
    sorted index (v :: items) =
      ((sorted (index + 1) items).1, { index, error } :: (sorted (index + 1) items).2) := by
  rw [sorted, List.map_cons, isError]
  rfl

theorem refusal?_ok {s : Sighting Float} (isSighting : Sighting.ofValue v = .ok s) (i : ℕ) :
    refusal? v i = none := by
  unfold refusal?
  rw [isSighting]

theorem refusal?_error {error : ItemError} (isError : Sighting.ofValue v = .error error) (i : ℕ) :
    refusal? v i = some ⟨i, error⟩ := by
  unfold refusal?
  rw [isError]

/-- The sightings are those of all items, in their order. -/
theorem sightings_sorted (index : ℕ) (items : List Value) :
    (sorted index items).1 = items.filterMap fun v => (Sighting.ofValue v).toOption := by
  induction items generalizing index with
  | nil => rfl
  | cons v items ih =>
    cases outcome : Sighting.ofValue v with
    | ok s =>
      rw [sorted_cons_ok outcome, ih, List.filterMap_cons_some]
      rw [outcome]
      rfl
    | error e =>
      rw [sorted_cons_error outcome, ih, List.filterMap_cons_none]
      rw [outcome]
      rfl

/-- The refusals are those of all items, in their order and with their places. -/
theorem refusals_sorted (index : ℕ) (items : List Value) :
    (sorted index items).2 = (items.zipIdx index).filterMap fun (v, i) => refusal? v i := by
  induction items generalizing index with
  | nil => rfl
  | cons v items ih =>
    rw [List.zipIdx_cons]
    cases outcome : Sighting.ofValue v with
    | ok s =>
      rw [sorted_cons_ok outcome, ih, List.filterMap_cons_none]
      exact refusal?_ok outcome index
    | error e =>
      rw [sorted_cons_error outcome, ih, List.filterMap_cons_some]
      exact refusal?_error outcome index

/-- The places of the refusals are counted from the first item. -/
theorem le_index {refusal : Refusal} (mem : refusal ∈ (sorted index items).2) :
    index ≤ refusal.index := by
  induction items generalizing index with
  | nil => cases mem
  | cons v items ih =>
    cases outcome : Sighting.ofValue v with
    | ok s =>
      rw [sorted_cons_ok outcome] at mem
      exact Nat.le_of_succ_le (ih mem)
    | error e =>
      rw [sorted_cons_error outcome] at mem
      rcases List.mem_cons.mp mem with rfl | mem
      · exact le_rfl
      · exact Nat.le_of_succ_le (ih mem)

/-- The places of the refusals increase. -/
theorem pairwise_index (index : ℕ) (items : List Value) :
    (sorted index items).2.Pairwise (·.index < ·.index) := by
  induction items generalizing index with
  | nil => exact .nil
  | cons v items ih =>
    cases outcome : Sighting.ofValue v with
    | ok s =>
      rw [sorted_cons_ok outcome]
      exact ih (index + 1)
    | error e =>
      rw [sorted_cons_error outcome]
      exact .cons (fun refusal mem => le_index mem) (ih (index + 1))

/-- There are no more refusals before a place than places. -/
theorem count_refusals_le (index i : ℕ) (items : List Value) :
    (sorted index items).2.countP (·.index < index + i) ≤ i := by
  induction items generalizing index i with
  | nil => exact Nat.zero_le i
  | cons v items ih =>
    cases i with
    | zero =>
      rw [List.countP_eq_zero.mpr fun refusal mem => ?_]
      have after := le_index mem
      simpa using after
    | succ i =>
      have place : index + (i + 1) = index + 1 + i := by omega
      have others := ih (index + 1) i
      rw [place]
      cases outcome : Sighting.ofValue v with
      | ok s =>
        rw [sorted_cons_ok outcome]
        exact Nat.le_succ_of_le others
      | error e =>
        have before : index < index + 1 + i := by omega
        rw [sorted_cons_error outcome, List.countP_cons_of_pos (by simpa using before)]
        exact Nat.succ_le_succ others

/-- The outcome of each item stands at its place among the sightings and refusals. -/
theorem outcome_sorted (index i : ℕ) (items : List Value) :
    (match (sorted index items).2.find? (·.index = index + i) with
    | some refusal => some (.error refusal.error)
    | none => (sorted index items).1[i - (sorted index items).2.countP
        (·.index < index + i)]?.map .ok) = items[i]?.map Sighting.ofValue := by
  induction items generalizing index i with
  | nil => rfl
  | cons v items ih =>
    cases i with
    | zero =>
      cases outcome : Sighting.ofValue v with
      | ok s =>
        have none : (sorted (index + 1) items).2.find? (·.index = index + 0) = none := by
          rw [List.find?_eq_none]
          intro refusal mem
          have after := le_index mem
          simp only [decide_eq_true_eq]
          omega
        rw [sorted_cons_ok outcome, none, Nat.zero_sub, List.getElem?_cons_zero,
          List.getElem?_cons_zero, Option.map_some, Option.map_some, outcome]
      | error e =>
        rw [sorted_cons_error outcome, List.find?_cons_of_pos (by simp),
          List.getElem?_cons_zero, Option.map_some, outcome]
    | succ i =>
      have place : index + (i + 1) = index + 1 + i := by omega
      have few := count_refusals_le (index + 1) i items
      rw [place, List.getElem?_cons_succ, ← ih (index + 1) i]
      cases outcome : Sighting.ofValue v with
      | ok s =>
        -- one more sighting stands before the place
        have next : ∀ count ≤ i, i + 1 - count = i - count + 1 := by omega
        rw [sorted_cons_ok outcome, next _ few, List.getElem?_cons_succ]
      | error e =>
        -- one more refusal does
        have before : index < index + 1 + i := by omega
        have other : ¬index = index + 1 + i := by omega
        rw [sorted_cons_error outcome, List.find?_cons_of_neg (by simpa using other),
          List.countP_cons_of_pos (by simpa using before), Nat.add_sub_add_right]

/-- What is made of items judges each of them. -/
theorem judges_ofItems (time : Micros) (items : List Value) :
    (ofItems time items).Judges items where
  sightings := sightings_sorted 0 items
  refusals := refusals_sorted 0 items
  increasing := pairwise_index 0 items
  complete := length_ofItems time items
  outcome i := by
    have outcome := outcome_sorted 0 i items
    rwa [Nat.zero_add] at outcome

/-- A batch that accounts for items is the one that they make. -/
theorem Judges.eq_ofItems {batch : Batch Float} (judges : batch.Judges items) :
    batch = ofItems batch.serverTime items := by
  obtain ⟨time, sightings, refusals⟩ := batch
  have made := judges_ofItems time items
  obtain rfl : sightings = _ := judges.sightings.trans made.sightings.symm
  obtain rfl : refusals = _ := judges.refusals.trans made.refusals.symm
  rfl

/-! ### Messages -/

/-- A message is read if its text has an outline with a time, and then every item is judged. -/
theorem parse_eq_ok_iff (text : String) (batch : Batch Float) :
    Batch.parse text = .ok batch ↔ ∃ items : List Value,
      (Envelope.mk (some batch.serverTime) items).IsOutlineOf text ∧ batch.Judges items := by
  unfold Batch.parse
  constructor
  · intro h
    split at h
    · cases h
    · cases h
    · rename_i time items outline
      cases h
      exact ⟨items, (Envelope.parse_eq_ok_iff text _).mp outline, judges_ofItems time items⟩
  · rintro ⟨items, outline, judges⟩
    rw [(Envelope.parse_eq_ok_iff text _).mpr outline, judges.eq_ofItems]
    rfl

/-- The items that a batch accounts for are those of its text. -/
theorem judges_of_outline {text : String} {batch : Batch Float} {envelope : Envelope}
    (read : Batch.parse text = .ok batch) (outline : envelope.IsOutlineOf text) :
    batch.Judges envelope.items := by
  obtain ⟨items, outlined, judges⟩ := (parse_eq_ok_iff text batch).mp read
  have first := (Envelope.parse_eq_ok_iff text envelope).mpr outline
  have second := (Envelope.parse_eq_ok_iff text _).mpr outlined
  obtain rfl := Except.ok.inj (first.symm.trans second)
  exact judges

/-- A message is dropped for want of a time if its text has an outline without one. -/
theorem parse_eq_noTimestamp_iff (text : String) :
    Batch.parse text = .error .noTimestamp ↔ ∃ p : Padded Phrase,
      text = String.ofList (p.write Phrase.write) ∧ Envelope.IsTimeless p.content := by
  have outline : Batch.parse text = .error .noTimestamp ↔
      ∃ items, Envelope.parse text = .ok ⟨none, items⟩ := by
    unfold Batch.parse
    constructor
    · intro h
      split at h
      · cases h
      · rename_i items outline
        exact ⟨items, outline⟩
      · cases h
    · rintro ⟨items, outline⟩
      rw [outline]
  simp only [outline, Envelope.parse_eq_ok_iff, Envelope.IsOutlineOf,
    ← Envelope.exists_ofPhrase?_iff]
  exact ⟨fun ⟨items, p, isText, isOutline⟩ => ⟨p, isText, items, isOutline⟩,
    fun ⟨p, isText, items, isOutline⟩ => ⟨items, p, isText, isOutline⟩⟩

/-- Every message that is read has its items judged one by one: the sightings and refusals tell the
outcome of each, in order, and for two messages the outcomes are the same wherever the items are. A
message is dropped for want of a time if nothing else is wrong with its outline. -/
theorem items_are_judged_alone :
    (∀ (text : String) (batch : Batch Float), Batch.parse text = .ok batch ↔
      ∃ items : List Value, (Envelope.mk (some batch.serverTime) items).IsOutlineOf text ∧
        batch.Judges items) ∧
    (∀ (text text' : String) (batch batch' : Batch Float) (items items' : List Value) (S : Set ℕ),
      Batch.parse text = .ok batch → Batch.parse text' = .ok batch' →
      batch.serverTime = batch'.serverTime →
      (Envelope.mk (some batch.serverTime) items).IsOutlineOf text →
      (Envelope.mk (some batch'.serverTime) items').IsOutlineOf text' →
      (∀ i ∉ S, items[i]? = items'[i]?) → ∀ i ∉ S, batch.outcome? i = batch'.outcome? i) ∧
    (∀ text : String, Batch.parse text = .error .noTimestamp ↔ ∃ p : Padded Phrase,
      text = String.ofList (p.write Phrase.write) ∧ Envelope.IsTimeless p.content) := by
  refine ⟨parse_eq_ok_iff, ?_, parse_eq_noTimestamp_iff⟩
  intro text text' batch batch' items items' S read read' sameTime outline outline' same i outside
  have judges := judges_of_outline read outline
  have judges' := judges_of_outline read' outline'
  calc batch.outcome? i
      _ = items[i]?.map Sighting.ofValue := judges.outcome i
      _ = items'[i]?.map Sighting.ofValue := by rw [same i outside]
      _ = batch'.outcome? i := (judges'.outcome i).symm

/-- A message with a bad item and a ship. -/
def mixedText : String :=
  "\x7b\"ts\":5,\"items\":[7,\x7b\"type\":\"ship\",\"id\":2,\"pos\":[0,7,0,0]\x7d]\x7d"

/-- The bad item is refused at its place, and the ship behind it is seen. -/
theorem mixed_message_is_judged :
    ∃ (batch : Batch Float) (items : List Value), Batch.parse mixedText = .ok batch ∧
      (Envelope.mk (some batch.serverTime) items).IsOutlineOf mixedText ∧ batch.Judges items ∧
      items.length = 2 ∧ batch.refusals.map (·.index) = [0] ∧ batch.sightings.map (·.id) = [2] := by
  have evaluates : (Batch.parse mixedText).toOption.map (fun batch =>
      (batch.refusals.map (·.index), batch.sightings.map (·.id))) = some ([0], [2]) := by
    decide +kernel
  obtain ⟨batch, read, lists⟩ := Option.map_eq_some_iff.mp evaluates
  obtain ⟨places, ids⟩ := Prod.mk.inj lists
  have read := toOption_eq_some_iff.mp read
  obtain ⟨items, outline, judges⟩ := (items_are_judged_alone.1 mixedText batch).mp read
  refine ⟨batch, items, read, outline, judges, ?_, places, ids⟩
  have refused := congrArg List.length places
  have seen := congrArg List.length ids
  rw [List.length_map] at refused seen
  rw [← judges.complete, refused, seen]
  rfl

end Batch

end DeadReckoning
