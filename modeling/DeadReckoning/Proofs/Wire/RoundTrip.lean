import DeadReckoning.Proofs.Json.Structure
import DeadReckoning.Wire.Printer

namespace DeadReckoning

open Json Binary64

/-!
# Messages — what is written is read

A message that was written is read without refusals: its time, and its sightings in their order with
their kinds and numbers. Coordinates and radii come back as far as the reader of numbers can give
them back.

* `Sighting.IsSound` — sightings that are accepted
* `Sighting.toValue` — the JSON value that a sighting is written as
* `Sighting.legible` — what can be read of it; `ofValue_of_isPlaced`: how it is judged
* `Sighting.ofValue_toValue` — if it is sound it is judged to be the sighting
* `Batch.parse_write` — a message that was written is read
-/

variable {s : Sighting Float} {budget : ℕ}

namespace Sighting

/-- A sighting that is accepted: its coordinates are finite, and its radius is absent, or finite and
above zero. -/
structure IsSound (s : Sighting Float) : Prop where
  position : s.position.x.isFinite ∧ s.position.y.isFinite
  velocity : s.velocity.x.isFinite ∧ s.velocity.y.isFinite
  radius : ∀ radius, s.radius = some radius → radius.isFinite ∧ (0.0 : Float) < radius

/-- All numbers of a sighting. -/
def numbers (s : Sighting Float) : List Float := s.components ++ s.radius.toList

/-- All numbers of a sound sighting are finite. -/
theorem IsSound.isFinite (h : s.IsSound) {x : Float} (mem : x ∈ s.numbers) : x.isFinite := by
  rcases List.mem_append.mp mem with component | radius
  · simp only [components, List.mem_cons, List.not_mem_nil, or_false] at component
    rcases component with rfl | rfl | rfl | rfl
    · exact h.position.1
    · exact h.position.2
    · exact h.velocity.1
    · exact h.velocity.2
  · exact (h.radius x (Option.mem_toList.mp radius)).1

/-- The coordinates of a sighting are finite. -/
def IsPlaced (s : Sighting Float) : Prop := ∀ x ∈ s.components, x.isFinite

instance : Decidable s.IsPlaced := List.decidableBAll _ _

theorem IsPlaced.position (h : s.IsPlaced) : s.position.x.isFinite ∧ s.position.y.isFinite :=
  ⟨h _ (by simp [components]), h _ (by simp [components])⟩

theorem IsPlaced.velocity (h : s.IsPlaced) : s.velocity.x.isFinite ∧ s.velocity.y.isFinite :=
  ⟨h _ (by simp [components]), h _ (by simp [components])⟩

/-- A sound sighting has a place. -/
theorem IsSound.isPlaced (h : s.IsSound) : s.IsPlaced :=
  fun _ component => h.isFinite (List.mem_append_left _ component)

/-- What can be read of a sighting: a radius that is not finite is written as if there was none. -/
def legible (s : Sighting Float) : Sighting Float :=
  { s with radius := s.radius.filter Float.isFinite }

/-- All that a sound sighting tells is legible. -/
theorem IsSound.legible_eq (h : s.IsSound) : s.legible = s := by
  have radius : s.radius.filter Float.isFinite = s.radius := by
    cases isRadius : s.radius with
    | none => rfl
    | some r => exact if_pos (h.radius r isRadius).1
  rw [legible, radius]

/-! ### Items -/

/-- The value of a number that was written and read; one that is not finite is written as `null`. -/
def numberValue (x : Float) : Value := if x.isFinite then .number (.real (reread x)) else .null

/-- The members of an item, as they are written and as they are read. -/
def members (s : Sighting Float) : List (Member Value) :=
  let radius := match s.radius with
    | some radius => [⟨"radius", writeFloat radius, numberValue radius⟩]
    | none => []
  [⟨"type", s.kind.write, .text s.kind.tag⟩,
    ⟨"id", writeNatural s.id, .number (.natural s.id)⟩,
    ⟨"pos", writeArray (s.components.map writeFloat), .array (s.components.map numberValue)⟩] ++
    radius

/-- The value that is read where a sighting was written. -/
def toValue (s : Sighting Float) : Value := .object (s.members.map fun m => (m.name, m.value))

/-- A sighting is written as an object of its members. -/
theorem write_eq (s : Sighting Float) : s.write = writeObject (s.members.map Member.write) := by
  unfold write members
  cases s.radius <;> rfl

/-- A sighting has four members at most. -/
theorem length_members_le (s : Sighting Float) : s.members.length ≤ 4 := by
  unfold members
  cases s.radius <;> simp

/-- A number that is not finite is written as `null`. -/
theorem writeFloat_of_not_isFinite {x : Float} (infinite : ¬x.isFinite) :
    writeFloat x = "null".toList := by
  have none : Dyadic.ofFloat? x = none := by
    rw [Option.eq_none_iff_forall_ne_some]
    exact fun d isDyadic => infinite (isFinite_iff.mpr ⟨d, unpacks_iff.mpr isDyadic⟩)
  rw [writeFloat, none]

/-- Every number is read as what was written for it, `null` included. -/
theorem reads_number (x : Float) (depth : ℕ) :
    Reads (readValue budget depth) (writeFloat x) (numberValue x) := by
  have reads (nested : Option (Reader Value)) :
      Reads (readValueWith budget nested) (writeFloat x) (numberValue x) := by
    unfold numberValue
    split
    · rename_i finite
      exact .number (start_real finite) fun _ stops => readNumber_real finite stops
    · rename_i infinite
      rw [writeFloat_of_not_isFinite infinite]
      exact .null
  cases depth with
  | zero => exact reads none
  | succ depth => exact reads (some (readValue budget depth))

/-- The members of a sighting are read. -/
theorem isRead_members (few : 4 < budget) (s : Sighting Float) (depth : ℕ) :
    ∀ m ∈ s.members, m.IsRead (readValue budget (depth + 1)) := by
  have plain : ∀ name ∈ ["type", "id", "pos", "radius"], isPlainName name := by decide +kernel
  intro m mem
  rcases List.mem_append.mp mem with always | radius
  · simp only [List.mem_cons, List.not_mem_nil, or_false] at always
    -- kind, number and coordinates are always there
    rcases always with rfl | rfl | rfl
    · refine ⟨plain _ (by simp), Reads.word ?_⟩
      cases s.kind <;> decide +kernel
    · exact ⟨plain _ (by simp),
        .number (start_natural s.id) fun _ stops => readNumber_natural s.id stops⟩
    · exact ⟨plain _ (by simp), Reads.array (fun x _ => reads_number x depth) few⟩
  · -- the radius only if there is one
    cases isRadius : s.radius with
    | none =>
      rw [isRadius] at radius
      cases radius
    | some r =>
      rw [isRadius] at radius
      obtain rfl := List.mem_singleton.mp radius
      exact ⟨plain _ (by simp), reads_number r (depth + 1)⟩

/-- A sighting is read as its value. -/
theorem reads_write (few : 4 < budget) (s : Sighting Float) (depth : ℕ) :
    Reads (readValue budget (depth + 2)) s.write s.toValue := by
  rw [write_eq]
  exact .object (isRead_members few s depth) (s.length_members_le.trans_lt few)

/-! ### Judging items -/

/-- A finite number is finite when it is read again. -/
theorem isFinite_reread {x : Float} (finite : x.isFinite) : (reread x).isFinite := by
  obtain ⟨d, hx⟩ := isFinite_iff.mp finite
  obtain ⟨_, d', unpacks, _⟩ := reread_spec hx
  exact isFinite_iff.mpr ⟨d', unpacks⟩

/-- A number stays on its side of zero. -/
theorem reread_le_zero_iff {x : Float} (finite : x.isFinite) :
    reread x ≤ (0.0 : Float) ↔ x ≤ (0.0 : Float) := by
  obtain ⟨d, hx⟩ := isFinite_iff.mp finite
  obtain ⟨_, d', unpacks, near⟩ := reread_spec hx
  rw [le_zero_iff unpacks, le_zero_iff hx, zero_lt_iff unpacks, zero_lt_iff hx, near.negative,
    ne_eq, near.null]

/-- Coordinates that are read as numbers. -/
theorem toReals_components (placed : s.IsPlaced) :
    Value.toReals (.array (s.components.map numberValue)) = .ok (s.components.map reread) := by
  have finite (x : Float) (component : x ∈ s.components) :
      numberValue x = .number (.real (reread x)) := if_pos (placed x component)
  rw [List.map_congr_left finite]
  rfl

/-- A radius that is not finite is read like one that is missing. -/
theorem toOptional_radius (radius : Float) :
    Value.toOptional Value.toReal (numberValue radius) =
      .ok (if radius.isFinite then some (reread radius) else none) := by
  unfold numberValue
  split <;> rfl

/-- The members that an item is made of. -/
theorem lastMember?_members (s : Sighting Float) :
    let members := s.members.map fun m => (m.name, m.value)
    lastMember? "id" members = some (.number (.natural s.id)) ∧
      lastMember? "pos" members = some (.array (s.components.map numberValue)) ∧
      lastMember? "radius" members = s.radius.map numberValue ∧
      lastMember? "ts" members = none ∧
      lastMember? "type" members = some (.text s.kind.tag) := by
  unfold members
  cases s.radius <;> simp [lastMember?]

/-- The value of a sighting that has a place has the form of an item. -/
theorem ofValue_item (placed : s.IsPlaced) : Item.ofValue s.toValue =
    .ok ⟨s.kind, s.id, s.components.map reread, s.legible.radius.map reread⟩ := by
  obtain ⟨id, pos, radius, time, kind⟩ := lastMember?_members s
  show Item.ofMembers (s.members.map fun m => (m.name, m.value)) = _
  unfold Item.ofMembers Item.memberAs
  rw [id, pos, radius, time, kind]
  have tag : Value.toKind (.text s.kind.tag) = .ok s.kind := by
    rw [Value.toKind, Kind.ofTag_tag]
  -- the members are all of the form that is asked for, and a radius may be missing or `null`
  cases isRadius : s.radius with
  | none =>
    simp only [Option.mapM_some, tag, toReals_components placed, legible, isRadius]
    rfl
  | some r =>
    simp only [Option.map_some, Option.mapM_some, tag, toReals_components placed,
      toOptional_radius, legible, isRadius, Option.filter]
    cases r.isFinite with
    | false => rfl
    | true => rfl

theorem isFinite_map_reread {v : Vec2 Float} (h : v.x.isFinite ∧ v.y.isFinite) :
    (v.map reread).isFinite = true := by
  show ((reread v.x).isFinite && (reread v.y).isFinite) = true
  rw [isFinite_reread h.1, isFinite_reread h.2, Bool.true_and]

/-- The judgement on a sighting that has a place depends on its radius. -/
theorem ofValue_of_isPlaced (placed : s.IsPlaced) : Sighting.ofValue s.toValue =
    match s.legible.radius with
    | some r => if r ≤ (0.0 : Float) then .error (.badRadius s.key (reread r))
      else .ok (s.legible.map reread)
    | none => .ok (s.legible.map reread) := by
  have position := isFinite_map_reread placed.position
  have velocity := isFinite_map_reread placed.velocity
  unfold Sighting.ofValue
  rw [ofValue_item placed]
  show Item.toSighting ⟨s.kind, s.id, s.components.map reread, s.legible.radius.map reread⟩ = _
  unfold Item.toSighting
  -- the coordinates come back finite, so that nothing but the radius is left to judge
  show (if !(s.position.map reread).isFinite || !(s.velocity.map reread).isFinite then _ else _) = _
  rw [position, velocity, Bool.not_true, Bool.or_self, if_neg Bool.false_ne_true]
  cases isRadius : s.legible.radius with
  | none =>
    show _ = Except.ok (Sighting.mk s.kind s.id _ _ (s.legible.radius.map reread))
    rw [isRadius]
    rfl
  | some r =>
    show _ = if r ≤ (0.0 : Float) then Except.error (ItemError.badRadius s.key (reread r))
      else .ok (Sighting.mk s.kind s.id _ _ (s.legible.radius.map reread))
    rw [isRadius]
    have finite : r.isFinite := (Option.filter_eq_some_iff.mp isRadius).2
    show (if !(reread r).isFinite || decide (reread r ≤ (0.0 : Float)) then _ else _) = _
    rw [isFinite_reread finite, Bool.not_true, Bool.false_or]
    simp only [reread_le_zero_iff finite, decide_eq_true_eq]
    rfl

/-- The value of a sighting is judged to be the sighting in the numbers that are read. -/
theorem ofValue_toValue (sound : s.IsSound) : Sighting.ofValue s.toValue = .ok (s.map reread) := by
  rw [ofValue_of_isPlaced sound.isPlaced, sound.legible_eq]
  cases isRadius : s.radius with
  | none => rfl
  | some r =>
    obtain ⟨finite, pos⟩ := sound.radius r isRadius
    exact if_neg ((not_le_zero_iff finite).mpr pos)

/-- A sighting comes back if all of its numbers do. -/
theorem map_eq_self_iff (f : Float → Float) (s : Sighting Float) :
    s.map f = s ↔ ∀ x ∈ s.numbers, f x = x := by
  obtain ⟨kind, id, ⟨x, y⟩, ⟨vx, vy⟩, radius⟩ := s
  cases radius <;> simp [Sighting.map, Vec2.map, numbers, components, and_assoc]

end Sighting

/-! ### Messages -/

namespace Batch

/-- Items that are all accepted. -/
theorem sort_ok (index : ℕ) (sightings : List (Sighting Float)) :
    sort index (sightings.map .ok) = (sightings, []) := by
  induction sightings generalizing index with
  | nil => rfl
  | cons s sightings ih => rw [List.map_cons, sort, ih]

variable (time : Micros) {sightings : List (Sighting Float)}

/-- The text of a message holds more characters than any part of it has items. -/
theorem length_write (sightings : List (Sighting Float)) :
    4 ≤ (Batch.write time sightings).toList.length ∧
      sightings.length ≤ (Batch.write time sightings).toList.length := by
  have items := length_texts_le (sightings.map Sighting.write)
  rw [List.length_map] at items
  have text : (Batch.write time sightings).toList =
      '\x7b' :: writeMember "ts" (writeNatural time) ++
      ',' :: '"' :: ("items".toList ++ ['"']) ++
        ':' :: '[' :: separate (sightings.map Sighting.write) ++ [']'] ++ ['\x7d'] := by
    simp [Batch.write, writeObject, writeArray, writeMember, writeWord, separate]
  rw [text]
  simp only [List.length_append, List.length_cons]
  omega

/-- The outline of a message that was written. -/
theorem parse_envelope (sightings : List (Sighting Float)) :
    Envelope.parse (Batch.write time sightings) =
      .ok ⟨some time, sightings.map Sighting.toValue⟩ := by
  obtain ⟨long, enough⟩ := length_write time sightings
  have text : (Batch.write time sightings).toList = writeObject
      [writeMember "ts" (writeNatural time),
        writeMember "items" (writeArray (sightings.map Sighting.write))] ++ [] := by
    rw [Batch.write, String.toList_ofList, List.append_nil]
  unfold Envelope.parse readDocument
  generalize (Batch.write time sightings).toList = cs at *
  -- time and items are read by their names, and each item is left as the value that it is
  have timestamp : Reads Envelope.timestampField.read (writeNatural time) (some time) :=
    (Reads.natural time).optional (start_natural time)
  have items : Reads (Envelope.itemsField (cs.length + 1)).read
      (writeArray (sightings.map Sighting.write)) (sightings.map Sighting.toValue) := by
    refine .sequence (fun s _ => ?_) (by omega)
    exact s.reads_write (by omega) 123
  have names : isPlainName "ts" ∧ isPlainName "items" := by decide +kernel
  have other : "items" ≠ "ts" := by decide
  have read := readPair_members (f := Envelope.timestampField)
    (g := Envelope.itemsField (cs.length + 1)) names other timestamp items
    (by omega : 2 < cs.length + 1) Envelope.recordName []
  have envelope : Envelope.read (cs.length + 1) cs =
      .ok (⟨some time, sightings.map Sighting.toValue⟩, []) := by
    have isText : readPair (cs.length + 1) Envelope.recordName Envelope.timestampField
        (Envelope.itemsField (cs.length + 1)) cs = _ := (congrArg _ text).trans read
    exact bind_of_ok isText
  exact bind_of_ok envelope

/-- A message that was written is read without refusals, in the numbers that are read. -/
theorem parse_write (sound : ∀ s ∈ sightings, s.IsSound) :
    Batch.parse (Batch.write time sightings) = .ok ⟨time, sightings.map (·.map reread), []⟩ := by
  -- every item is accepted, so that nothing is refused and the order is that of the message
  have judged : (sightings.map Sighting.toValue).map Sighting.ofValue =
      (sightings.map (·.map reread)).map .ok := by
    rw [List.map_map, List.map_map]
    exact List.map_congr_left fun s mem => Sighting.ofValue_toValue (sound s mem)
  unfold Batch.parse
  rw [parse_envelope time sightings]
  show Except.ok (ofItems time (sightings.map Sighting.toValue)) = _
  unfold ofItems
  rw [judged, sort_ok]

/-- What becomes of a message that is written and read: its time and its sightings come back in
their order, without refusals, kinds and numbers as they were. A coordinate or radius comes back
with its sign, null only if it was, and at most a `2 ^ 49`-th part and the least step away; it comes
back as it was if its decimal has few digits. -/
theorem written_batch_is_read (sound : ∀ s ∈ sightings, s.IsSound) :
    Batch.parse (Batch.write time sightings) = .ok ⟨time, sightings.map (·.map reread), []⟩ ∧
      (Batch.parse (Batch.write time sightings) = .ok ⟨time, sightings, []⟩ ↔
        ∀ s ∈ sightings, ∀ x ∈ s.numbers, reread x = x) ∧
      ∀ s ∈ sightings, ∀ x ∈ s.numbers, ∃ d d', Dyadic.ofFloat? x = some d ∧
        Dyadic.ofFloat? (reread x) = some d' ∧ d.Near d' ∧ (HasFewDigits d → reread x = x) := by
  have read := parse_write time sound
  refine ⟨read, ?_, ?_⟩
  · rw [read, Except.ok.injEq, Batch.mk.injEq]
    constructor
    · rintro ⟨_, same, _⟩ s mem
      rw [← Sighting.map_eq_self_iff]
      exact List.map_inj_left.mp (same.trans (List.map_id _).symm) s mem
    · intro fixed
      refine ⟨rfl, ?_, rfl⟩
      refine (List.map_congr_left fun s mem => ?_).trans (List.map_id _)
      exact (Sighting.map_eq_self_iff reread s).mpr (fixed s mem)
  · intro s mem x number
    obtain ⟨d, hx⟩ := isFinite_iff.mp ((sound s mem).isFinite number)
    obtain ⟨_, d', unpacks, near⟩ := reread_spec hx
    exact ⟨d, d', unpacks_iff.mp hx, unpacks_iff.mp unpacks, near, reread_eq_self hx⟩

/-- A sighting whose numbers have few digits. -/
def shortSighting : Sighting Float := ⟨.asteroid, 7, ⟨0.1, -2.5⟩, ⟨1e20, 0.0⟩, some 12.0⟩

/-- It comes back as it was, however often it is in the message. -/
theorem short_batch_is_read :
    (∀ s ∈ [shortSighting, shortSighting], s.IsSound) ∧
      Batch.parse (Batch.write 18446744073709551615 [shortSighting, shortSighting]) =
        .ok ⟨18446744073709551615, [shortSighting, shortSighting], []⟩ := by
  have sound : shortSighting.IsSound := by
    refine ⟨by decide +kernel, by decide +kernel, fun radius isRadius => ?_⟩
    obtain rfl := Option.some.inj isRadius
    decide +kernel
  have fixed : ∀ x ∈ shortSighting.numbers, reread x = x := by decide +kernel
  have all : ∀ s ∈ [shortSighting, shortSighting], s.IsSound := by simpa using sound
  refine ⟨all, (written_batch_is_read 18446744073709551615 all).2.1.mpr ?_⟩
  simpa using fixed

/-- A sighting whose first coordinate has seventeen digits. -/
def longSighting : Sighting Float := ⟨.ship, 1, ⟨31.245270191439438, 0.0⟩, ⟨0.0, 0.0⟩, none⟩

/-- It comes back one step away. -/
theorem long_batch_is_moved :
    longSighting.IsSound ∧
      Batch.parse (Batch.write 0 [longSighting]) =
        .ok ⟨0, [{ longSighting with position := ⟨31.245270191439441, 0.0⟩ }], []⟩ ∧
      ((31.245270191439441 : Float) == longSighting.position.x) = false := by
  have sound : longSighting.IsSound :=
    ⟨by decide +kernel, by decide +kernel, fun _ isRadius => by cases isRadius⟩
  have moved : reread 31.245270191439438 = 31.245270191439441 := by decide +kernel
  have zero : reread 0.0 = 0.0 := by decide +kernel
  refine ⟨sound, ?_, by decide +kernel⟩
  rw [parse_write 0 (by simpa using sound)]
  show Except.ok (Batch.mk 0 [Sighting.mk .ship 1 ⟨reread 31.245270191439438, reread 0.0⟩
    ⟨reread 0.0, reread 0.0⟩ none] []) = _
  rw [moved, zero]
  rfl

end Batch

end DeadReckoning
