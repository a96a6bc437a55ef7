import DeadReckoning.Proofs.Wire.Outcomes
import DeadReckoning.Proofs.Wire.RoundTrip

namespace DeadReckoning

open Json Binary64

/-!
# Verdicts — what becomes of sightings that are written, sound or not

A writer writes every sighting, also with numbers that are not finite or a radius below zero, and
leaves it to the reader to refuse it. A number that is not finite is written as `null`: in place of
a coordinate that is a fault, in place of a radius it means that there is none.

* `Sighting.IsAcceptable` — sightings that are accepted when they are read
* `Sighting.ofValue_of_isAcceptable`, `Sighting.ofValue_of_badRadius`,
  `Sighting.ofValue_of_not_isPlaced` — the three verdicts
* `Batch.Tells` — what a batch tells of the sighting that was written at a place
* `Batch.written_sightings_are_judged` — messages of any sightings
-/

namespace Sighting

variable {s : Sighting Float}

/-- A sighting that is accepted when it is read: its coordinates are finite, and its radius is
missing, not finite or above zero. -/
def IsAcceptable (s : Sighting Float) : Prop :=
  s.IsPlaced ∧ ∀ r ∈ s.radius, r.isFinite → (0.0 : Float) < r

instance : Decidable s.IsAcceptable := inferInstanceAs (Decidable (_ ∧ _))

/-- These are the sightings of which something sound can be read. -/
theorem isSound_legible_iff : s.legible.IsSound ↔ s.IsAcceptable := by
  constructor
  · intro sound
    exact ⟨sound.isPlaced, fun r isRadius finite =>
      (sound.radius r (Option.filter_eq_some_iff.mpr ⟨isRadius, finite⟩)).2⟩
  · rintro ⟨placed, fair⟩
    refine ⟨placed.position, placed.velocity, fun r isRadius => ?_⟩
    obtain ⟨isRadius, finite⟩ := Option.filter_eq_some_iff.mp isRadius
    exact ⟨finite, fair r isRadius finite⟩

/-! ### The three verdicts -/

/-- An acceptable sighting is accepted, with its numbers read again. -/
theorem ofValue_of_isAcceptable (acceptable : s.IsAcceptable) :
    Sighting.ofValue s.toValue = .ok (s.legible.map reread) := by
  rw [ofValue_of_isPlaced acceptable.1]
  cases isRadius : s.legible.radius with
  | none => rfl
  | some r =>
    obtain ⟨finite, pos⟩ := (isSound_legible_iff.mpr acceptable).radius r isRadius
    exact if_neg ((not_le_zero_iff finite).mpr pos)

/-- A radius that is not positive is refused, and the refusal names the key. -/
theorem ofValue_of_badRadius {r : Float} (placed : s.IsPlaced) (isRadius : s.radius = some r)
    (finite : r.isFinite) (bad : r ≤ (0.0 : Float)) :
    Sighting.ofValue s.toValue = .error (.badRadius s.key (reread r)) := by
  have legible : s.legible.radius = some r := Option.filter_eq_some_iff.mpr ⟨isRadius, finite⟩
  rw [ofValue_of_isPlaced placed, legible]
  exact if_pos bad

/-- A coordinate that is not finite is read as `null`, which is no number. -/
theorem toReals_of_not_isPlaced (unplaced : ¬s.IsPlaced) :
    Value.toReals (.array (s.components.map numberValue)) = .error (.wrongType .null .real) := by
  show (s.components.map numberValue).mapM Value.toReal = _
  unfold IsPlaced at unplaced
  generalize s.components = xs at unplaced
  induction xs with
  | nil => exact absurd (fun _ mem => absurd mem List.not_mem_nil) unplaced
  | cons x xs ih =>
    rw [List.map_cons, List.mapM_cons, numberValue]
    by_cases finite : x.isFinite
    · -- this one is read, so the one that is not stands further on
      rw [if_pos finite]
      have others := ih fun all => unplaced (List.forall_mem_cons.mpr ⟨finite, all⟩)
      rw [others]
      rfl
    · rw [if_neg finite]
      rfl

/-- Without a finite place a sighting is malformed, since `null` is no number. -/
theorem ofValue_of_not_isPlaced (unplaced : ¬s.IsPlaced) :
    Sighting.ofValue s.toValue = .error (.malformed (.wrongType .null .real)) := by
  obtain ⟨id, pos, -, -, -⟩ := lastMember?_members s
  have fault : Item.ofValue s.toValue = .error (.wrongType .null .real) := by
    show Item.ofMembers (s.members.map fun m => (m.name, m.value)) = _
    unfold Item.ofMembers Item.memberAs
    rw [id, pos]
    simp only [Option.mapM_some, toReals_of_not_isPlaced unplaced]
    rfl
  unfold Sighting.ofValue
  rw [fault]

/-- A sighting that is not accepted has its coordinates or its radius against it. -/
theorem not_isAcceptable_iff : ¬s.IsAcceptable ↔
    ¬s.IsPlaced ∨ s.IsPlaced ∧ ∃ r, s.radius = some r ∧ r.isFinite ∧ r ≤ (0.0 : Float) := by
  by_cases placed : s.IsPlaced
  · simp only [IsAcceptable, placed, true_and, not_true, false_or, not_forall, exists_prop]
    refine exists_congr fun r => and_congr_right fun _ => and_congr_right fun finite => ?_
    rw [← not_le_zero_iff finite, not_not]
  · simp [IsAcceptable, placed]

end Sighting

namespace Batch

/-! ### Messages -/

/-- What a batch tells of the sighting that was written at a place. -/
structure Tells (batch : Batch Float) (i : ℕ) (s : Sighting Float) : Prop where
  accepted : (∃ seen, batch.outcome? i = some (.ok seen)) ↔
    s.IsPlaced ∧ ∀ r ∈ s.radius, r.isFinite → (0.0 : Float) < r
  seen : ∀ seen, batch.outcome? i = some (.ok seen) →
    seen.key = s.key ∧ (seen.radius.isSome ↔ ∃ r, s.radius = some r ∧ r.isFinite)
  badRadius : (∃ radius, batch.outcome? i = some (.error (.badRadius s.key radius))) ↔
    s.IsPlaced ∧ ∃ r, s.radius = some r ∧ r.isFinite ∧ r ≤ (0.0 : Float)
  malformed : (∃ fault, batch.outcome? i = some (.error (.malformed fault))) ↔ ¬s.IsPlaced

variable {batch : Batch Float} {i : ℕ} {s : Sighting Float}

/-- No place has two outcomes. -/
theorem not_exists_outcome {β : Type} {f : β → Except ItemError (Sighting Float)}
    {v : Except ItemError (Sighting Float)} (outcome : batch.outcome? i = some v)
    (other : ∀ x, v ≠ f x) : ¬∃ x, batch.outcome? i = some (f x) := by
  rintro ⟨x, isOther⟩
  exact other x (Option.some.inj (outcome.symm.trans isOther))

/-- What came of the item is what the batch tells of it. -/
theorem tells_of_outcome (outcome : batch.outcome? i = some (Sighting.ofValue s.toValue)) :
    batch.Tells i s := by
  by_cases acceptable : s.IsAcceptable
  · rw [Sighting.ofValue_of_isAcceptable acceptable] at outcome
    -- all that is told follows from its outcome, which is one of three
    constructor
    · exact iff_of_true ⟨_, outcome⟩ acceptable
    · intro seen isSeen
      obtain rfl := Except.ok.inj (Option.some.inj (outcome.symm.trans isSeen))
      refine ⟨rfl, ?_⟩
      show ((s.radius.filter Float.isFinite).map reread).isSome ↔ _
      rw [Option.isSome_map, Option.isSome_iff_exists]
      exact exists_congr fun r => Option.filter_eq_some_iff
    · refine iff_of_false (not_exists_outcome outcome nofun) fun bad => ?_
      exact Sighting.not_isAcceptable_iff.mpr (.inr bad) acceptable
    · exact iff_of_false (not_exists_outcome outcome nofun) (not_not.mpr acceptable.1)
  · rcases Sighting.not_isAcceptable_iff.mp acceptable with unplaced | ⟨placed, r, isRadius, bad⟩
    · rw [Sighting.ofValue_of_not_isPlaced unplaced] at outcome
      constructor
      · exact iff_of_false (not_exists_outcome outcome nofun) acceptable
      · exact fun seen isSeen => absurd ⟨seen, isSeen⟩ (not_exists_outcome outcome nofun)
      · exact iff_of_false (not_exists_outcome outcome nofun) fun bad => unplaced bad.1
      · exact iff_of_true ⟨_, outcome⟩ unplaced
    · rw [Sighting.ofValue_of_badRadius placed isRadius bad.1 bad.2] at outcome
      constructor
      · exact iff_of_false (not_exists_outcome outcome nofun) acceptable
      · exact fun seen isSeen => absurd ⟨seen, isSeen⟩ (not_exists_outcome outcome nofun)
      · exact iff_of_true ⟨_, outcome⟩ ⟨placed, r, isRadius, bad⟩
      · exact iff_of_false (not_exists_outcome outcome nofun) (not_not.mpr placed)

/-- The sightings that are read are those that are accepted. -/
theorem filterMap_ofValue (sightings : List (Sighting Float)) :
    (sightings.map Sighting.toValue).filterMap (fun v => (Sighting.ofValue v).toOption) =
      (sightings.filter (·.IsAcceptable)).map (·.legible.map reread) := by
  induction sightings with
  | nil => rfl
  | cons s sightings ih =>
    rw [List.map_cons, List.filterMap_cons, ih]
    by_cases acceptable : s.IsAcceptable
    · rw [Sighting.ofValue_of_isAcceptable acceptable, List.filter_cons,
        if_pos (decide_eq_true acceptable)]
      rfl
    · rw [List.filter_cons, if_neg (by simpa using acceptable)]
      -- refused for a coordinate or for its radius, it is passed over
      rcases Sighting.not_isAcceptable_iff.mp acceptable with
        unplaced | ⟨placed, r, isRadius, finite, bad⟩
      · rw [Sighting.ofValue_of_not_isPlaced unplaced]
        rfl
      · rw [Sighting.ofValue_of_badRadius placed isRadius finite bad]
        rfl

/-- What becomes of a message of any sightings, sound or not: it is read with its time. The
sightings that are accepted come back in their order, the others are refused, each at its place and
once, and what is told of each depends on it alone: of one whose coordinates are finite, on its
radius, and of another one, that it is malformed. -/
theorem written_sightings_are_judged (time : Micros) (sightings : List (Sighting Float)) :
    ∃ batch, Batch.parse (Batch.write time sightings) = .ok batch ∧ batch.serverTime = time ∧
      batch.sightings = (sightings.filter (·.IsAcceptable)).map (·.legible.map reread) ∧
      batch.sightings.length + batch.refusals.length = sightings.length ∧
      batch.refusals.Pairwise (·.index < ·.index) ∧
      ∀ i s, sightings[i]? = some s → batch.Tells i s := by
  have judges := judges_ofItems time (sightings.map Sighting.toValue)
  have read : Batch.parse (Batch.write time sightings) =
      .ok (ofItems time (sightings.map Sighting.toValue)) := by
    unfold Batch.parse
    rw [parse_envelope time sightings]
  refine ⟨_, read, rfl, judges.sightings.trans (filterMap_ofValue sightings), ?_,
    judges.increasing, fun i s place => tells_of_outcome ?_⟩
  · rw [judges.complete, List.length_map]
  · -- the item at this place is the sighting as it was written
    rw [judges.outcome, List.getElem?_map, place]
    rfl

/-- A message of a ship whose place is not a number, and one whose radius is a zero with a minus. -/
theorem bad_sightings_are_told :
    let lost : Sighting Float := ⟨.ship, 1, ⟨0.0 / 0.0, 0.0⟩, ⟨0.0, 0.0⟩, none⟩
    let flat : Sighting Float := ⟨.ship, 2, ⟨0.0, 0.0⟩, ⟨0.0, 0.0⟩, some (-0.0)⟩
    ∃ batch, Batch.parse (Batch.write 7 [lost, flat]) = .ok batch ∧
      (∃ fault, batch.outcome? 0 = some (.error (.malformed fault))) ∧
      ∃ radius, batch.outcome? 1 = some (.error (.badRadius ⟨.ship, 2⟩ radius)) := by
  intro lost flat
  obtain ⟨batch, read, -, -, -, -, tells⟩ := written_sightings_are_judged 7 [lost, flat]
  refine ⟨batch, read, (tells 0 lost rfl).malformed.mpr ?_, (tells 1 flat rfl).badRadius.mpr ?_⟩
  · decide +kernel
  · exact ⟨by decide +kernel, -0.0, rfl, by decide +kernel, by decide +kernel⟩

end Batch

end DeadReckoning
