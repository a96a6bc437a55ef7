import DeadReckoning.Proofs.Catalog.Counts
import DeadReckoning.Proofs.Catalog.News
import DeadReckoning.Proofs.Session.Retention

namespace DeadReckoning.Session

/-!
# The session — batches are accounted for

A receipt counts the objects that a batch created and updated, and the rest of its sightings as
stale. What has been created and not been dropped again is what is tracked.

* `size_ingest`, `size_step`, `size_run` — the balance of what is tracked
* `batches_are_accounted_for` — the counts of a batch, its effect, and the balance of a run
-/

variable {α : Type} [Scalar α] {session : Session α}

/-! ### The balance -/

/-- A batch adds what it creates and takes away what it drops. -/
theorem size_ingest (keyed : session.catalog.Keyed) (batch : Batch α) (receivedAt : Instant) :
    (session.ingest batch receivedAt).1.catalog.size +
        (session.ingest batch receivedAt).2.expired.length =
      session.catalog.size + (session.ingest batch receivedAt).2.created := by
  have entered := keyed.size_observeAll batch.serverTime batch.sightings
  cases retention : session.settings.retentionMicros with
  | none =>
    obtain ⟨catalog, expired⟩ := ingest_of_forever retention batch receivedAt
    rw [catalog, expired, receipt_of_forever retention]
    exact entered
  | some span =>
    obtain ⟨catalog, receipt⟩ := ingest_of_retention retention batch receivedAt
    rw [catalog, receipt]
    have keyed' := keyed.observeAll batch.serverTime batch.sightings
    exact (keyed'.size_expire _).trans entered

/-- Only what gets a receipt adds or takes away. -/
theorem size_step (keyed : session.catalog.Keyed) (event : Event α) :
    (session.step event).1.catalog.size +
        ((session.step event).2.receipt?.toList.map (·.expired.length)).sum =
      session.catalog.size + ((session.step event).2.receipt?.toList.map (·.created)).sum := by
  have entered (batch : Batch α) (receivedAt : Instant) :
      (session.step (.batch batch receivedAt)).1.catalog.size +
          ((session.step (.batch batch receivedAt)).2.receipt?.toList.map (·.expired.length)).sum =
        session.catalog.size +
          ((session.step (.batch batch receivedAt)).2.receipt?.toList.map (·.created)).sum :=
    size_ingest keyed batch receivedAt
  cases event with
  | message text receivedAt =>
    cases parsed : Batch.parse text with
    | error e =>
      rw [session.step_message_error parsed]
      rfl
    | ok batch =>
      rw [session.step_message_ok parsed]
      exact entered _ receivedAt
  | batch batch receivedAt => exact entered batch receivedAt
  | tick instant => rfl
  | gesture g =>
    rw [show (session.step (.gesture g)).1.catalog = session.catalog from
      congrArg Tracking.catalog (session.gesture_frame g).1]
    rfl
  | link link => rfl

/-- What is tracked after a run is what was tracked before and what has been created since, less
what has been dropped. -/
theorem size_run {shapes : ShapeBook α} (consistent : session.Consistent shapes)
    (events : List (Event α)) :
    (session.run events).1.catalog.size +
        (((session.run events).2.filterMap Reply.receipt?).map (·.expired.length)).sum =
      session.catalog.size +
        (((session.run events).2.filterMap Reply.receipt?).map (·.created)).sum := by
  simp only [List.filterMap_eq_flatMap_toList]
  induction events generalizing session with
  | nil => rfl
  | cons event rest ih =>
    have first := size_step consistent.keyed event
    have others := ih (consistent.step event)
    have answers : (session.run (event :: rest)).2 =
        (session.step event).2 :: ((session.step event).1.run rest).2 := rfl
    show ((session.step event).1.run rest).1.catalog.size + _ = _
    rw [answers, List.flatMap_cons, List.map_append, List.map_append, List.sum_append,
      List.sum_append]
    omega

/-! ### Batches -/

/-- Batches are accounted for. Of the objects that a batch tells of, those count as created that
were not tracked before, and those as updated whose tracks were older than the batch; all other
sightings are stale. The first sighting of an object makes its track, or advances an older one;
tracks that are not older stay as they are, and so do those of objects that the batch does not tell
of. The catalog grows by what is created, so that after a run from the start there are as many
tracks as have been created and not dropped again. -/
theorem batches_are_accounted_for (catalog : Catalog α) (keyed : catalog.Keyed) (batch : Batch α) :
    let after := (catalog.ingest batch).1
    let receipt := (catalog.ingest batch).2
    let told := Sighting.objects batch.sightings
    receipt.created = {key ∈ told | catalog.get? key = none}.card ∧
      receipt.updated =
        {key ∈ told | ∃ track ∈ catalog.get? key, track.lastUpdate < batch.serverTime}.card ∧
      receipt.accepted = batch.sightings.length ∧
      (∀ key s, batch.sightings.find? (·.key = key) = some s →
        (catalog.get? key = none → after.get? key = some (.ofSighting s batch.serverTime)) ∧
        ∀ track, catalog.get? key = some track → after.get? key =
          some (if track.lastUpdate < batch.serverTime then track.advance s batch.serverTime
            else track)) ∧
      (∀ key ∉ told, after.get? key = catalog.get? key) ∧
      after.size = catalog.size + receipt.created ∧
      ∀ settings shapes (events : List (Event α)),
        let run := (start settings shapes).run events
        let receipts := run.2.filterMap Reply.receipt?
        run.1.catalog.size + (receipts.map (·.expired.length)).sum =
          (receipts.map (·.created)).sum := by
  intro after receipt told
  refine ⟨?_, ?_, ?_, ?_, ?_, ?_, ?_⟩
  · exact keyed.created_ingest batch
  · exact keyed.updated_ingest batch
  · exact catalog.accepted_ingest batch
  · intro key s first
    have known : after.get? key = some (Catalog.entered (catalog.get? key) s batch.serverTime) := by
      have known := keyed.get?_observeAll batch.serverTime batch.sightings key
      rwa [first] at known
    constructor
    · intro untracked
      rw [known, untracked]
      rfl
    · intro track found
      rw [known, found]
      by_cases later : track.lastUpdate < batch.serverTime
      · rw [if_pos later, Catalog.entered_of_lt later]
      · rw [if_neg later, Catalog.entered_of_le (UInt64.not_lt.mp later)]
  · intro key untold
    exact keyed.get?_observeAll_of_notMem batch.serverTime untold
  · exact keyed.size_observeAll batch.serverTime batch.sightings
  · intro settings shapes events
    have balance := size_run (Consistent.start settings shapes) events
    have nothing : (start settings shapes).catalog.size = 0 := rfl
    rwa [nothing, Nat.zero_add] at balance

/-- A batch at 7 tells twice each of a ship last seen at 5 and of a new asteroid, and once of a ship
seen at 9 already: one object is created, one updated, and three sightings are stale. The first ship
is where the first sighting of it says. -/
theorem repeated_ship_counts_once :
    let i : Irrational := ⟨fun x => x, fun y _ => y⟩
    let seen (kind : Kind) (id : UInt64) (x : ℚ) : Sighting (Exact i) :=
      ⟨kind, id, ⟨⟨x⟩, ⟨0⟩⟩, .zero, none⟩
    let catalog :=
      (((Catalog.empty.observeAll 5 [seen .ship 1 0]).1).observeAll 9 [seen .ship 2 0]).1
    let batch : Batch (Exact i) := ⟨7, [seen .ship 1 1, seen .asteroid 3 2, seen .ship 1 3,
      seen .ship 2 4, seen .asteroid 3 5], []⟩
    let receipt := (catalog.ingest batch).2
    catalog.Keyed ∧ receipt.created = 1 ∧ receipt.updated = 1 ∧ receipt.stale = 3 ∧
      ((catalog.ingest batch).1.get? ⟨.ship, 1⟩).map (·.position.x.value) = some 1 := by
  intro i seen catalog batch receipt
  have keyed : catalog.Keyed :=
    (Catalog.keyed_empty.observeAll 5 [seen .ship 1 0]).observeAll 9 [seen .ship 2 0]
  obtain ⟨created, updated, accepted, first, -⟩ := batches_are_accounted_for catalog keyed batch
  have created : receipt.created = 1 := created.trans (by decide +kernel)
  have updated : receipt.updated = 1 := updated.trans (by decide +kernel)
  have accepted : receipt.created + receipt.updated + receipt.stale = 5 := accepted
  have heard : catalog.heard? ⟨.ship, 1⟩ = some 5 := by decide +kernel
  obtain ⟨track, found, time⟩ := Catalog.heard?_eq_some_iff.mp heard
  have later : track.lastUpdate < batch.serverTime := by
    rw [time]
    decide
  have known := (first ⟨.ship, 1⟩ (seen .ship 1 1) rfl).2 track found
  rw [if_pos later] at known
  refine ⟨keyed, created, updated, by omega, ?_⟩
  rw [known]
  rfl

end DeadReckoning.Session
