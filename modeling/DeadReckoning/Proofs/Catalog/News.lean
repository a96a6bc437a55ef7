import DeadReckoning.Proofs.Catalog.Silence
import DeadReckoning.Session

namespace DeadReckoning

/-!
# Catalog — batches that are all news

A batch that is later than all tracks, and tells of no object twice, has no stale sightings.

* `Catalog.UpTo` — no track is later than a time
* `Catalog.Keyed.ne_stale_of_news` — sightings that are later than the tracks of their objects
* `Session.receipt_ingest` — the receipt of a session, from what its catalog does
* `Session.ingest_of_news` — batches that are later than all tracks
-/

variable {α : Type}

namespace Catalog

variable {catalog : Catalog α} {time : Micros}

/-- No track is later than a time. -/
def UpTo (catalog : Catalog α) (time : Micros) : Prop :=
  ∀ key track, catalog.get? key = some track → track.lastUpdate ≤ time

/-- Dropping tracks makes none later. -/
theorem Keyed.upTo_expire (keyed : catalog.Keyed) (upTo : catalog.UpTo time) (cutoff : Micros) :
    (catalog.expire cutoff).1.UpTo time := by
  intro key track found
  rw [keyed.get?_expire] at found
  exact upTo key track (Option.filter_eq_some_iff.mp found).1

variable [Scalar α]

/-- A sighting brings its object to its own time at most. -/
theorem lastUpdate_entered_le {track? : Option (Track α)} (s : Sighting α)
    (upTo : ∀ track, track? = some track → track.lastUpdate ≤ time) :
    (entered track? s time).lastUpdate ≤ time := by
  cases track? with
  | none => exact UInt64.le_refl _
  | some track =>
    show ((track.advance? s time).getD track).lastUpdate ≤ time
    unfold Track.advance?
    split
    next => exact upTo track rfl
    next => exact UInt64.le_refl _

namespace Keyed

/-- After a sighting no track is later than it, if none was before. -/
theorem upTo_observe (keyed : catalog.Keyed) (upTo : catalog.UpTo time) (s : Sighting α) :
    (catalog.observe s time).1.UpTo time := by
  intro key track found
  rw [keyed.get?_observe] at found
  split at found
  next =>
    cases found
    exact lastUpdate_entered_le s (upTo key)
  next => exact upTo key track found

/-- The same for several sightings of one time. -/
theorem upTo_observeAll (keyed : catalog.Keyed) (upTo : catalog.UpTo time)
    (sightings : List (Sighting α)) : (catalog.observeAll time sightings).1.UpTo time := by
  induction sightings generalizing catalog with
  | nil => exact upTo
  | cons s rest ih => exact ih (keyed.observe s time) (keyed.upTo_observe upTo s)

/-- Sightings of different objects that are later than the tracks of these. -/
theorem ne_stale_of_news (keyed : catalog.Keyed) {sightings : List (Sighting α)}
    (distinct : (sightings.map Sighting.key).Nodup)
    (news : ∀ s ∈ sightings, ∀ track, catalog.get? s.key = some track → track.lastUpdate < time) :
    ∀ intake ∈ (catalog.observeAll time sightings).2, intake ≠ .stale := by
  -- a sighting leaves the tracks of the objects behind it as they are
  induction sightings generalizing catalog with
  | nil => exact fun intake mem => absurd mem List.not_mem_nil
  | cons s rest ih =>
    rw [List.map_cons, List.nodup_cons] at distinct
    have others : ∀ t ∈ rest, ∀ track, (catalog.observe s time).1.get? t.key = some track →
        track.lastUpdate < time := by
      intro t mem track found
      have other : s.key ≠ t.key := fun same =>
        distinct.1 (same ▸ List.mem_map_of_mem mem)
      rw [keyed.get?_observe, if_neg other] at found
      exact news t (List.mem_cons_of_mem s mem) track found
    show ∀ intake ∈ (catalog.observe s time).2 :: _, intake ≠ .stale
    refine List.forall_mem_cons.mpr ⟨?_, ih (keyed.observe s time) distinct.2 others⟩
    rw [observe_snd]
    unfold intakeOf
    split
    · exact fun none => by cases none
    · rename_i track found
      rw [if_neg (UInt64.not_le.mpr (news s List.mem_cons_self track found))]
      exact fun none => by cases none

end Keyed

/-- What is counted of sightings is all of them. -/
theorem count_add_count_add_count (intakes : List Intake) :
    intakes.count .created + intakes.count .updated + intakes.count .stale = intakes.length := by
  induction intakes with
  | nil => rfl
  | cons intake rest ih =>
    rw [List.length_cons, ← ih, List.count_cons, List.count_cons, List.count_cons]
    cases intake with
    | created => simp; omega
    | updated => simp; omega
    | stale => simp; omega

/-- Something becomes of every sighting. -/
theorem length_observeAll (catalog : Catalog α) (time : Micros) (sightings : List (Sighting α)) :
    (catalog.observeAll time sightings).2.length = sightings.length := by
  induction sightings generalizing catalog with
  | nil => rfl
  | cons s rest ih => exact congrArg (· + 1) (ih _)

/-- All sightings of a batch are counted. -/
theorem accepted_ingest (catalog : Catalog α) (batch : Batch α) :
    (catalog.ingest batch).2.accepted = batch.sightings.length :=
  (count_add_count_add_count _).trans (catalog.length_observeAll _ _)

end Catalog

namespace Session

variable [Scalar α]

/-- A receipt says what the catalog did with the batch, and what was dropped after it. -/
theorem receipt_ingest (session : Session α) (batch : Batch α) (receivedAt : Instant) :
    (session.ingest batch receivedAt).2 =
      { (session.catalog.ingest batch).2 with
        expired := (session.ingest batch receivedAt).2.expired } := by
  unfold ingest
  dsimp only
  split <;> rfl

/-- All sightings of a batch are accepted, stale ones too. -/
theorem accepted_ingest (session : Session α) (batch : Batch α) (receivedAt : Instant) :
    (session.ingest batch receivedAt).2.accepted = batch.sightings.length := by
  rw [receipt_ingest]
  exact session.catalog.accepted_ingest batch

/-- The refusals of a batch are passed on. -/
theorem refusals_ingest (session : Session α) (batch : Batch α) (receivedAt : Instant) :
    (session.ingest batch receivedAt).2.refusals = batch.refusals := by
  rw [receipt_ingest]
  rfl

/-- A batch leaves all tracks under their keys. -/
protected theorem keyed_ingest {session : Session α} (keyed : session.catalog.Keyed)
    (batch : Batch α) (receivedAt : Instant) :
    (session.ingest batch receivedAt).1.catalog.Keyed := by
  have entered := keyed.observeAll batch.serverTime batch.sightings
  unfold ingest
  dsimp only
  split
  · exact entered
  · exact entered.expire _

/-- A batch that is later than all tracks and tells of no object twice is news as a whole. -/
theorem ingest_of_news {session : Session α} (keyed : session.catalog.Keyed) {batch : Batch α}
    (distinct : (batch.sightings.map Sighting.key).Nodup)
    (news : ∀ key track, session.catalog.get? key = some track →
      track.lastUpdate < batch.serverTime) (receivedAt : Instant) :
    (session.ingest batch receivedAt).2.stale = 0 ∧
      (session.ingest batch receivedAt).1.catalog.Keyed ∧
      (session.ingest batch receivedAt).1.catalog.UpTo batch.serverTime := by
  have upTo : session.catalog.UpTo batch.serverTime := fun key track found =>
    UInt64.le_of_lt (news key track found)
  -- nothing is stale: each object is told of once, and its track is older
  have fresh : (session.catalog.observeAll batch.serverTime batch.sightings).2.count .stale = 0 :=
    List.count_eq_zero.mpr fun mem =>
      keyed.ne_stale_of_news distinct (fun s _ => news s.key) _ mem rfl
  refine ⟨?_, Session.keyed_ingest keyed batch receivedAt, ?_⟩
  · rw [receipt_ingest]
    exact fresh
  · have entered := keyed.upTo_observeAll upTo batch.sightings
    unfold ingest
    dsimp only
    split
    · exact entered
    · exact (keyed.observeAll batch.serverTime batch.sightings).upTo_expire entered _

end Session

end DeadReckoning
