import DeadReckoning.Proofs.Catalog.Silence
import DeadReckoning.Session

namespace DeadReckoning.Catalog

/-!
# Catalog — sightings that are told again

A sighting counts only if it is later than the track of its object, and no sighting sets a track
back. So what was told once changes nothing when it is told again, now or after others.

* `Knows` — there is a track of an object with news of a time or later
* `Keyed.knows_observe`, `Keyed.knows_observeAll` — sightings add to what is known and take nothing
  away
* `ingest_of_knows` — a batch of which all is known is stale as a whole
* `expire_of_heardSince` — nothing is dropped if there is news of all objects
-/

variable {α : Type} {catalog : Catalog α} {time since : Micros} {key : TrackKey}

/-- There is a track of an object, with news of a time or later. -/
def Knows (catalog : Catalog α) (time : Micros) (key : TrackKey) : Prop :=
  ∃ track, catalog.get? key = some track ∧ time ≤ track.lastUpdate

/-- If there is news of all objects since the cutoff, all tracks stay. -/
theorem expire_of_heardSince {cutoff : Micros} (heard : ∀ key, catalog.HeardSince cutoff key) :
    catalog.expire cutoff = (catalog, []) := by
  have none : silentAmong catalog.tracks cutoff = [] := by
    rw [silentAmong, List.map_eq_nil_iff, List.filter_eq_nil_iff]
    intro track listed
    obtain ⟨key, found⟩ := (catalog.mem_tracks track).mp listed
    simpa using heard key track found
  unfold expire
  rw [none]
  rfl

variable [Scalar α]

/-! ### What is known stays known -/

/-- No sighting sets a track back. -/
theorem lastUpdate_le_entered (track : Track α) (s : Sighting α) (time : Micros) :
    track.lastUpdate ≤ (entered (some track) s time).lastUpdate := by
  show track.lastUpdate ≤ ((track.advance? s time).getD track).lastUpdate
  unfold Track.advance?
  split
  next => exact UInt64.le_refl _
  next later => exact UInt64.le_of_lt (UInt64.not_le.mp later)

namespace Keyed

/-- After a sighting its object is known at its time, and others as before. -/
theorem knows_observe (keyed : catalog.Keyed) (s : Sighting α)
    (known : s.key = key ∧ since ≤ time ∨ catalog.Knows since key) :
    (catalog.observe s time).1.Knows since key := by
  rw [Knows, keyed.get?_observe]
  by_cases own : s.key = key
  · rw [if_pos own]
    refine ⟨_, rfl, ?_⟩
    rcases known with ⟨-, told⟩ | ⟨track, found, news⟩
    · exact UInt64.le_trans told (le_lastUpdate_entered _ s time)
    · rw [found]
      exact UInt64.le_trans news (lastUpdate_le_entered track s time)
  · rw [if_neg own]
    exact known.resolve_left fun told => own told.1

/-- After sightings of one time all objects seen are known at that time, and others as before. -/
theorem knows_observeAll (keyed : catalog.Keyed) (sightings : List (Sighting α))
    (known : (∃ s ∈ sightings, s.key = key ∧ since ≤ time) ∨ catalog.Knows since key) :
    (catalog.observeAll time sightings).1.Knows since key := by
  induction sightings generalizing catalog with
  | nil => exact known.resolve_left fun ⟨s, member, _⟩ => List.not_mem_nil member
  | cons s rest ih =>
    refine ih (keyed.observe s time) ?_
    rcases known with ⟨seen, member, told⟩ | known
    · rcases List.mem_cons.mp member with rfl | later
      · exact .inr (keyed.knows_observe _ (.inl told))
      · exact .inl ⟨seen, later, told⟩
    · exact .inr (keyed.knows_observe s (.inr known))

end Keyed

/-! ### What is known already is stale -/

/-- A sighting that tells nothing new is passed over. -/
theorem observe_of_knows {s : Sighting α} (known : catalog.Knows time s.key) :
    catalog.observe s time = (catalog, .stale) := by
  obtain ⟨track, found, news⟩ := known
  unfold observe
  rw [found]
  dsimp only
  rw [Track.advance?, if_pos news]

/-- Sightings of what is known already are all stale and change nothing. -/
theorem observeAll_of_knows {sightings : List (Sighting α)}
    (known : ∀ s ∈ sightings, catalog.Knows time s.key) :
    catalog.observeAll time sightings = (catalog, List.replicate sightings.length .stale) := by
  induction sightings with
  | nil => rfl
  | cons s rest ih =>
    have others := ih fun other member => known other (List.mem_cons_of_mem s member)
    rw [observeAll, observe_of_knows (known s List.mem_cons_self)]
    dsimp only
    rw [others]
    rfl

/-- A batch of which all is known leaves the tracks alone, and all its sightings are stale. -/
theorem ingest_of_knows {batch : Batch α}
    (known : ∀ s ∈ batch.sightings, catalog.Knows batch.serverTime s.key) :
    catalog.ingest batch = (catalog, {
      serverTime := batch.serverTime
      created := 0
      updated := 0
      stale := batch.sightings.length
      refusals := batch.refusals
      expired := [] }) := by
  unfold ingest
  rw [observeAll_of_knows known]
  dsimp only
  rw [List.count_replicate, List.count_replicate, List.count_replicate_self]
  rfl

end DeadReckoning.Catalog
