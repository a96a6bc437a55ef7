import DeadReckoning.Proofs.Catalog.Keyed

namespace DeadReckoning.Catalog

/-!
# Catalog — the tracks that fall silent

Tracks last updated before a given time are dropped. A track that a sighting came for at some time
has not been silent since then, whether the sighting counted or was stale.

* `Keyed.nodup_tracks` — each object is listed once
* `Keyed.mem_expire`, `Keyed.nodup_expire` — the keys that are told, each once
* `Keyed.get?_expire` — what is left
* `heard?` — when an object was last heard of; `HeardSince` — it has not been silent since a time
* `Keyed.heardSince_observe`, `Keyed.heardSince_observeAll` — a sighting, and sightings of one time
-/

variable {α : Type} {catalog : Catalog α}

/-- When an object was last heard of, if it is tracked. -/
def heard? (catalog : Catalog α) (key : TrackKey) : Option Micros :=
  (catalog.get? key).map Track.lastUpdate

/-- An object was last heard of at the last update of its track. -/
theorem heard?_eq_some_iff {key : TrackKey} {time : Micros} : catalog.heard? key = some time ↔
    ∃ track, catalog.get? key = some track ∧ track.lastUpdate = time :=
  Option.map_eq_some_iff

/-- An object is not tracked, or there is news of it since a time. -/
def HeardSince (catalog : Catalog α) (time : Micros) (key : TrackKey) : Prop :=
  ∀ track, catalog.get? key = some track → time ≤ track.lastUpdate

namespace Keyed

/-! ### Dropped tracks -/

/-- The keys of the tracks in their listing are those of the catalog. -/
theorem keys_tracks (keyed : catalog.Keyed) :
    catalog.tracks.map (·.key) = catalog.byKey.keys := by
  rw [tracks, values_eq, List.map_map, ← Std.ExtTreeMap.map_fst_toList_eq_keys]
  refine List.map_congr_left fun entry listed => ?_
  exact keyed entry.1 entry.2 (Std.ExtTreeMap.mem_toList_iff_getElem?_eq_some.mp listed)

/-- The tracks that are dropped are those without news since the cutoff. -/
theorem mem_expire (keyed : catalog.Keyed) (cutoff : Micros) (key : TrackKey) :
    key ∈ (catalog.expire cutoff).2 ↔
      ∃ track, catalog.get? key = some track ∧ track.lastUpdate < cutoff := by
  show key ∈ ((catalog.tracks.filter _).map _) ↔ _
  simp only [List.mem_map, List.mem_filter, decide_eq_true_eq]
  constructor
  · rintro ⟨track, ⟨listed, silent⟩, rfl⟩
    obtain ⟨key, found⟩ := (catalog.mem_tracks track).mp listed
    rw [keyed key track found]
    exact ⟨track, found, silent⟩
  · rintro ⟨track, found, silent⟩
    exact ⟨track, ⟨(catalog.mem_tracks track).mpr ⟨key, found⟩, silent⟩, keyed key track found⟩

/-- Each object is listed once. -/
theorem nodup_tracks (keyed : catalog.Keyed) : (catalog.tracks.map (·.key)).Nodup := by
  rw [keyed.keys_tracks]
  exact Std.ExtTreeMap.nodup_keys

/-- Each key is told once. -/
theorem nodup_expire (keyed : catalog.Keyed) (cutoff : Micros) :
    (catalog.expire cutoff).2.Nodup :=
  keyed.nodup_tracks.sublist (List.filter_sublist.map _)

/-- What is left are the tracks with news since the cutoff. -/
theorem get?_expire (keyed : catalog.Keyed) (cutoff : Micros) (key : TrackKey) :
    (catalog.expire cutoff).1.get? key =
      (catalog.get? key).filter fun track => cutoff ≤ track.lastUpdate := by
  show (catalog.eraseAll (catalog.expire cutoff).2).get? key = _
  rw [get?_eraseAll]
  cases found : catalog.get? key with
  | none => rw [ite_self]; rfl
  | some track =>
    by_cases silent : track.lastUpdate < cutoff
    · rw [if_pos ((keyed.mem_expire cutoff key).mpr ⟨track, found, silent⟩), Option.filter_some,
        if_neg (by simpa using silent)]
    · -- the only track of the key is not silent, so that the key is not among those dropped
      have kept : key ∉ (catalog.expire cutoff).2 := by
        rw [keyed.mem_expire]
        rintro ⟨other, found_other, silent_other⟩
        rw [found] at found_other
        cases found_other
        exact silent silent_other
      rw [if_neg kept, Option.filter_some, if_pos (by simpa using silent)]

/-! ### News -/

variable [Scalar α]

/-- What is known after a sighting was heard at its time or later. -/
theorem le_lastUpdate_entered (track? : Option (Track α)) (s : Sighting α)
    (time : Micros) : time ≤ (entered track? s time).lastUpdate := by
  cases track? with
  | none => exact UInt64.le_refl _
  | some track =>
    show time ≤ ((track.advance? s time).getD track).lastUpdate
    unfold Track.advance?
    split
    next old => exact old
    next => exact UInt64.le_refl _

/-- A sighting is news of its own object, and takes no news of others away. -/
theorem heardSince_observe (keyed : catalog.Keyed) (s : Sighting α) {time : Micros} {key : TrackKey}
    (heard : s.key = key ∨ catalog.HeardSince time key) :
    (catalog.observe s time).1.HeardSince time key := by
  intro track found
  rw [keyed.get?_observe] at found
  split at found
  next =>
    cases found
    exact le_lastUpdate_entered _ s time
  next other => exact heard.resolve_left other track found

/-- After sightings of one time there is news since then of all the objects seen. -/
theorem heardSince_observeAll (keyed : catalog.Keyed) {time : Micros}
    (sightings : List (Sighting α)) {key : TrackKey}
    (heard : (∃ s ∈ sightings, s.key = key) ∨ catalog.HeardSince time key) :
    (catalog.observeAll time sightings).1.HeardSince time key := by
  induction sightings generalizing catalog with
  | nil => exact heard.resolve_left fun ⟨s, member, _⟩ => List.not_mem_nil member
  | cons s rest ih =>
    refine ih (keyed.observe s time) ?_
    rcases heard with ⟨seen, member, own⟩ | heard
    · rcases List.mem_cons.mp member with rfl | later
      · exact .inr (keyed.heardSince_observe _ (.inl own))
      · exact .inl ⟨seen, later, own⟩
    · exact .inr (keyed.heardSince_observe s (.inr heard))

end Keyed

end DeadReckoning.Catalog
