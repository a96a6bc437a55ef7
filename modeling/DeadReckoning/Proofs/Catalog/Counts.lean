import DeadReckoning.Proofs.Catalog.Repetition
import Mathlib.Data.Finset.Card
import Mathlib.Data.List.Induction

namespace DeadReckoning

/-!
# Catalog — what becomes of a batch, counted by objects

All sightings of a batch are of one time. The first one of an object may count; it brings the track
to the time of the batch, so that all further ones of the object are stale. So it is the objects
that are counted as created and updated, not the sightings.

* `Sighting.objects` — the objects that sightings tell of
* `Keyed.get?_observeAll`, `Keyed.get?_observeAll_of_notMem` — the first sighting of an object
  decides
* `Keyed.intake_of_next` — what becomes of one more sighting of the time
* `Keyed.count_observeAll`, `Keyed.created_ingest`, `Keyed.updated_ingest` — what is counted, in
  terms of what was known before
* `Keyed.size_observeAll`, `Keyed.size_expire` — how many objects are tracked
-/

variable {α : Type}

/-- The objects that sightings tell of. -/
def Sighting.objects (sightings : List (Sighting α)) : Finset TrackKey :=
  (sightings.map Sighting.key).toFinset

/-- The objects are those that sightings are of. -/
theorem Sighting.mem_objects {sightings : List (Sighting α)} {key : TrackKey} :
    key ∈ Sighting.objects sightings ↔ ∃ s ∈ sightings, s.key = key := by
  rw [objects, List.mem_toFinset, List.mem_map]

/-- One more sighting adds its object, unless it is there already. -/
theorem Sighting.objects_append (earlier : List (Sighting α)) (s : Sighting α) :
    Sighting.objects (earlier ++ [s]) = insert s.key (Sighting.objects earlier) := by
  ext key
  simp [objects, eq_comm]

namespace Catalog

variable {catalog : Catalog α} {time : Micros}

/-! ### What becomes of a sighting -/

/-- A sighting creates a track if there is none. -/
theorem intakeOf_eq_created_iff {track? : Option (Track α)} :
    intakeOf track? time = .created ↔ track? = none := by
  cases track? with
  | none => exact ⟨fun _ => rfl, fun _ => rfl⟩
  | some track =>
    by_cases old : time ≤ track.lastUpdate
    · simp [intakeOf, old]
    · simp [intakeOf, old]

/-- A sighting updates a track if it is later. -/
theorem intakeOf_eq_updated_iff {track? : Option (Track α)} :
    intakeOf track? time = .updated ↔ ∃ track ∈ track?, track.lastUpdate < time := by
  cases track? with
  | none => simp [intakeOf]
  | some track =>
    by_cases old : time ≤ track.lastUpdate
    · simp [intakeOf, old]
    · simp [intakeOf, old, UInt64.not_le.mp old]

/-! ### How many objects are tracked -/

/-- A catalog grows by a track that it did not have. -/
theorem size_insert (catalog : Catalog α) (track : Track α) : (catalog.insert track).size =
    if (catalog.get? track.key).isSome then catalog.size else catalog.size + 1 := by
  rw [size, insert, Std.ExtTreeMap.size_insert, Std.ExtTreeMap.contains_eq_isSome_getElem?]
  rfl

/-- A catalog shrinks by a track that it had. -/
theorem size_erase {key : TrackKey} (tracked : (catalog.get? key).isSome) :
    (catalog.erase key).size + 1 = catalog.size := by
  have present : key ∈ catalog.byKey := Std.ExtTreeMap.mem_iff_isSome_getElem?.mpr tracked
  have pos : 0 < catalog.size := by
    rw [size, ← Std.ExtTreeMap.length_keys]
    exact List.length_pos_of_mem (Std.ExtTreeMap.mem_keys.mpr present)
  rw [size, erase, Std.ExtTreeMap.size_erase, if_pos (Std.ExtTreeMap.contains_iff_mem.mpr present)]
  exact Nat.sub_add_cancel pos

/-- Different tracks are taken away one by one. -/
theorem size_eraseAll {keys : List TrackKey} (different : keys.Nodup)
    (tracked : ∀ key ∈ keys, (catalog.get? key).isSome) :
    (catalog.eraseAll keys).size + keys.length = catalog.size := by
  induction keys generalizing catalog with
  | nil => rfl
  | cons key rest ih =>
    rw [List.nodup_cons] at different
    rw [List.forall_mem_cons] at tracked
    -- the keys that are left are still tracked, since they are others
    have others : ∀ other ∈ rest, ((catalog.erase key).get? other).isSome := by
      intro other mem
      have apart : key ≠ other := ne_of_mem_of_not_mem mem different.1 |>.symm
      rw [get?_erase, if_neg apart]
      exact tracked.2 other mem
    have rest_size := ih different.2 others
    have first_size := size_erase tracked.1
    show ((catalog.erase key).eraseAll rest).size + (rest.length + 1) = catalog.size
    omega

/-- What is dropped is what is told. -/
theorem Keyed.size_expire (keyed : catalog.Keyed) (cutoff : Micros) :
    (catalog.expire cutoff).1.size + (catalog.expire cutoff).2.length = catalog.size := by
  refine size_eraseAll (keyed.nodup_expire cutoff) fun key told => ?_
  obtain ⟨track, found, -⟩ := (keyed.mem_expire cutoff key).mp told
  exact Option.isSome_of_eq_some found

variable [Scalar α]

/-! ### The first sighting of an object -/

/-- A sighting that is not later than the track tells nothing. -/
theorem entered_of_le {track : Track α} (old : time ≤ track.lastUpdate) (s : Sighting α) :
    entered (some track) s time = track := by
  rw [entered, Track.advance?, if_pos old]
  rfl

/-- A later sighting advances the track. -/
theorem entered_of_lt {track : Track α} (later : track.lastUpdate < time) (s : Sighting α) :
    entered (some track) s time = track.advance s time := by
  rw [entered, Track.advance?, if_neg (UInt64.not_le.mpr later)]
  rfl

/-- A second sighting of one time tells nothing. -/
theorem entered_entered (track? : Option (Track α)) (s t : Sighting α) (time : Micros) :
    entered (some (entered track? s time)) t time = entered track? s time :=
  entered_of_le (Keyed.le_lastUpdate_entered track? s time) t

namespace Keyed

variable (keyed : catalog.Keyed)

include keyed

/-- Of the sightings of an object the first decides what is known of it. -/
theorem get?_observeAll (time : Micros) (sightings : List (Sighting α)) (key : TrackKey) :
    (catalog.observeAll time sightings).1.get? key =
      match sightings.find? (·.key = key) with
      | none => catalog.get? key
      | some s => some (entered (catalog.get? key) s time) := by
  induction sightings generalizing catalog with
  | nil => rfl
  | cons s rest ih =>
    show ((catalog.observe s time).1.observeAll time rest).1.get? key = _
    rw [ih (keyed.observe s time), keyed.get?_observe]
    by_cases own : s.key = key
    · rw [if_pos own, List.find?_cons_of_pos (by simpa using own)]
      split
      · rfl
      · -- a second sighting of the same time comes too late
        exact congrArg some (entered_entered _ s _ time)
    · rw [if_neg own, List.find?_cons_of_neg (by simpa using own)]

/-- Sightings of other objects leave a track alone. -/
theorem get?_observeAll_of_notMem (time : Micros) {sightings : List (Sighting α)} {key : TrackKey}
    (untold : key ∉ Sighting.objects sightings) :
    (catalog.observeAll time sightings).1.get? key = catalog.get? key := by
  have none : sightings.find? (·.key = key) = none := by
    rw [List.find?_eq_none]
    intro s mem own
    exact untold (Sighting.mem_objects.mpr ⟨s, mem, of_decide_eq_true own⟩)
  rw [keyed.get?_observeAll, none]

/-- A further sighting of an object is stale; the first one is taken in by what was known before. -/
theorem intake_of_next (time : Micros) (earlier : List (Sighting α)) (s : Sighting α) :
    ((catalog.observeAll time earlier).1.observe s time).2 =
      if s.key ∈ Sighting.objects earlier then .stale else intakeOf (catalog.get? s.key) time := by
  split
  next told =>
    obtain ⟨t, mem, same⟩ := Sighting.mem_objects.mp told
    have known := keyed.knows_observeAll earlier (.inl ⟨t, mem, same, UInt64.le_refl time⟩)
    rw [observe_of_knows known]
  next untold => rw [observe_snd, keyed.get?_observeAll_of_notMem time untold]

/-! ### Counts -/

/-- What is counted, sightings that are stale apart, are objects: each is counted for what its first
sighting is. -/
theorem count_observeAll (time : Micros) (sightings : List (Sighting α)) {intake : Intake}
    (counts : intake ≠ .stale) :
    (catalog.observeAll time sightings).2.count intake =
      {key ∈ Sighting.objects sightings | intakeOf (catalog.get? key) time = intake}.card := by
  -- the induction is from the end: whether a sighting is the first of its object is decided by
  -- those before it
  induction sightings using List.reverseRecOn with
  | nil => rfl
  | append_singleton earlier s ih =>
    have next : (catalog.observeAll time (earlier ++ [s])).2 =
        (catalog.observeAll time earlier).2 ++
          [((catalog.observeAll time earlier).1.observe s time).2] := by
      rw [observeAll_append]
      rfl
    rw [next, List.count_append, ih, List.count_singleton, keyed.intake_of_next,
      Sighting.objects_append]
    by_cases told : s.key ∈ Sighting.objects earlier
    · rw [if_pos told, Finset.insert_eq_of_mem told, if_neg (by simpa using counts.symm)]
      rfl
    · have apart : s.key ∉ {key ∈ Sighting.objects earlier |
          intakeOf (catalog.get? key) time = intake} := fun mem =>
        told (Finset.mem_of_mem_filter _ mem)
      rw [if_neg told, Finset.filter_insert]
      by_cases same : intakeOf (catalog.get? s.key) time = intake
      · rw [if_pos same, Finset.card_insert_of_notMem apart, if_pos (by simpa using same)]
      · rw [if_neg same, if_neg (by simpa using same)]
        rfl

/-- The objects that a batch creates are those that were not tracked. -/
theorem created_ingest (batch : Batch α) : (catalog.ingest batch).2.created =
    {key ∈ Sighting.objects batch.sightings | catalog.get? key = none}.card := by
  refine (keyed.count_observeAll _ _ (by decide)).trans (congrArg Finset.card ?_)
  exact Finset.filter_congr fun key _ => intakeOf_eq_created_iff

/-- The objects that a batch updates are those with older tracks. -/
theorem updated_ingest (batch : Batch α) : (catalog.ingest batch).2.updated =
    {key ∈ Sighting.objects batch.sightings |
      ∃ track ∈ catalog.get? key, track.lastUpdate < batch.serverTime}.card := by
  refine (keyed.count_observeAll _ _ (by decide)).trans (congrArg Finset.card ?_)
  exact Finset.filter_congr fun key _ => intakeOf_eq_updated_iff

/-- A sighting adds a track if it creates one. -/
theorem size_observe (s : Sighting α) (time : Micros) : (catalog.observe s time).1.size =
    catalog.size + [(catalog.observe s time).2].count .created := by
  unfold observe
  cases found : catalog.get? s.key with
  | none =>
    dsimp only
    rw [size_insert, Track.key_ofSighting, found]
    rfl
  | some track =>
    dsimp only
    unfold Track.advance?
    by_cases old : time ≤ track.lastUpdate
    · rw [if_pos old]
      rfl
    · -- the newer track takes the place of the older one
      rw [if_neg old]
      dsimp only
      rw [size_insert, Track.key_advance, keyed s.key track found, found]
      rfl

/-- Sightings add as many tracks as they create. -/
theorem size_observeAll (time : Micros) (sightings : List (Sighting α)) :
    (catalog.observeAll time sightings).1.size =
      catalog.size + (catalog.observeAll time sightings).2.count .created := by
  induction sightings generalizing catalog with
  | nil => rfl
  | cons s rest ih =>
    show ((catalog.observe s time).1.observeAll time rest).1.size = catalog.size +
      ([(catalog.observe s time).2] ++ ((catalog.observe s time).1.observeAll time rest).2).count _
    rw [ih (keyed.observe s time), keyed.size_observe, List.count_append, Nat.add_assoc]

end Keyed

end Catalog

end DeadReckoning
