import DeadReckoning.Catalog

namespace DeadReckoning

/-!
# Catalog — each track stands under its own key

* `Catalog.mem_tracks` — the tracks that are listed are those found under some key
* `Catalog.Keyed` — what is found under a key has that key
* `Keyed.get?_observe`, `Keyed.observe_snd` — a sighting, in terms of what is found under keys
* `Keyed.observe`, `Keyed.observeAll`, `Keyed.expire` — no operation moves a track to another key
* `Catalog.Change`, `keyed_changeAll` — so it is in every catalog that there can be
-/

variable {α : Type}

namespace Catalog

/-! ### Listed tracks -/

/-- The values of a map are those of its entries, in their order. -/
theorem values_eq {κ V : Type} {cmp : κ → κ → Ordering} [Std.TransCmp cmp]
    (map : Std.ExtTreeMap κ V cmp) : map.values = map.toList.map Prod.snd := by
  -- the library has this for trees only, and a map is a class of them
  obtain ⟨⟨trees⟩⟩ := map
  induction trees using Quotient.ind with
  | _ tree =>
    show tree.inner.values = (Std.DTreeMap.Internal.Impl.Const.toList tree.inner).map Prod.snd
    rw [Std.DTreeMap.Internal.Impl.values_eq_map_snd,
      Std.DTreeMap.Internal.Impl.Const.toList_eq_toListModel_map]
    simp

/-- The tracks that are listed are those found under some key. -/
theorem mem_tracks (catalog : Catalog α) (track : Track α) :
    track ∈ catalog.tracks ↔ ∃ key, catalog.get? key = some track := by
  rw [tracks, values_eq, List.mem_map]
  constructor
  · rintro ⟨⟨key, _⟩, listed, rfl⟩
    exact ⟨key, Std.ExtTreeMap.mem_toList_iff_getElem?_eq_some.mp listed⟩
  · rintro ⟨key, found⟩
    exact ⟨(key, track), Std.ExtTreeMap.mem_toList_iff_getElem?_eq_some.mpr found, rfl⟩

/-! ### Keys of tracks -/

/-- What is found under a key has that key. -/
def Keyed (catalog : Catalog α) : Prop :=
  ∀ key track, catalog.get? key = some track → track.key = key

theorem keyed_empty : (empty : Catalog α).Keyed := by
  intro key track found
  rw [get?_empty] at found
  cases found

namespace Keyed

variable {catalog : Catalog α}

/-- A key is tracked if a track with it is listed. -/
theorem isSome_get? (keyed : catalog.Keyed) (key : TrackKey) :
    (catalog.get? key).isSome ↔ ∃ track ∈ catalog.tracks, track.key = key := by
  rw [Option.isSome_iff_exists]
  constructor
  · rintro ⟨track, found⟩
    exact ⟨track, (catalog.mem_tracks track).mpr ⟨key, found⟩, keyed key track found⟩
  · rintro ⟨track, listed, rfl⟩
    obtain ⟨key, found⟩ := (catalog.mem_tracks track).mp listed
    rw [keyed key track found]
    exact ⟨track, found⟩

/-- A track that is put in stands under its own key. -/
protected theorem insert (keyed : catalog.Keyed) (track : Track α) :
    (catalog.insert track).Keyed := by
  intro key other found
  rw [get?_insert] at found
  by_cases same : track.key = key
  · rw [if_pos same, Option.some.injEq] at found
    rw [← found, same]
  · rw [if_neg same] at found
    exact keyed key other found

/-- Dropped tracks leave the others where they are. -/
protected theorem expire (keyed : catalog.Keyed) (cutoff : Micros) :
    (catalog.expire cutoff).1.Keyed := by
  intro key track found
  unfold expire at found
  rw [get?_eraseAll] at found
  split at found
  · cases found
  · exact keyed key track found

end Keyed

/-! ### Sightings -/

variable [Scalar α]

/-- What is known of an object after a sighting, from what was known before. -/
def entered (track? : Option (Track α)) (s : Sighting α) (time : Micros) : Track α :=
  match track? with
  | none => .ofSighting s time
  | some track => (track.advance? s time).getD track

/-- What becomes of a sighting of an object, from what was known before. -/
def intakeOf (track? : Option (Track α)) (time : Micros) : Intake :=
  match track? with
  | none => .created
  | some track => if time ≤ track.lastUpdate then .stale else .updated

/-- What becomes of a sighting is decided by the track of its object alone. -/
theorem observe_snd (catalog : Catalog α) (s : Sighting α) (time : Micros) :
    (catalog.observe s time).2 = intakeOf (catalog.get? s.key) time := by
  unfold observe intakeOf
  cases catalog.get? s.key with
  | none => rfl
  | some track =>
    unfold Track.advance?
    by_cases old : time ≤ track.lastUpdate
    · simp only [if_pos old]
    · simp only [if_neg old]

namespace Keyed

variable {catalog : Catalog α}

/-- A sighting leaves all tracks under their keys. -/
protected theorem observe (keyed : catalog.Keyed) (s : Sighting α) (time : Micros) :
    (catalog.observe s time).1.Keyed := by
  unfold observe
  cases catalog.get? s.key with
  | none => exact keyed.insert _
  | some track =>
    dsimp only
    cases track.advance? s time with
    | none => exact keyed
    | some newer => exact keyed.insert newer

/-- A sighting bears on the track of its own object only. -/
theorem get?_observe (keyed : catalog.Keyed) (s : Sighting α) (time : Micros) (key : TrackKey) :
    (catalog.observe s time).1.get? key =
      if s.key = key then some (entered (catalog.get? key) s time) else catalog.get? key := by
  unfold observe
  cases found : catalog.get? s.key with
  | none =>
    dsimp only
    rw [get?_insert, Track.key_ofSighting]
    by_cases same : s.key = key
    · rw [if_pos same, if_pos same, ← same, found]
      rfl
    · rw [if_neg same, if_neg same]
  | some track =>
    -- the newer track goes to the key of the older one, which is the key of the sighting
    have own := keyed s.key track found
    unfold Track.advance?
    by_cases old : time ≤ track.lastUpdate
    · by_cases same : s.key = key
      · rw [if_pos same, ← same, found]
        simp only [if_pos old, entered, Track.advance?, Option.getD_none, found]
      · rw [if_neg same]
        simp only [if_pos old]
    · simp only [if_neg old]
      rw [get?_insert, Track.key_advance, own]
      by_cases same : s.key = key
      · rw [if_pos same, if_pos same, ← same, found]
        simp only [if_neg old, entered, Track.advance?, Option.getD_some]
      · rw [if_neg same, if_neg same]

protected theorem observeAll (keyed : catalog.Keyed) (time : Micros)
    (sightings : List (Sighting α)) :
    (catalog.observeAll time sightings).1.Keyed := by
  induction sightings generalizing catalog with
  | nil => exact keyed
  | cons s rest ih => exact ih (keyed.observe s time)

/-- What is tracked stays tracked. -/
theorem isSome_observeAll (keyed : catalog.Keyed) (time : Micros) (sightings : List (Sighting α))
    {key : TrackKey} (tracked : (catalog.get? key).isSome) :
    ((catalog.observeAll time sightings).1.get? key).isSome := by
  induction sightings generalizing catalog with
  | nil => exact tracked
  | cons s rest ih =>
    have after : ((catalog.observe s time).1.get? key).isSome := by
      rw [keyed.get?_observe]
      split
      · rfl
      · exact tracked
    exact ih (keyed.observe s time) after

end Keyed

/-! ### Changes -/

/-- What can be done with a catalog. -/
inductive Change (α : Type) where
  | observe (s : Sighting α) (time : Micros)
  /-- Tracks without news since `cutoff` are dropped. -/
  | expire (cutoff : Micros)

/-- The catalog after a change. -/
def change (catalog : Catalog α) : Change α → Catalog α
  | .observe s time => (catalog.observe s time).1
  | .expire cutoff => (catalog.expire cutoff).1

/-- The catalog after several changes. -/
def changeAll (catalog : Catalog α) (changes : List (Change α)) : Catalog α :=
  changes.foldl change catalog

/-- Every change leaves all tracks under their keys. -/
protected theorem Keyed.change {catalog : Catalog α} (keyed : catalog.Keyed) (change : Change α) :
    (catalog.change change).Keyed := by
  cases change with
  | observe s time => exact keyed.observe s time
  | expire cutoff => exact keyed.expire cutoff

protected theorem Keyed.changeAll {catalog : Catalog α} (keyed : catalog.Keyed)
    (changes : List (Change α)) : (catalog.changeAll changes).Keyed := by
  induction changes generalizing catalog with
  | nil => exact keyed
  | cons change rest ih => exact ih (keyed.change change)

/-- In a catalog that was made from nothing, each track stands under its own key. -/
theorem keyed_changeAll (changes : List (Change α)) : (empty.changeAll changes).Keyed :=
  keyed_empty.changeAll changes

end Catalog

end DeadReckoning
