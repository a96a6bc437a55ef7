import DeadReckoning.Track.Basic

namespace DeadReckoning

/-!
# The catalog — all objects that are tracked

One track for each key. Two catalogs with the same tracks are equal; the order in which they are
listed is that of the keys.

* `Catalog.get?` — the track of a key; `Catalog.ext`: nothing else tells two catalogs apart
* `Catalog.observe` — a sighting creates or updates a track
* `Catalog.observeAll` — many sightings of one time, with counts of what became of them
* `Catalog.expire` — tracks without news since a given time are dropped
-/

/-- What became of a sighting. -/
inductive Intake where
  | created
  | updated
  | stale
  deriving DecidableEq, Repr

/-- All tracks, by key. -/
structure Catalog (α : Type) where
  byKey : Std.ExtTreeMap TrackKey (Track α)

namespace Catalog

variable {α : Type}

/-- No tracks. -/
def empty : Catalog α := ⟨∅⟩

/-- The track of a key. -/
def get? (catalog : Catalog α) (key : TrackKey) : Option (Track α) := catalog.byKey[key]?

/-- How many objects are tracked. -/
def size (catalog : Catalog α) : Nat := catalog.byKey.size

/-- Nothing is tracked. -/
def isEmpty (catalog : Catalog α) : Bool := catalog.byKey.isEmpty

/-- All tracks. -/
def tracks (catalog : Catalog α) : List (Track α) := catalog.byKey.values

/-- The catalog with a track in place of the one under its key. -/
def insert (catalog : Catalog α) (track : Track α) : Catalog α :=
  ⟨catalog.byKey.insert track.key track⟩

/-- The catalog without a track. -/
def erase (catalog : Catalog α) (key : TrackKey) : Catalog α := ⟨catalog.byKey.erase key⟩

/-! ### What is found under a key -/

/-- A catalog is what is found in it. -/
@[ext] theorem ext {c d : Catalog α} (h : ∀ key, c.get? key = d.get? key) : c = d := by
  cases c
  cases d
  exact congrArg mk (Std.ExtTreeMap.ext_getElem? h)

@[simp] theorem get?_empty (key : TrackKey) : (empty : Catalog α).get? key = none := by
  simp [empty, get?]

/-- A track is found by its key, in place of the one before. -/
theorem get?_insert (catalog : Catalog α) (track : Track α) (key : TrackKey) :
    (catalog.insert track).get? key = if track.key = key then some track else catalog.get? key := by
  simp [insert, get?, Std.ExtTreeMap.getElem?_insert, Std.LawfulEqCmp.compare_eq_iff_eq]

/-- The track of one key is gone, and the others stay. -/
theorem get?_erase (catalog : Catalog α) (erased key : TrackKey) :
    (catalog.erase erased).get? key = if erased = key then none else catalog.get? key := by
  simp [erase, get?, Std.ExtTreeMap.getElem?_erase, Std.LawfulEqCmp.compare_eq_iff_eq]

/-! ### Tracks that fall silent -/

/-- The tracks among those visited that have no news since before `cutoff`, by key. -/
def silentAmong (visited : List (Track α)) (cutoff : Micros) : List TrackKey :=
  (visited.filter (·.lastUpdate < cutoff)).map (·.key)

/-- The catalog without some keys. -/
def eraseAll (catalog : Catalog α) (keys : List TrackKey) : Catalog α := keys.foldl erase catalog

/-- The tracks of some keys are gone, and the others stay. -/
theorem get?_eraseAll (catalog : Catalog α) (keys : List TrackKey) (key : TrackKey) :
    (catalog.eraseAll keys).get? key = if key ∈ keys then none else catalog.get? key := by
  induction keys generalizing catalog with
  | nil => rfl
  | cons erased rest ih =>
    rw [eraseAll, List.foldl_cons, ← eraseAll, ih, get?_erase]
    by_cases h : key = erased
    · simp [h]
    · simp [h, Ne.symm h]

/-- Drops the tracks last updated before `cutoff`, and tells their keys. -/
def expire (catalog : Catalog α) (cutoff : Micros) : Catalog α × List TrackKey :=
  let expired := silentAmong catalog.tracks cutoff
  (catalog.eraseAll expired, expired)

/-! ### Sightings -/

variable [Scalar α]

/-- The catalog after a sighting, and what became of it. -/
def observe (catalog : Catalog α) (s : Sighting α) (time : Micros) : Catalog α × Intake :=
  match catalog.get? s.key with
  | none => (catalog.insert (.ofSighting s time), .created)
  | some track =>
    match track.advance? s time with
    | some track => (catalog.insert track, .updated)
    | none => (catalog, .stale)

/-- The catalog after sightings of one time, and what became of each. -/
def observeAll (catalog : Catalog α) (time : Micros) : List (Sighting α) → Catalog α × List Intake
  | [] => (catalog, [])
  | s :: rest =>
    let (catalog, intake) := catalog.observe s time
    let (catalog, intakes) := observeAll catalog time rest
    (catalog, intake :: intakes)

/-- Sightings may be taken in two parts, one after the other. -/
theorem observeAll_append (catalog : Catalog α) (time : Micros) (xs ys : List (Sighting α)) :
    catalog.observeAll time (xs ++ ys) =
      let (middle, before) := catalog.observeAll time xs
      let (last, after) := middle.observeAll time ys
      (last, before ++ after) := by
  induction xs generalizing catalog with
  | nil => rfl
  | cons s rest ih => simp [observeAll, ih]

end Catalog

end DeadReckoning
