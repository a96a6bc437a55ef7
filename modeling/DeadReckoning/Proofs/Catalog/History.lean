import DeadReckoning.Proofs.Catalog.Keyed
import Mathlib.Data.List.Basic
import Mathlib.Data.List.Induction

namespace DeadReckoning

/-!
# Catalog — what is known of an object, from the whole history

Sightings come in any order, late, twice, and mixed with those of other objects. What counts of an
object are the sightings that are later than all that came before them.

* `Catalog.observeDated` — a history of sightings, each of a time of its own
* `Catalog.kept` — the sightings of an object that count
* `Catalog.intakesAfter` — what becomes of each sighting
* `Catalog.Summary` — what a track says of a history
* `history_determines_catalog` — a catalog says this of the history that it has seen
-/

variable {α : Type}

/-- A sighting and the time that it is of. -/
structure Dated (α : Type) where
  sighting : Sighting α
  time : Micros

namespace Catalog

/-! ### Sightings that count -/

/-- The sightings of one object. -/
def sightingsOf (key : TrackKey) (history : List (Dated α)) : List (Dated α) :=
  history.filter (·.sighting.key = key)

/-- A sighting is later than all those that came before. -/
def isNews (earlier : List (Dated α)) (s : Dated α) : Bool := earlier.all (·.time < s.time)

/-- Those of some sightings that are later than all that came before them. -/
def newsAfter (earlier : List (Dated α)) : List (Dated α) → List (Dated α)
  | [] => []
  | s :: rest =>
    if isNews earlier s then s :: newsAfter (earlier ++ [s]) rest
    else newsAfter (earlier ++ [s]) rest

/-- The sightings of an object that are later than all earlier ones of it. -/
def kept (key : TrackKey) (history : List (Dated α)) : List (Dated α) :=
  newsAfter [] (sightingsOf key history)

/-- What becomes of a sighting after a history. -/
def intakeAfter (earlier : List (Dated α)) (s : Dated α) : Intake :=
  let own := sightingsOf s.sighting.key earlier
  if own.isEmpty then .created else if isNews own s then .updated else .stale

/-- What becomes of several sightings after a history. -/
def intakesAfter (earlier : List (Dated α)) : List (Dated α) → List Intake
  | [] => []
  | s :: rest => intakeAfter earlier s :: intakesAfter (earlier ++ [s]) rest

/-- One more sighting counts if it is later than all before. -/
theorem newsAfter_append (earlier before : List (Dated α)) (s : Dated α) :
    newsAfter earlier (before ++ [s]) =
      newsAfter earlier before ++ if isNews (earlier ++ before) s then [s] else [] := by
  induction before generalizing earlier with
  | nil => simp [newsAfter]
  | cons first rest ih =>
    have shift : earlier ++ [first] ++ rest = earlier ++ first :: rest := by simp
    simp only [List.cons_append, newsAfter, ih, shift]
    split <;> rfl

/-- What counts is later than all that came before the history. -/
theorem time_lt_of_mem_newsAfter {earlier history : List (Dated α)} {s e : Dated α}
    (news : s ∈ newsAfter earlier history) (before : e ∈ earlier) : e.time < s.time := by
  induction history generalizing earlier with
  | nil => cases news
  | cons first rest ih =>
    have before' : e ∈ earlier ++ [first] := List.mem_append_left _ before
    unfold newsAfter at news
    split at news
    · rename_i later
      rcases List.mem_cons.mp news with rfl | news
      · exact of_decide_eq_true (List.all_eq_true.mp later e before)
      · exact ih news before'
    · exact ih news before'

/-- The sightings that count are in the order of their times. -/
theorem pairwise_newsAfter (earlier history : List (Dated α)) :
    (newsAfter earlier history).Pairwise (·.time < ·.time) := by
  induction history generalizing earlier with
  | nil => exact .nil
  | cons first rest ih =>
    unfold newsAfter
    split
    · refine .cons ?_ (ih _)
      intro s news
      exact time_lt_of_mem_newsAfter news (List.mem_append_right _ (List.mem_singleton_self first))
    · exact ih _

/-- What counts is part of the history. -/
theorem newsAfter_sublist (earlier history : List (Dated α)) :
    (newsAfter earlier history).Sublist history := by
  induction history generalizing earlier with
  | nil => exact .slnil
  | cons first rest ih =>
    unfold newsAfter
    split
    · exact (ih _).cons_cons first
    · exact (ih _).cons first

section Keys

variable (key : TrackKey) (history : List (Dated α)) (s : Dated α)

/-- One more sighting of an object is the last of its own. -/
theorem sightingsOf_append_own :
    sightingsOf s.sighting.key (history ++ [s]) = sightingsOf s.sighting.key history ++ [s] := by
  simp [sightingsOf]

/-- It is kept if it is later than all of its own before. -/
theorem kept_append_own : kept s.sighting.key (history ++ [s]) =
    kept s.sighting.key history ++
      if isNews (sightingsOf s.sighting.key history) s then [s] else [] := by
  rw [kept, sightingsOf_append_own, newsAfter_append, List.nil_append, kept]

variable {key s} in

/-- A sighting of another object is none of its own. -/
theorem sightingsOf_append_other (other : s.sighting.key ≠ key) :
    sightingsOf key (history ++ [s]) = sightingsOf key history := by
  simp [sightingsOf, other]

@[simp] theorem sightingsOf_sightingsOf :
    sightingsOf key (sightingsOf key history) = sightingsOf key history := by
  simp [sightingsOf]

/-- An object has no sightings if all are of others. -/
theorem sightingsOf_eq_nil :
    sightingsOf key history = [] ↔ ∀ s ∈ history, s.sighting.key ≠ key := by
  simp [sightingsOf]

end Keys

/-! ### Tracks of the sightings that count -/

variable [Scalar α]

/-- The track of an object from the sightings of it that count, in their order. -/
def reckon (sightings : List (Dated α)) : Option (Track α) :=
  sightings.foldl (fun track? s =>
    match track? with
    | none => some (.ofSighting s.sighting s.time)
    | some track => some (track.advance s.sighting s.time)) none

/-- One more sighting starts a track or advances it. -/
theorem reckon_append (before : List (Dated α)) (s : Dated α) :
    reckon (before ++ [s]) = some (match reckon before with
      | none => .ofSighting s.sighting s.time
      | some track => track.advance s.sighting s.time) := by
  rw [reckon, List.foldl_append, ← reckon]
  cases reckon before <;> rfl

/-- There is no track if and only if there was no sighting. -/
theorem reckon_eq_none {sightings : List (Dated α)} : reckon sightings = none ↔ sightings = [] := by
  rcases sightings.eq_nil_or_concat' with rfl | ⟨before, s, rfl⟩
  · exact ⟨fun _ => rfl, fun _ => rfl⟩
  · rw [reckon_append]
    simp

/-- Position, velocity and time are those of the last sighting. -/
theorem reckon_last (before : List (Dated α)) (s : Dated α) {track : Track α}
    (reckoned : reckon (before ++ [s]) = some track) :
    track.position = s.sighting.position ∧ track.velocity = s.sighting.velocity ∧
      track.lastUpdate = s.time := by
  rw [reckon_append, Option.some.injEq] at reckoned
  subst reckoned
  cases reckon before <;> exact ⟨rfl, rfl, rfl⟩

/-- The radius is the last that was given. -/
theorem reckon_radius (sightings : List (Dated α)) {track : Track α}
    (reckoned : reckon sightings = some track) :
    track.radius =
      (sightings.filterMap (·.sighting.radius)).getLast?.getD Track.defaultRadius := by
  -- the last sighting decides, and one without a radius leaves it to those before
  induction sightings using List.reverseRecOn generalizing track with
  | nil => cases reckoned
  | append_singleton before s ih =>
    rw [reckon_append, Option.some.injEq] at reckoned
    rw [List.filterMap_append]
    subst reckoned
    cases known : reckon before with
    | none =>
      rw [reckon_eq_none.mp known]
      cases given : s.sighting.radius <;> simp [Track.ofSighting, given]
    | some earlier =>
      have radius := ih known
      cases given : s.sighting.radius with
      | none => simp [Track.advance, given, radius]
      | some r => simp [Track.advance, given]

/-- A single sighting tells nothing of the acceleration. -/
theorem reckon_singleton_acceleration (s : Dated α) {track : Track α}
    (reckoned : reckon [s] = some track) : track.acceleration = .zero := by
  cases reckoned
  rfl

/-- The acceleration is that between the last two sightings. -/
theorem reckon_acceleration (before : List (Dated α)) (s t : Dated α) {track : Track α}
    (reckoned : reckon (before ++ [s, t]) = some track) :
    track.acceleration = (t.sighting.velocity - s.sighting.velocity).map
      (· / (Scalar.ofMicros (t.time - s.time) / microsPerSecond)) := by
  -- the track before the last sighting has time and velocity of the one before it
  have shape : before ++ [s, t] = before ++ [s] ++ [t] := by simp
  rw [shape, reckon_append, Option.some.injEq] at reckoned
  subst reckoned
  cases known : reckon (before ++ [s]) with
  | none =>
    rw [reckon_append] at known
    cases known
  | some earlier =>
    obtain ⟨_, velocity, lastUpdate⟩ := reckon_last before s known
    show (t.sighting.velocity - earlier.velocity).map
      (· / (Scalar.ofMicros (t.time - earlier.lastUpdate) / microsPerSecond)) = _
    rw [velocity, lastUpdate]

/-! ### Catalogs and what they have seen -/

/-- What a catalog holds under a key after a history. -/
structure Remembers (catalog : Catalog α) (history : List (Dated α)) (key : TrackKey) : Prop where
  get? : catalog.get? key = reckon (kept key history)
  get?_eq_none : catalog.get? key = none ↔ sightingsOf key history = []
  lastUpdate_mem {track : Track α} : catalog.get? key = some track →
    ∃ s ∈ sightingsOf key history, s.time = track.lastUpdate
  le_lastUpdate {track : Track α} : catalog.get? key = some track →
    ∀ s ∈ sightingsOf key history, s.time ≤ track.lastUpdate

namespace Remembers

variable {catalog : Catalog α} {history : List (Dated α)} {key : TrackKey}

theorem nothing (key : TrackKey) : (empty : Catalog α).Remembers [] key where
  get? := get?_empty key
  get?_eq_none := ⟨fun _ => rfl, fun _ => get?_empty key⟩
  lastUpdate_mem found := by
    rw [get?_empty] at found
    cases found
  le_lastUpdate found := by
    rw [get?_empty] at found
    cases found

/-- A sighting is news if it is later than the track. -/
theorem isNews_iff (known : catalog.Remembers history key) {track : Track α}
    (found : catalog.get? key = some track) (s : Dated α) :
    isNews (sightingsOf key history) s ↔ track.lastUpdate < s.time := by
  rw [isNews, List.all_eq_true]
  constructor
  · intro later
    obtain ⟨last, mem, time⟩ := known.lastUpdate_mem found
    rw [← time]
    exact of_decide_eq_true (later last mem)
  · intro later e mem
    exact decide_eq_true (UInt64.lt_of_le_of_lt (known.le_lastUpdate found e mem) later)

/-- What becomes of a sighting, told from the history. -/
theorem intake {s : Dated α} (known : catalog.Remembers history s.sighting.key) :
    (catalog.observe s.sighting s.time).2 = intakeAfter history s := by
  rw [observe_snd, intakeAfter]
  cases found : catalog.get? s.sighting.key with
  | none =>
    rw [known.get?_eq_none.mp found]
    rfl
  | some track =>
    have seen : sightingsOf s.sighting.key history ≠ [] := by
      intro unseen
      rw [known.get?_eq_none.mpr unseen] at found
      cases found
    have news := known.isNews_iff found s
    simp only [intakeOf, List.isEmpty_iff, if_neg seen]
    -- the program compares with the track, the history with all sightings before
    by_cases later : track.lastUpdate < s.time
    · rw [if_pos (news.mpr later), if_neg (UInt64.not_le.mpr later)]
    · rw [if_neg (mt news.mp later), if_pos (UInt64.not_lt.mp later)]

/-- A sighting of another object. -/
theorem observe_other (keyed : catalog.Keyed) (known : catalog.Remembers history key) {s : Dated α}
    (other : s.sighting.key ≠ key) :
    (catalog.observe s.sighting s.time).1.Remembers (history ++ [s]) key := by
  -- neither the track nor the sightings of the object change
  have get? : (catalog.observe s.sighting s.time).1.get? key = catalog.get? key := by
    rw [keyed.get?_observe, if_neg other]
  have same := sightingsOf_append_other history other
  constructor
  · rw [get?, kept, same]
    exact known.get?
  · rw [get?, same]
    exact known.get?_eq_none
  · rw [get?, same]
    exact known.lastUpdate_mem
  · rw [get?, same]
    exact known.le_lastUpdate

/-- A sighting of the object itself. -/
theorem observe_own (keyed : catalog.Keyed) {s : Dated α}
    (known : catalog.Remembers history s.sighting.key) :
    (catalog.observe s.sighting s.time).1.Remembers (history ++ [s]) s.sighting.key := by
  have get? := keyed.get?_observe s.sighting s.time s.sighting.key
  rw [if_pos rfl] at get?
  have own := sightingsOf_append_own history s
  cases found : catalog.get? s.sighting.key with
  | none =>
    -- the first sighting counts
    have unseen := known.get?_eq_none.mp found
    rw [found] at get?
    rw [unseen, List.nil_append] at own
    constructor
    · rw [get?, kept, own]
      rfl
    · simp [get?, own]
    · intro track isTrack
      rw [get?, Option.some.injEq] at isTrack
      subst isTrack
      exact ⟨s, by simp [own], rfl⟩
    · intro track isTrack e mem
      rw [get?, Option.some.injEq] at isTrack
      subst isTrack
      rw [own, List.mem_singleton] at mem
      rw [mem]
      exact UInt64.le_refl _
  | some track =>
    -- a later sighting advances the track, any other is in the history but does not count
    have news := known.isNews_iff found s
    have reckoned : reckon (kept s.sighting.key history) = some track := known.get?.symm.trans found
    rw [found] at get?
    by_cases later : track.lastUpdate < s.time
    · have entered : entered (some track) s.sighting s.time = track.advance s.sighting s.time := by
        simp [entered, Track.advance?, UInt64.not_le.mpr later]
      rw [entered] at get?
      constructor
      · rw [get?, kept_append_own, if_pos (news.mpr later), reckon_append, reckoned]
      · simp [get?, own]
      · intro newer isNewer
        rw [get?, Option.some.injEq] at isNewer
        subst isNewer
        exact ⟨s, by simp [own], rfl⟩
      · intro newer isNewer e mem
        rw [get?, Option.some.injEq] at isNewer
        subst isNewer
        show e.time ≤ s.time
        rw [own, List.mem_append, List.mem_singleton] at mem
        rcases mem with mem | rfl
        · exact UInt64.le_trans (known.le_lastUpdate found e mem) (UInt64.le_of_lt later)
        · exact UInt64.le_refl _
    · have old : s.time ≤ track.lastUpdate := UInt64.not_lt.mp later
      have entered : entered (some track) s.sighting s.time = track := by
        simp [entered, Track.advance?, old]
      rw [entered] at get?
      constructor
      · rw [get?, kept_append_own, if_neg (mt news.mp later), List.append_nil, reckoned]
      · simp [get?, own]
      · intro same isSame
        rw [get?, Option.some.injEq] at isSame
        subst isSame
        obtain ⟨last, mem, time⟩ := known.lastUpdate_mem found
        exact ⟨last, by rw [own]; exact List.mem_append_left _ mem, time⟩
      · intro same isSame e mem
        rw [get?, Option.some.injEq] at isSame
        subst isSame
        rw [own, List.mem_append, List.mem_singleton] at mem
        rcases mem with mem | rfl
        · exact known.le_lastUpdate found e mem
        · exact old

end Remembers

/-! ### Histories -/

/-- The catalog after sightings of times of their own, and what became of each. -/
def observeDated (catalog : Catalog α) : List (Dated α) → Catalog α × List Intake
  | [] => (catalog, [])
  | s :: rest =>
    let (catalog, intake) := catalog.observe s.sighting s.time
    let (catalog, intakes) := observeDated catalog rest
    (catalog, intake :: intakes)

/-- A catalog that remembers a history remembers it with what comes after it. -/
theorem remembers_observeDated {catalog : Catalog α} {history : List (Dated α)}
    (keyed : catalog.Keyed) (known : ∀ key, catalog.Remembers history key)
    (rest : List (Dated α)) :
    (catalog.observeDated rest).2 = intakesAfter history rest ∧
      (catalog.observeDated rest).1.Keyed ∧
      ∀ key, (catalog.observeDated rest).1.Remembers (history ++ rest) key := by
  -- a step moves one sighting from the rest to the history
  induction rest generalizing catalog history with
  | nil =>
    rw [List.append_nil]
    exact ⟨rfl, keyed, known⟩
  | cons s rest ih =>
    have step : ∀ key, (catalog.observe s.sighting s.time).1.Remembers (history ++ [s]) key := by
      intro key
      by_cases same : s.sighting.key = key
      · rw [← same]
        exact (known _).observe_own keyed
      · exact (known key).observe_other keyed same
    obtain ⟨intakes, keyed_rest, known_rest⟩ := ih (keyed.observe s.sighting s.time) step
    have shift : history ++ [s] ++ rest = history ++ s :: rest := by simp
    rw [shift] at known_rest
    refine ⟨?_, keyed_rest, known_rest⟩
    show (catalog.observe s.sighting s.time).2 ::
      ((catalog.observe s.sighting s.time).1.observeDated rest).2 = _
    rw [intakes, (known s.sighting.key).intake]
    rfl

/-- What a track says of a history. -/
structure Summary (key : TrackKey) (history : List (Dated α)) (track : Track α) : Prop where
  own : track.key = key
  position : (kept key history).getLast?.map (·.sighting.position) = some track.position
  velocity : (kept key history).getLast?.map (·.sighting.velocity) = some track.velocity
  /-- The time of the track is the greatest that its object was seen at, kept or not. -/
  lastUpdate_mem : ∃ s ∈ history, s.sighting.key = key ∧ s.time = track.lastUpdate
  le_lastUpdate : ∀ s ∈ history, s.sighting.key = key → s.time ≤ track.lastUpdate
  /-- The radius is the last that a kept sighting gave. -/
  radius : track.radius =
    ((kept key history).filterMap (·.sighting.radius)).getLast?.getD Track.defaultRadius
  acceleration_zero : ∀ s, kept key history = [s] → track.acceleration = .zero
  acceleration : ∀ before s t, kept key history = before ++ [s, t] → s.time < t.time ∧
    track.acceleration =
      ⟨(t.sighting.velocity.x - s.sighting.velocity.x) /
          (Scalar.ofMicros (t.time - s.time) / microsPerSecond),
        (t.sighting.velocity.y - s.sighting.velocity.y) /
          (Scalar.ofMicros (t.time - s.time) / microsPerSecond)⟩

/-- The track of an object says all of this of the history that the catalog remembers. -/
theorem Remembers.summary {catalog : Catalog α} {history : List (Dated α)} {key : TrackKey}
    (known : catalog.Remembers history key) (keyed : catalog.Keyed) {track : Track α}
    (found : catalog.get? key = some track) : Summary key history track := by
  have reckoned : reckon (kept key history) = some track := known.get?.symm.trans found
  -- an object that is tracked was seen, and the first sighting of it counts
  obtain ⟨before, last, shape⟩ : ∃ before last, kept key history = before ++ [last] := by
    rcases (kept key history).eq_nil_or_concat' with unkept | shape
    · rw [unkept] at reckoned
      cases reckoned
    · exact shape
  have ends := reckon_last before last (shape ▸ reckoned)
  obtain ⟨newest, seen, time⟩ := known.lastUpdate_mem found
  obtain ⟨listed, own⟩ := List.mem_filter.mp seen
  refine
    { own := keyed key track found
      position := by simp [shape, ends.1]
      velocity := by simp [shape, ends.2.1]
      lastUpdate_mem := ⟨newest, listed, of_decide_eq_true own, time⟩
      le_lastUpdate := fun s mem own => known.le_lastUpdate found s (List.mem_filter.mpr
        ⟨mem, decide_eq_true own⟩)
      radius := reckon_radius _ reckoned
      acceleration_zero := fun s only => reckon_singleton_acceleration s (only ▸ reckoned)
      acceleration := ?_ }
  intro before s t two
  -- the difference of the times does not wrap around: sightings that count are in order
  have ordered := pairwise_newsAfter [] (sightingsOf key history)
  rw [← kept, two, List.pairwise_append] at ordered
  have two_ordered := ordered.2.1
  simp only [List.pairwise_cons, List.mem_singleton, forall_eq] at two_ordered
  exact ⟨two_ordered.1, reckon_acceleration before s t (two ▸ reckoned)⟩

/-- What a catalog holds is told by the history of sightings. Each sighting is taken in by what came
before it of its own object; an object is tracked if it was seen; its track says of the history what
`Summary` lists; and the sightings of other objects have no influence on it. -/
theorem history_determines_catalog (history : List (Dated α)) :
    (empty.observeDated history).2 = intakesAfter [] history ∧
      ∀ key, ((empty.observeDated history).1.get? key = none ↔
          ∀ s ∈ history, s.sighting.key ≠ key) ∧
        (∀ track, (empty.observeDated history).1.get? key = some track →
          Summary key history track) ∧
        (empty.observeDated history).1.get? key =
          (empty.observeDated (sightingsOf key history)).1.get? key := by
  obtain ⟨intakes, keyed, known⟩ := remembers_observeDated keyed_empty Remembers.nothing history
  rw [List.nil_append] at known
  refine ⟨intakes, ?_⟩
  intro key
  -- without the other objects the same sightings count
  obtain ⟨_, _, known_own⟩ :=
    remembers_observeDated keyed_empty Remembers.nothing (sightingsOf key history)
  rw [List.nil_append] at known_own
  refine ⟨(known key).get?_eq_none.trans (sightingsOf_eq_nil key history),
    fun track found => (known key).summary keyed found, ?_⟩
  rw [(known key).get?, (known_own key).get?, kept, kept, sightingsOf_sightingsOf]

end Catalog

end DeadReckoning
