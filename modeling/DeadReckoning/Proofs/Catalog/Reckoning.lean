import DeadReckoning.Feed.Body
import DeadReckoning.Proofs.Catalog.History
import DeadReckoning.Proofs.Exact
import Mathlib.Tactic.FieldSimp
import Mathlib.Tactic.Ring

namespace DeadReckoning

/-!
# Catalog — reckoning with bodies of constant acceleration

A body that keeps its acceleration is seen at some times, late, twice, and mixed with other objects.
Without rounding, the track of the body moves as the body does as soon as two sightings counted.

* `Body.seenAt` — what is seen of a body at a server time
* `Body.positionAt_eq` — the motion of a body, told from any of its instants
* `Track.Follows` — the body was seen at the last update of a track; `Follows.miss`: how far off the
  track then reckons the body to be
* `Catalog.counted` — the sightings of an object that were not stale; `counted_eq_kept`
* `reckoning_is_exact` — the track of a body that was seen in a history
-/

/-- The seconds from the start to a server time. -/
def Micros.seconds {α : Type} [Scalar α] (time : Micros) : α :=
  Scalar.ofMicros time / microsPerSecond

/-- Exact seconds are a millionth of the microseconds. -/
@[simp] theorem Exact.value_seconds {i : Irrational} (time : Micros) :
    (time.seconds : Exact i).value = time.toNat / 10 ^ 6 := by
  rw [Micros.seconds, value_div, value_ofMicros, value_microsPerSecond]

/-! ### The motion of a body -/

namespace Body

section Sightings

variable {α : Type} (body : Body α)

/-- What is seen of a body at a server time. -/
def seenAt [Scalar α] (time : Micros) : Dated α := ⟨body.sightingAt time.seconds, time⟩

end Sightings

variable {i : Irrational} (body : Body (Exact i))

/-- The motion of a body, told from any of its instants. -/
theorem positionAt_eq (t u : Exact i) :
    body.positionAt u = body.positionAt t + (body.velocityAt t).scaleBy (u - t) +
      body.acceleration.scaleBy ((u - t) * (u - t) / 2.0) := by
  have axis (o v a t u : ℚ) : o + v * u + 1 / 2 * a * u * u =
      o + v * t + 1 / 2 * a * t * t + (v + a * t) * (u - t) + a * ((u - t) * (u - t) / 2) := by
    ring
  apply Vec2.ext_value
  · simpa [positionAt, velocityAt, Vec2.add_def, Vec2.scaleBy, Vec2.map] using axis _ _ _ _ _
  · simpa [positionAt, velocityAt, Vec2.add_def, Vec2.scaleBy, Vec2.map] using axis _ _ _ _ _

/-- The acceleration of a body is the change of its velocity in the time between two instants. -/
theorem acceleration_eq {s t : Micros} (later : s < t) :
    (body.velocityAt t.seconds - body.velocityAt s.seconds).map
      (· / (Scalar.ofMicros (t - s) / microsPerSecond)) = body.acceleration := by
  have ordered : s.toNat < t.toNat := UInt64.lt_iff_toNat_lt.mp later
  have span : ((t - s).toNat : ℚ) = t.toNat - s.toNat := by
    rw [UInt64.toNat_sub_of_le t s (UInt64.le_of_lt later), Nat.cast_sub ordered.le]
  have pos : (0 : ℚ) < t.toNat - s.toNat := by
    rw [sub_pos, Nat.cast_lt]
    exact ordered
  -- on each axis the velocity at zero cancels out
  have axis (v a : ℚ) : (v + a * (t.toNat / 10 ^ 6) - (v + a * (s.toNat / 10 ^ 6))) /
      ((t.toNat - s.toNat) / 10 ^ 6) = a := by
    have ne := pos.ne'
    field_simp
    ring
  apply Vec2.ext_value
  · simpa [velocityAt, Vec2.add_def, Vec2.sub_def, Vec2.scaleBy, Vec2.map, span] using
      axis body.velocity.x.value body.acceleration.x.value
  · simpa [velocityAt, Vec2.add_def, Vec2.sub_def, Vec2.scaleBy, Vec2.map, span] using
      axis body.velocity.y.value body.acceleration.y.value

end Body

/-! ### Tracks of a body -/

namespace Track

variable {i : Irrational} {track : Track (Exact i)} {body : Body (Exact i)}

/-- The body was seen at the last update of the track. -/
structure Follows (track : Track (Exact i)) (body : Body (Exact i)) : Prop where
  position : track.position = body.positionAt track.lastUpdate.seconds
  velocity : track.velocity = body.velocityAt track.lastUpdate.seconds

/-- A track looks ahead by the seconds from its last update. -/
theorem lookahead_eq (track : Track (Exact i)) (time : Micros) :
    track.lookahead time = time.seconds - track.lastUpdate.seconds := by
  apply Exact.ext
  simp [lookahead, sub_div]

/-- How far off the body is: what the track does not know of its acceleration, times half the square
of the seconds gone by. -/
theorem Follows.miss (follows : track.Follows body) (time : Micros) :
    body.positionAt time.seconds = track.positionAt time +
      (body.acceleration - track.acceleration).scaleBy
        (track.lookahead time * track.lookahead time / 2.0) := by
  have axis (p q a b h : ℚ) : p + q + a * h = p + q + b * h + (a - b) * h := by ring
  rw [body.positionAt_eq track.lastUpdate.seconds, ← follows.position, ← follows.velocity,
    ← lookahead_eq]
  apply Vec2.ext_value
  · exact axis _ _ _ _ _
  · exact axis _ _ _ _ _

/-- With the acceleration of the body the track is not off at all. -/
theorem Follows.positionAt_eq (follows : track.Follows body)
    (same : track.acceleration = body.acceleration) (time : Micros) :
    body.positionAt time.seconds = track.positionAt time := by
  rw [follows.miss, same]
  apply Vec2.ext_value
  · simp [Vec2.add_def, Vec2.sub_def, Vec2.scaleBy, Vec2.map]
  · simp [Vec2.add_def, Vec2.sub_def, Vec2.scaleBy, Vec2.map]

/-- Without any acceleration the track is off by what that of the body makes in the time. -/
theorem Follows.miss_of_zero (follows : track.Follows body) (zero : track.acceleration = .zero)
    (time : Micros) :
    let miss := body.positionAt time.seconds - track.positionAt time
    let seconds : ℚ := (time.toNat - track.lastUpdate.toNat) / 10 ^ 6
    miss.x.value = body.acceleration.x.value * seconds ^ 2 / 2 ∧
      miss.y.value = body.acceleration.y.value * seconds ^ 2 / 2 := by
  have axis (p a s t : ℚ) :
      p + (a - 0) * ((t / 10 ^ 6 - s / 10 ^ 6) * (t / 10 ^ 6 - s / 10 ^ 6) / 2) - p =
        a * ((t - s) / 10 ^ 6) ^ 2 / 2 := by ring
  dsimp only
  rw [follows.miss, zero, lookahead_eq]
  constructor
  · simpa [Vec2.add_def, Vec2.sub_def, Vec2.scaleBy, Vec2.map, Vec2.zero] using axis 0 _ _ _
  · simpa [Vec2.add_def, Vec2.sub_def, Vec2.scaleBy, Vec2.map, Vec2.zero] using axis 0 _ _ _

end Track

/-! ### Sightings that counted -/

namespace Catalog

variable {α : Type}

/-- The sightings of an object that were not stale when a catalog took a history in. -/
def counted (key : TrackKey) (history : List (Dated α)) (intakes : List Intake) : List (Dated α) :=
  ((history.zip intakes).filter fun (s, intake) => s.sighting.key = key ∧ intake ≠ .stale).map (·.1)

/-- A sighting is stale if there is one of its object that is not older. -/
theorem intakeAfter_ne_stale (earlier : List (Dated α)) (s : Dated α) :
    intakeAfter earlier s ≠ .stale ↔ isNews (sightingsOf s.sighting.key earlier) s := by
  unfold intakeAfter
  by_cases first : sightingsOf s.sighting.key earlier = []
  · simp [first, isNews]
  · by_cases news : isNews (sightingsOf s.sighting.key earlier) s
    · simp [first, news]
    · simp [first, news]

/-- A sighting counts if it is of the object and is not stale. -/
theorem counted_cons (key : TrackKey) (s : Dated α) (rest : List (Dated α)) (intake : Intake)
    (intakes : List Intake) :
    counted key (s :: rest) (intake :: intakes) =
      if s.sighting.key = key ∧ intake ≠ .stale then s :: counted key rest intakes
      else counted key rest intakes := by
  unfold counted
  rw [List.zip_cons_cons, List.filter_cons]
  simp only [decide_eq_true_eq]
  split <;> rfl

/-- The sightings that count are those which are later than all before. -/
theorem counted_intakesAfter (key : TrackKey) (earlier history : List (Dated α)) :
    counted key history (intakesAfter earlier history) =
      newsAfter (sightingsOf key earlier) (sightingsOf key history) := by
  induction history generalizing earlier with
  | nil => rfl
  | cons s rest ih =>
    -- the sightings before grow with the history, and those of other objects are passed over
    rw [intakesAfter, counted_cons, ih]
    by_cases own : s.sighting.key = key
    · subst own
      have listed : sightingsOf s.sighting.key (s :: rest) =
          s :: sightingsOf s.sighting.key rest := by simp [sightingsOf]
      rw [sightingsOf_append_own, listed, newsAfter]
      simp only [true_and, intakeAfter_ne_stale]
    · have passed : sightingsOf key (s :: rest) = sightingsOf key rest := by
        simp [sightingsOf, own]
      rw [sightingsOf_append_other _ own, passed, if_neg fun counts => own counts.1]

/-- Two sightings at least have a last one and one before it. -/
theorem exists_last_two {history : List (Dated α)} (two : 2 ≤ history.length) :
    ∃ before s t, history = before ++ [s, t] := by
  rcases history.eq_nil_or_concat' with rfl | ⟨others, t, rfl⟩
  · simp at two
  · rcases others.eq_nil_or_concat' with rfl | ⟨before, s, rfl⟩
    · simp at two
    · exact ⟨before, s, t, by simp⟩

variable [Scalar α]

/-- The sightings that were not stale are those that count. -/
theorem counted_eq_kept (key : TrackKey) (history : List (Dated α)) :
    counted key history (empty.observeDated history).2 = kept key history := by
  obtain ⟨intakes, -⟩ := remembers_observeDated keyed_empty Remembers.nothing history
  rw [intakes, counted_intakesAfter]
  rfl

/-! ### Bodies in a history -/

variable {i : Irrational}

/-- All that is told of a body in a history is what was seen of it at the time. -/
def Tells (history : List (Dated (Exact i))) (body : Body (Exact i)) : Prop :=
  ∀ s ∈ history, s.sighting.key = body.key → s = body.seenAt s.time

section

variable {history : List (Dated (Exact i))} {body : Body (Exact i)} {track : Track (Exact i)}

/-- What counts of a body is what was seen of it at that time. -/
theorem Tells.of_mem_kept (tells : Tells history body) {s : Dated (Exact i)}
    (counts : s ∈ kept body.key history) : s = body.seenAt s.time := by
  obtain ⟨listed, own⟩ := List.mem_filter.mp ((newsAfter_sublist [] _).mem counts)
  exact tells s listed (of_decide_eq_true own)

/-- A body of which a sighting counts is tracked, and its track follows it from the last of them. -/
theorem Tells.exists_track (tells : Tells history body) {catalog : Catalog (Exact i)}
    (known : catalog.Remembers history body.key) {before : List (Dated (Exact i))}
    {s : Dated (Exact i)} (counts : kept body.key history = before ++ [s]) :
    ∃ track, catalog.get? body.key = some track ∧ track.lastUpdate = s.time ∧
      track.Follows body := by
  have seen : s = body.seenAt s.time := tells.of_mem_kept (by simp [counts])
  have reckoned := known.get?
  rw [counts, reckon_append] at reckoned
  obtain ⟨position, velocity, lastUpdate⟩ := reckon_last before s (reckon_append before s)
  refine ⟨_, reckoned, lastUpdate, ?_, ?_⟩
  · rw [position, lastUpdate, seen]
    rfl
  · rw [velocity, lastUpdate, seen]
    rfl

/-- Two sightings that count give the acceleration of the body. -/
theorem Tells.acceleration (tells : Tells history body) {before : List (Dated (Exact i))}
    {s t : Dated (Exact i)} (counts : kept body.key history = before ++ [s, t])
    (summary : Summary body.key history track) : track.acceleration = body.acceleration := by
  obtain ⟨later, acceleration⟩ := summary.acceleration before s t counts
  have first : s = body.seenAt s.time := tells.of_mem_kept (by simp [counts])
  have second : t = body.seenAt t.time := tells.of_mem_kept (by simp [counts])
  rw [acceleration, first, second]
  exact body.acceleration_eq later

end

/-- What a catalog reckons with a body of constant acceleration, whatever else it has seen. If two
sightings of the body or more counted, the track has the acceleration of the body, its velocity at
the latest time that it was seen at, and reckons its position exactly, at times before and after. If
one counted, the track is off by half the acceleration times the square of the seconds since. -/
theorem reckoning_is_exact (body : Body (Exact i)) (history : List (Dated (Exact i)))
    (tells : Tells history body) :
    let after := (empty : Catalog (Exact i)).observeDated history
    let counted := counted body.key history after.2
    (2 ≤ counted.length → ∃ track, after.1.get? body.key = some track ∧
      track.acceleration = body.acceleration ∧
      track.velocity = (body.seenAt track.lastUpdate).sighting.velocity ∧
      (∃ s ∈ history, s.sighting.key = body.key ∧ s.time = track.lastUpdate) ∧
      (∀ s ∈ history, s.sighting.key = body.key → s.time ≤ track.lastUpdate) ∧
      ∀ time, track.positionAt time = (body.seenAt time).sighting.position) ∧
    ∀ s, counted = [s] → ∃ track, after.1.get? body.key = some track ∧
      ∀ time : Micros,
        let miss := (body.seenAt time).sighting.position - track.positionAt time
        let seconds : ℚ := (time.toNat - s.time.toNat) / 10 ^ 6
        miss.x.value = body.acceleration.x.value * seconds ^ 2 / 2 ∧
          miss.y.value = body.acceleration.y.value * seconds ^ 2 / 2 := by
  intro after
  dsimp only
  obtain ⟨-, keyed, known⟩ := remembers_observeDated keyed_empty Remembers.nothing history
  rw [List.nil_append] at known
  rw [counted_eq_kept]
  have known := known body.key
  constructor
  · intro two
    -- the last two sightings that counted give the acceleration of the body
    obtain ⟨before, s, t, counts⟩ := exists_last_two two
    have shape : before ++ [s, t] = before ++ [s] ++ [t] := by simp
    obtain ⟨track, found, -, follows⟩ := tells.exists_track known (counts.trans shape)
    have summary := known.summary keyed found
    have acceleration := tells.acceleration counts summary
    refine ⟨track, found, acceleration, follows.velocity, summary.lastUpdate_mem,
      summary.le_lastUpdate, ?_⟩
    intro time
    exact (follows.positionAt_eq acceleration time).symm
  · -- a single one leaves it at zero, so that its part of the way is missed
    intro s counts
    obtain ⟨track, found, lastUpdate, follows⟩ :=
      tells.exists_track known (counts.trans (List.nil_append [s]).symm)
    have acceleration := (known.summary keyed found).acceleration_zero s counts
    refine ⟨track, found, ?_⟩
    intro time
    rw [← lastUpdate]
    exact follows.miss_of_zero acceleration time

/-- A ship whose sightings come late and twice, with an asteroid in between, is reckoned to be where
it is, also before it was first seen. -/
theorem late_ship_is_reckoned :
    let i : Irrational := ⟨fun x => x, fun y _ => y⟩
    let ship : Body (Exact i) :=
      ⟨.ship, 1, ⟨⟨3⟩, ⟨-7⟩⟩, ⟨⟨2⟩, ⟨1 / 2⟩⟩, ⟨⟨1 / 3⟩, ⟨-5⟩⟩, ⟨10⟩, ⟨1⟩⟩
    let asteroid : Sighting (Exact i) := ⟨.asteroid, 1, .zero, .zero, none⟩
    let history := [ship.seenAt 5000000, ⟨asteroid, 6000000⟩, ship.seenAt 3000000,
      ship.seenAt 5000000, ship.seenAt 9000000]
    ∃ track, ((empty : Catalog (Exact i)).observeDated history).1.get? ship.key = some track ∧
      track.acceleration = ship.acceleration ∧
      track.positionAt 1000000 = (ship.seenAt 1000000).sighting.position := by
  intro i ship asteroid history
  have tells : Tells history ship := by
    intro s listed own
    simp only [history, List.mem_cons, List.not_mem_nil, or_false] at listed
    -- all sightings but that of the asteroid are of the ship
    rcases listed with rfl | rfl | rfl | rfl | rfl
    · rfl
    · exact absurd own (by decide)
    · rfl
    · rfl
    · rfl
  have two : 2 ≤ (counted ship.key history (empty.observeDated history).2).length := by
    decide +kernel
  obtain ⟨track, found, acceleration, -, -, -, position⟩ :=
    (reckoning_is_exact ship history tells).1 two
  exact ⟨track, found, acceleration, position 1000000⟩

end Catalog

end DeadReckoning
