import DeadReckoning.Proofs.Binary64.Special
import DeadReckoning.Proofs.Catalog.History

namespace DeadReckoning

open Binary64

/-!
# Catalog — reckoning for the moment of a sighting

For the very time of its last update a track reckons with the position that it holds, as velocity
and acceleration are multiplied by zero. On doubles that is so as long as the acceleration is
finite. It need not be: two finite velocities may be a microsecond apart, and what their difference
comes to in a second may be beyond the doubles. Then the product with zero is NaN.

* `Vec2.axes` — the two axes
* `Track.axis_positionAt` — a reckoned position, axis by axis
* `Track.reckons_at_once`, `Track.isNaN_at_once` — what is reckoned for the last update
* `Track.isFinite_rate` — velocities that are not beyond all bounds have a finite acceleration
* `position_is_reckoned_unless_overflow` — the tracks of a history of finite sightings
* `jerked_ship_is_lost` — a history where a position is lost
-/

/-- The two axes of the plane. -/
def Vec2.axes {α : Type} : List (Vec2 α → α) := [x, y]

/-- A vector is finite if it is on both axes. -/
theorem Vec2.isFinite_iff_axes {v : Vec2 Float} :
    v.isFinite ↔ ∀ axis ∈ Vec2.axes, (axis v).isFinite := by
  rw [axes, List.forall_mem_cons, List.forall_mem_singleton]
  exact Bool.and_eq_true_iff

/-! ### One track -/

namespace Track

variable {track : Track Float} {axis : Vec2 Float → Float}

/-- The position on an axis depends on what is known on this axis and on the time that has
passed. -/
theorem axis_positionAt (mem : axis ∈ Vec2.axes) (track : Track Float) (time : Micros) :
    let seconds := track.lookahead time
    axis (track.positionAt time) = axis track.position + axis track.velocity * seconds +
      axis track.acceleration * (seconds * seconds / 2.0) := by
  rcases List.mem_pair.mp mem with rfl | rfl
  · rfl
  · rfl

/-- At the last update no time has passed. -/
theorem isValue_lookahead (track : Track Float) :
    IsValue (track.lookahead track.lastUpdate) 0 :=
  (isMagnitude_toFloat track.lastUpdate).isValue.sub_self.zero_div isMagnitude_microsPerSecond
    (by norm_num)

/-- Half of its square is zero too. -/
theorem isValue_halfSquare (track : Track Float) :
    let seconds := track.lookahead track.lastUpdate
    IsValue (seconds * seconds / 2.0) 0 := by
  have two : IsMagnitude (2.0 : Float) 2 := by
    have isCount : (2.0 : Float) = (2 : UInt64).toFloat := by decide +kernel
    rw [isCount]
    exact_mod_cast isMagnitude_toFloat_of_lt (show (2 : UInt64).toNat < 2 ^ 53 by decide)
  exact (track.isValue_lookahead.mul_zero track.isValue_lookahead).zero_div two two_pos

/-- With a finite acceleration, zero times it is zero. -/
theorem reckons_at_once (mem : axis ∈ Vec2.axes) (position : (axis track.position).isFinite)
    (velocity : (axis track.velocity).isFinite) (finite : (axis track.acceleration).isFinite) :
    axis (track.positionAt track.lastUpdate) == axis track.position := by
  obtain ⟨p, hp⟩ := isFinite_iff_exists_isValue.mp position
  obtain ⟨v, hv⟩ := isFinite_iff_exists_isValue.mp velocity
  obtain ⟨a, ha⟩ := isFinite_iff_exists_isValue.mp finite
  have reckoned := (hp.add_zero (hv.mul_zero track.isValue_lookahead)).add_zero
    (ha.mul_zero track.isValue_halfSquare)
  rw [axis_positionAt mem]
  exact (reckoned.beq_iff hp).mpr rfl

/-- With any other, zero times it is NaN. -/
theorem isNaN_at_once (mem : axis ∈ Vec2.axes) (infinite : ¬(axis track.acceleration).isFinite) :
    (axis (track.positionAt track.lastUpdate)).isNaN := by
  rw [axis_positionAt mem]
  exact isNaN_add _ (isNaN_mul_zero infinite track.isValue_halfSquare)

/-- Velocities that are not beyond all bounds have a finite acceleration, however close in time. -/
theorem isFinite_rate {bound : ℚ} {v w : Float} (hv : HasBound bound v) (hw : HasBound bound w)
    (one_le : 1 ≤ bound) (room : 10 * (bound * 2 ^ 20) ≤ overflow) {earlier time : Micros}
    (later : earlier < time) : ((w - v) / secondsBetween earlier time).isFinite := by
  have span : 1 ≤ (time - earlier).toNat := by
    have ordered : earlier.toNat < time.toNat := UInt64.lt_iff_toNat_lt.mp later
    rw [UInt64.toNat_sub_of_le time earlier (UInt64.le_of_lt later)]
    omega
  -- twice the bound, and what rounding may add to it
  have change := (hw.sub hv (by linarith)).mono (show _ ≤ 3 * bound by linarith)
  refine change.isFinite_div (isMagnitude_seconds _) (by norm_num) (le_nearest_seconds span) ?_
  rw [div_div_eq_mul_div, div_one]
  linarith

end Track

/-! ### Histories -/

namespace Catalog

variable {history : List (Dated Float)} {key : TrackKey} {track : Track Float}
  {axis : Vec2 Float → Float}

/-- Position and velocity are those of one sighting. -/
theorem Summary.exists_last (summary : Summary key history track) :
    ∃ s ∈ history, track.position = s.sighting.position ∧ track.velocity = s.sighting.velocity := by
  obtain ⟨s, last, position⟩ := Option.map_eq_some_iff.mp summary.position
  have velocity := summary.velocity
  rw [last] at velocity
  refine ⟨s, ?_, position.symm, (Option.some.inj velocity).symm⟩
  have mem : s ∈ sightingsOf key history :=
    (newsAfter_sublist [] _).mem (List.mem_of_getLast? last)
  exact (List.mem_filter.mp mem).1

/-- The acceleration along an axis. -/
theorem Summary.axis_acceleration (summary : Summary key history track) (mem : axis ∈ Vec2.axes) :
    (∀ s, kept key history = [s] → axis track.acceleration = 0.0) ∧
      ∀ before s t, kept key history = before ++ [s, t] → s.time < t.time ∧
        axis track.acceleration = (axis t.sighting.velocity - axis s.sighting.velocity) /
          Track.secondsBetween s.time t.time := by
  constructor
  · intro s only
    rw [summary.acceleration_zero s only]
    rcases List.mem_pair.mp mem with rfl | rfl
    · rfl
    · rfl
  · intro before s t two
    obtain ⟨later, acceleration⟩ := summary.acceleration before s t two
    refine ⟨later, ?_⟩
    rw [acceleration]
    rcases List.mem_pair.mp mem with rfl | rfl
    · rfl
    · rfl

/-- Along an axis on which the velocities have a bound, the acceleration is finite. -/
theorem Summary.isFinite_acceleration (summary : Summary key history track)
    (mem : axis ∈ Vec2.axes) {bound : ℚ} (one_le : 1 ≤ bound)
    (room : 10 * (bound * 2 ^ 20) ≤ overflow)
    (slow : ∀ s ∈ history, HasBound bound (axis s.sighting.velocity)) :
    (axis track.acceleration).isFinite := by
  obtain ⟨first, others⟩ := summary.axis_acceleration mem
  have slow (s) (counts : s ∈ kept key history) : HasBound bound (axis s.sighting.velocity) :=
    slow s (List.mem_filter.mp ((newsAfter_sublist [] _).mem counts)).1
  -- the object was seen once or more than once
  rcases (kept key history).eq_nil_or_concat' with none | ⟨before, t, counts⟩
  · have position := summary.position
    rw [none] at position
    cases position
  · rcases before.eq_nil_or_concat' with rfl | ⟨before, s, rfl⟩
    · rw [first t counts]
      rfl
    · have counts : kept key history = before ++ [s, t] := by simpa using counts
      obtain ⟨later, acceleration⟩ := others before s t counts
      rw [acceleration]
      exact Track.isFinite_rate (slow s (by simp [counts])) (slow t (by simp [counts])) one_le room
        later

/-- What the tracks of a history of finite sightings reckon with for the very time of their last
update. Along an axis it is the position that they hold if the acceleration is finite, and NaN if it
is not. The acceleration is null after one sighting that counts; after several it is the difference
of the last two velocities by the time between them, which is finite at least if no velocity of the
history exceeds the 301st power of ten. -/
theorem position_is_reckoned_unless_overflow (history : List (Dated Float))
    (finite : ∀ s ∈ history, s.sighting.position.isFinite ∧ s.sighting.velocity.isFinite)
    {key : TrackKey} {track : Track Float}
    (found : (empty.observeDated history).1.get? key = some track) :
    ∀ axis ∈ Vec2.axes,
      let held := axis track.position
      let reckoned := axis (track.positionAt track.lastUpdate)
      let acceleration := axis track.acceleration
      held.isFinite ∧
        (acceleration.isFinite → reckoned == held) ∧
        (¬acceleration.isFinite → reckoned.isNaN) ∧
        (∀ s, kept key history = [s] → acceleration = 0.0) ∧
        (∀ before s t, kept key history = before ++ [s, t] → s.time < t.time ∧
          acceleration = (axis t.sighting.velocity - axis s.sighting.velocity) /
            Track.secondsBetween s.time t.time) ∧
        ((∀ s ∈ history, HasBound (10 ^ 301) (axis s.sighting.velocity)) →
          acceleration.isFinite) := by
  intro axis mem
  dsimp only
  have summary := ((history_determines_catalog history).2 key).2.1 track found
  obtain ⟨s, listed, position, velocity⟩ := summary.exists_last
  have held := Vec2.isFinite_iff_axes.mp (finite s listed).1 axis mem
  have moving := Vec2.isFinite_iff_axes.mp (finite s listed).2 axis mem
  rw [← position] at held
  rw [← velocity] at moving
  obtain ⟨first, others⟩ := summary.axis_acceleration mem
  refine ⟨held, Track.reckons_at_once mem held moving, Track.isNaN_at_once mem, first, others, ?_⟩
  intro slow
  refine summary.isFinite_acceleration mem (one_le_pow₀ (by norm_num)) ?_ slow
  -- a difference of such velocities, divided by a microsecond, is not beyond the doubles
  have whole : (10 * (10 ^ 301 * 2 ^ 20) : ℕ) ≤ 2 ^ 1024 := by decide +kernel
  rw [overflow]
  exact_mod_cast whole

/-- A ship that is faster by 10^300 within a microsecond is still reckoned to be where it was
seen. -/
theorem fast_ship_is_reckoned :
    let seen (v : Float) : Sighting Float := ⟨.ship, 1, ⟨5.0, 7.0⟩, ⟨v, 1.0⟩, none⟩
    let history : List (Dated Float) := [⟨seen 1.0, 0⟩, ⟨seen 1e300, 1⟩]
    (∀ s ∈ history, s.sighting.position.isFinite ∧ s.sighting.velocity.isFinite) ∧
      ∃ track, (empty.observeDated history).1.get? ⟨.ship, 1⟩ = some track ∧
        ∀ axis ∈ Vec2.axes, axis (track.positionAt track.lastUpdate) == axis track.position := by
  intro seen history
  have finite : ∀ s ∈ history, s.sighting.position.isFinite ∧ s.sighting.velocity.isFinite := by
    decide +kernel
  have tracked : ((empty.observeDated history).1.get? ⟨.ship, 1⟩).map
      (·.acceleration.isFinite) = some true := by decide +kernel
  obtain ⟨track, found, acceleration⟩ := Option.map_eq_some_iff.mp tracked
  have reckoned := position_is_reckoned_unless_overflow history finite found
  refine ⟨finite, track, found, fun axis mem => (reckoned axis mem).2.1 ?_⟩
  exact Vec2.isFinite_iff_axes.mp acceleration axis mem

/-- A ship that is faster by 10^305 within a microsecond is reckoned to be nowhere. -/
theorem jerked_ship_is_lost :
    let seen (v : Float) : Sighting Float := ⟨.ship, 1, ⟨5.0, 7.0⟩, ⟨v, 0.0⟩, none⟩
    let history : List (Dated Float) := [⟨seen 0.0, 0⟩, ⟨seen 1e305, 1⟩]
    (∀ s ∈ history, s.sighting.position.isFinite ∧ s.sighting.velocity.isFinite) ∧
      ((empty.observeDated history).1.get? ⟨.ship, 1⟩).map (fun track =>
        let reckoned := track.positionAt track.lastUpdate
        (reckoned.x.isNaN, reckoned == track.position)) = some (true, false) := by
  decide +kernel

end Catalog

end DeadReckoning
