import DeadReckoning.Proofs.Catalog.Standstill

namespace DeadReckoning

open Binary64

/-!
# Tracks — the time that a prediction looks ahead

An update takes the difference of two server times and makes a double of it. A prediction makes
doubles of the times and takes their difference. That is the same as long as the times are doubles,
which all are up to `2 ^ 53`. Later on the times are rounded before their difference is taken, and
this may be all that there is of it.

* `Micros.IsExact` — times that are doubles
* `Track.lookahead_eq_secondsBetween` — with these the two agree
* `Track.abs_lookahead_sub_le` — how far they are apart with others
* `Track.lookahead_ne` — from `2 ^ 53` on they are, for a microsecond
-/

/-- The time is a double. -/
def Micros.IsExact (time : Micros) : Prop := IsValue time.toFloat time.toNat

/-- A time is exact if it is not rounded as a double. -/
theorem Micros.isExact_iff {time : Micros} : time.IsExact ↔ nearest time.toNat = time.toNat :=
  ⟨fun isExact => (isMagnitude_toFloat time).isValue.unique isExact, fun same => by
    rw [IsExact, ← same]
    exact (isMagnitude_toFloat time).isValue⟩

/-- All times up to `2 ^ 53` microseconds are exact, which is some 285 years. -/
theorem Micros.IsExact.of_le {time : Micros} (le : time.toNat ≤ 2 ^ 53) : time.IsExact := by
  rw [isExact_iff]
  rcases le.eq_or_lt with greatest | lt
  · have power := nearest_of_lt (show 1 < 2 ^ 53 by norm_num) (show (-1074 : ℤ) ≤ 53 by norm_num)
    rw [greatest]
    exact_mod_cast power
  · have same := nearest_of_lt lt (show (-1074 : ℤ) ≤ 0 by norm_num)
    simpa using same

namespace Track

variable {earlier time : Micros}

/-- The difference of two times that are doubles is that of the doubles. -/
theorem toFloat_sub_toFloat (later : earlier ≤ time) (exactEarlier : earlier.IsExact)
    (exactTime : time.IsExact) : time.toFloat - earlier.toFloat = (time - earlier).toFloat := by
  have span := isMagnitude_toFloat (time - earlier)
  have ordered := UInt64.le_iff_toNat_le.mp later
  rw [UInt64.toNat_sub_of_le time earlier later, Nat.cast_sub ordered] at span
  rcases ordered.eq_or_lt with same | before
  · rw [same, sub_self, nearest_zero] at span
    rw [UInt64.toNat_inj.mp same]
    rw [UInt64.toNat_inj.mp same] at span
    exact (isMagnitude_toFloat time).sub_self.eq span
  · have one_le : 1 ≤ (time.toNat : ℚ) - earlier.toNat := by
      rw [← Nat.cast_sub ordered]
      exact_mod_cast Nat.sub_pos_of_lt before
    have nonneg := zero_le_one.trans one_le
    have fits : nearest |(time.toNat : ℚ) - earlier.toNat| < overflow := by
      refine exactTime.nearest_lt_overflow ?_
      rw [abs_of_nonneg nonneg, Nat.abs_cast]
      exact sub_le_self _ (Nat.cast_nonneg _)
    have value := exactTime.sub exactEarlier fits
    rw [rounded_of_nonneg nonneg] at value
    exact (value.isMagnitude (zero_lt_one.trans_le (one_le_nearest one_le))).eq span

variable (track : Track Float)

/-- With times that are doubles a prediction looks ahead as far as an update looks back. -/
theorem lookahead_eq_secondsBetween (later : track.lastUpdate ≤ time)
    (exactUpdate : track.lastUpdate.IsExact) (exactTime : time.IsExact) :
    track.lookahead time = secondsBetween track.lastUpdate time :=
  congrArg (· / microsPerSecond) (toFloat_sub_toFloat later exactUpdate exactTime)

/-! ### Times that are rounded -/

/-- What a prediction computes. -/
theorem isValue_lookahead_of (time : Micros) : IsValue (track.lookahead time)
    (rounded (rounded (nearest time.toNat - nearest track.lastUpdate.toNat) / 1000000)) := by
  have close : |nearest (time.toNat : ℚ) - nearest track.lastUpdate.toNat| ≤ 2 ^ 64 :=
    abs_sub_le_of_nonneg_of_le (nearest_nonneg _) (nearest_toNat_le _) (nearest_nonneg _)
      (nearest_toNat_le _)
  have fits := (IsWithin.nearest_le_two_pow (abs_nonneg _) close).trans_lt
    (IsWithin.two_pow_lt_overflow (by norm_num))
  have difference := (isMagnitude_toFloat time).isValue.sub
    (isMagnitude_toFloat track.lastUpdate).isValue fits
  refine difference.div isMagnitude_microsPerSecond (by norm_num)
    (difference.nearest_lt_overflow ?_)
  rw [abs_div]
  exact div_le_self (abs_nonneg _) (by norm_num)

/-- What the two ways of rounding may be apart: both times, their difference and what it is in
seconds, against the latter two. -/
theorem abs_rounded_seconds_sub_le {t l : ℚ} (late : 2 ^ 53 ≤ t) (start : 0 ≤ l) (ordered : l ≤ t) :
    |rounded (rounded (nearest t - nearest l) / 1000000) - nearest (nearest (t - l) / 1000000)| ≤
      t / 10 ^ 6 / 2 ^ 50 := by
  have nonneg : 0 ≤ t := start.trans ordered
  have span : 0 ≤ t - l := sub_nonneg.mpr ordered
  have time := abs_le.mp ((isNear_nearest nonneg).abs_sub_le (abs_of_nonneg nonneg).le)
  have update := abs_le.mp ((isNear_nearest start).abs_sub_le
    ((abs_of_nonneg start).trans_le ordered))
  have whole : |t - l| ≤ t := by
    rw [abs_of_nonneg span]
    exact sub_le_self _ start
  have elapsed := abs_le.mp ((isNear_nearest span).abs_sub_le whole)
  have apart : |nearest t - nearest l| ≤ 9 / 8 * t := by
    rw [abs_le]
    constructor <;> linarith
  have ahead := abs_le.mp ((isNear_rounded (nearest t - nearest l)).abs_sub_le apart)
  -- the same in seconds
  have aheadSeconds : |rounded (nearest t - nearest l) / 1000000| ≤ 5 / 4 * t / 1000000 := by
    rw [abs_le]
    rw [abs_le] at apart
    constructor <;> linarith
  have elapsedSeconds : |nearest (t - l) / 1000000| ≤ 9 / 8 * t / 1000000 := by
    rw [abs_le]
    rw [abs_le] at whole
    constructor <;> linarith
  have a := abs_le.mp ((isNear_rounded _).abs_sub_le aheadSeconds)
  have pos : 0 ≤ nearest (t - l) / 1000000 := div_nonneg (nearest_nonneg _) (by norm_num)
  have b := abs_le.mp ((isNear_nearest pos).abs_sub_le elapsedSeconds)
  rw [abs_le]
  constructor <;> linarith

/-- A prediction looks ahead by the time that an update would see, up to a small part of the time
itself. -/
theorem abs_lookahead_sub_le (later : track.lastUpdate ≤ time) :
    ∃ a b, IsValue (track.lookahead time) a ∧ IsValue (secondsBetween track.lastUpdate time) b ∧
      |a - b| ≤ (time.toNat : ℚ) / 10 ^ 6 / 2 ^ 50 := by
  have elapsed : IsValue (secondsBetween track.lastUpdate time) _ :=
    (isMagnitude_seconds (time - track.lastUpdate)).isValue
  rcases le_or_gt time.toNat (2 ^ 53) with early | late
  · have exactUpdate := Micros.IsExact.of_le ((UInt64.le_iff_toNat_le.mp later).trans early)
    rw [track.lookahead_eq_secondsBetween later exactUpdate (Micros.IsExact.of_le early)]
    refine ⟨_, _, elapsed, elapsed, ?_⟩
    rw [sub_self, abs_zero]
    positivity
  · refine ⟨_, _, track.isValue_lookahead_of time, elapsed, ?_⟩
    have ordered := UInt64.le_iff_toNat_le.mp later
    rw [UInt64.toNat_sub_of_le time track.lastUpdate later, Nat.cast_sub ordered]
    have late : (2 : ℚ) ^ 53 < time.toNat := by exact_mod_cast late
    have ordered : (track.lastUpdate.toNat : ℚ) ≤ time.toNat := by exact_mod_cast ordered
    have start : 0 ≤ (track.lastUpdate.toNat : ℚ) := Nat.cast_nonneg _
    exact abs_rounded_seconds_sub_le late.le start ordered

/-! ### Late times -/

/-- From `2 ^ 53` on the grid of the times has no odd numbers. -/
theorem exists_nearest_eq_two_mul {n : UInt64} (late : 2 ^ 53 ≤ n.toNat) :
    ∃ k : ℕ, nearest (n.toNat : ℚ) = 2 * k := by
  have low : (2 : ℚ) ^ 52 * 2 ^ (1 : ℤ) ≤ n.toNat := by
    rw [zpow_one, ← pow_succ]
    exact_mod_cast late
  obtain ⟨k, onGrid⟩ := exists_mul_grid (roundEven (n.toNat / 2 ^ gridExponent n.toNat))
    (le_gridExponent low)
  refine ⟨k, ?_⟩
  rw [nearest, onGrid, zpow_one, mul_comm]

/-- Neither no microseconds nor two of them are rounded to what one is rounded to. -/
theorem rounded_seconds_ne {q : ℚ} (other : q ≤ 0 ∨ 2 ≤ q) :
    rounded (rounded q / 1000000) ≠ nearest (1 / 1000000) := by
  intro same
  rcases other with none | two
  · have first := rounded_nonpos none
    have second := rounded_nonpos
      (div_nonpos_of_nonpos_of_nonneg first (show (0 : ℚ) ≤ 1000000 by norm_num))
    have pos : ((1 : ℕ) : ℚ) * 2 ^ (-20 : ℤ) ≤ nearest (1 / 1000000) :=
      le_nearest (by norm_num) (by norm_num) (by norm_num)
    norm_num at pos
    linarith
  · -- one comes to less than `2 ^ -19`, and two to no less
    have below : nearest (1 / 1000000) ≤ (3 : ℕ) * 2 ^ (-21 : ℤ) :=
      nearest_le (by norm_num) (by norm_num) (by norm_num) (by norm_num)
    have count : ((2 : ℕ) : ℚ) * 2 ^ (0 : ℤ) ≤ nearest q :=
      le_nearest (by norm_num) (by norm_num) (by simpa using two)
    have seconds : ((1 : ℕ) : ℚ) * 2 ^ (-19 : ℤ) ≤ nearest q / 1000000 := by
      norm_num at count ⊢
      linarith
    have above := le_nearest (by norm_num) (by norm_num) seconds
    rw [rounded_of_nonneg (zero_le_two.trans two),
      rounded_of_nonneg (div_nonneg (nearest_nonneg _) (by norm_num))] at same
    rw [same] at above
    norm_num at above below
    linarith

/-- So no prediction looks ahead by a microsecond. -/
theorem lookahead_ne (late : 2 ^ 53 ≤ track.lastUpdate.toNat)
    (next : time.toNat = track.lastUpdate.toNat + 1) :
    track.lookahead time ≠ secondsBetween track.lastUpdate time := by
  have later : track.lastUpdate ≤ time := by
    rw [UInt64.le_iff_toNat_le]
    omega
  have span : (time - track.lastUpdate).toNat = 1 := by
    rw [UInt64.toNat_sub_of_le time track.lastUpdate later]
    omega
  have one : nearest (1 : ℚ) = 1 := by
    simpa using nearest_of_lt (show 1 < 2 ^ 53 by norm_num) (show (-1074 : ℤ) ≤ 0 by norm_num)
  have elapsed : IsValue (secondsBetween track.lastUpdate time) _ :=
    (isMagnitude_seconds (time - track.lastUpdate)).isValue
  rw [span, Nat.cast_one, one] at elapsed
  -- both times are even when they are rounded
  have ahead := track.isValue_lookahead_of time
  obtain ⟨i, evenTime⟩ := exists_nearest_eq_two_mul (late.trans (by omega : _ ≤ time.toNat))
  obtain ⟨j, evenUpdate⟩ := exists_nearest_eq_two_mul late
  rw [evenTime, evenUpdate] at ahead
  intro same
  refine rounded_seconds_ne ?_ (ahead.unique (same ▸ elapsed))
  rcases Nat.lt_or_ge j i with apart | together
  · right
    have apart : (j : ℚ) + 1 ≤ i := by exact_mod_cast apart
    linarith
  · left
    have together : (i : ℚ) ≤ j := by exact_mod_cast together
    linarith

/-! ### Predictions -/

/-- The time that a prediction looks ahead is the one that the next update will see, as long as the
times are doubles, and an object is then predicted to have moved for this time. All times up to
`2 ^ 53` are doubles. Later on the two are apart by a small part of the time itself at most, but
never do they agree on a microsecond. -/
theorem lookahead_is_elapsed_up_to_rounding (track : Track Float) (time : Micros)
    (later : track.lastUpdate ≤ time) :
    let ahead : Float := track.lookahead time
    let elapsed : Float := secondsBetween track.lastUpdate time
    (track.lastUpdate.IsExact ∧ time.IsExact → ahead = elapsed ∧
        ∀ axis ∈ Vec2.axes, axis (track.positionAt time) = axis track.position +
          axis track.velocity * elapsed + axis track.acceleration * (elapsed * elapsed / 2.0)) ∧
      (time.toNat ≤ 2 ^ 53 → track.lastUpdate.IsExact ∧ time.IsExact) ∧
      (∃ a b, IsValue ahead a ∧ IsValue elapsed b ∧
        |a - b| ≤ (time.toNat : ℚ) / 10 ^ 6 / 2 ^ 50) ∧
      (2 ^ 53 ≤ track.lastUpdate.toNat → time.toNat = track.lastUpdate.toNat + 1 →
        ahead ≠ elapsed) := by
  intro ahead elapsed
  refine ⟨fun ⟨exactUpdate, exactTime⟩ => ?_, fun early => ⟨?_, .of_le early⟩,
    track.abs_lookahead_sub_le later, track.lookahead_ne⟩
  · have same : ahead = elapsed := track.lookahead_eq_secondsBetween later exactUpdate exactTime
    refine ⟨same, fun axis mem => ?_⟩
    rw [axis_positionAt mem, ← same]
  · exact .of_le ((UInt64.le_iff_toNat_le.mp later).trans early)

/-- A ship that is predicted half a second ahead, on a day whose microseconds are doubles. -/
theorem half_second_is_predicted :
    let ship (time : Micros) : Track Float :=
      .ofSighting ⟨.ship, 1, ⟨0.0, 0.0⟩, ⟨8.0, 0.0⟩, none⟩ time
    let day : Micros := 1700000000000000
    ((ship day).positionAt (day + 500000)).x = 0.0 + 8.0 * secondsBetween day (day + 500000) +
      0.0 * (secondsBetween day (day + 500000) * secondsBetween day (day + 500000) / 2.0) := by
  intro ship day
  have later : day ≤ day + 500000 := by decide
  obtain ⟨agrees, early, -⟩ := lookahead_is_elapsed_up_to_rounding (ship day) (day + 500000) later
  exact (agrees (early (by decide))).2 Vec2.x (by simp [Vec2.axes])

/-- A ship with a speed of a million units a second moves by one in a microsecond, but at `2 ^ 53`
it is predicted to stand still. -/
theorem late_ship_stands_still :
    let ship : Track Float :=
      .ofSighting ⟨.ship, 1, ⟨0.0, 0.0⟩, ⟨1000000.0, 0.0⟩, none⟩ 9007199254740992
    let time : Micros := 9007199254740993
    (ship.lastUpdate ≤ time ∧ (ship.positionAt time).x == 0.0 ∧
        ship.velocity.x * secondsBetween ship.lastUpdate time == 1.0) ∧
      ¬∀ (track : Track Float) (time : Micros), track.lastUpdate ≤ time →
        track.lookahead time = secondsBetween track.lastUpdate time := by
  intro ship time
  refine ⟨by decide +kernel, fun agree => ?_⟩
  have apart : (ship.lookahead time == secondsBetween ship.lastUpdate time) = false := by
    decide +kernel
  have itself : (secondsBetween ship.lastUpdate time : Float) ==
      secondsBetween ship.lastUpdate time := by decide +kernel
  rw [agree ship time (by decide), itself] at apart
  cases apart

end Track

end DeadReckoning
