import DeadReckoning.Proofs.View.Axis
import DeadReckoning.Proofs.View.Scale
import DeadReckoning.Settings

namespace DeadReckoning

/-!
# Overflow — how the view can be lost

A zoom is refused if the factor, the fixed point or the scale is not a number, and a movement if the
displacement is not. Nobody looks at the offset, which is computed from products of scale and point.
If one of these is beyond the doubles, the offset becomes infinite or NaN, and as every point of the
screen is taken relative to the offset, no gesture acts on the view any more.

That takes coordinates or zoom factors close to the greatest double, or thousands of notches
inwards: the offset grows with the reach of the pointer, and as many times as the view is zoomed in.

* `Navigator.InReach` — the offset, and the point held, are within a bound
* `InReach.take`, `InReach.dragTo`, `InReach.zoomAt` — what a gesture makes of the bound
* `InReach.step`, `InReach.handleAll` — a gesture and a run of them
* `Navigator.step_of_lost`, `handleAll_of_lost` — an offset that is lost stays lost
* `view_lost_only_by_overflow` — all of it for a navigator from its start
-/

open Binary64

/-! ### Points, notches and what they may reach -/

namespace Vec2

/-- Both coordinates are finite and have a bound. -/
structure HasBound (bound : ℚ) (v : Vec2 Float) : Prop where
  x : Binary64.HasBound bound v.x
  y : Binary64.HasBound bound v.y

theorem HasBound.mono {bound other : ℚ} {v : Vec2 Float} (h : v.HasBound bound)
    (le : bound ≤ other) : v.HasBound other := ⟨h.x.mono le, h.y.mono le⟩

theorem HasBound.isFinite {bound : ℚ} {v : Vec2 Float} (h : v.HasBound bound) : v.isFinite :=
  (isFinite_double_iff v).mpr ⟨h.x.isFinite, h.y.isFinite⟩

end Vec2

namespace Gesture

/-- Where on the screen a gesture is made. -/
def point? {α : Type} : Gesture α → Option (Vec2 α)
  | press point | move point | touch point | touchMove point | wheel point _ => some point
  | release | touchEnd | cancel => none

/-- A notch inwards. -/
def zoomsIn {α : Type} [Scalar α] : Gesture α → Bool
  | wheel _ amount => decide (amount < 0.0)
  | _ => false

/-- How many times as great a gesture may make what is on the screen. -/
def growth (zoom : ℚ) (gesture : Gesture Float) : ℚ := if gesture.zoomsIn then zoom else 1

/-- No gesture makes the allowance smaller. -/
theorem one_le_growth {zoom : ℚ} (one_le : 1 ≤ zoom) (gesture : Gesture Float) :
    1 ≤ gesture.growth zoom := by
  unfold growth
  split
  · exact one_le
  · exact le_rfl

end Gesture

namespace Viewport

variable {view : Viewport Float} {point : Vec2 Float}

/-- The point of the world under a point of the screen is finite only if that point and the offset
are. -/
theorem HasGoodScale.isFinite_of_toLocal (good : view.HasGoodScale)
    (finite : (view.toLocal point).isFinite) : point.isFinite ∧ view.offset.isFinite := by
  simp only [Vec2.isFinite_double_iff] at finite ⊢
  obtain ⟨x, y⟩ := finite
  obtain ⟨point_x, offset_x⟩ := isFinite_sub (isFinite_div good.finite.1 x)
  obtain ⟨point_y, offset_y⟩ := isFinite_sub (isFinite_div good.finite.2 y)
  exact ⟨⟨point_x, point_y⟩, offset_x, offset_y⟩

/-- A point of the world that the view shows within a bound, from the origin of the world on. -/
structure Shows (view : Viewport Float) (bound : ℚ) (point : Vec2 Float) : Prop where
  x : Axis.IsShown bound view.scale.x point.x
  y : Axis.IsShown bound view.scale.y point.y

theorem Shows.mono {bound other : ℚ} (h : view.Shows bound point) (le : bound ≤ other) :
    view.Shows other point := ⟨h.x.mono le, h.y.mono le⟩

/-- What is under the pointer is shown within the reach of pointer and offset. -/
theorem HasGoodScale.shows_toLocal (good : view.HasGoodScale) {reach bound : ℚ}
    (near : point.HasBound reach) (offset : view.offset.HasBound bound) (one_le : 1 ≤ reach)
    (room : 2 * (reach + bound) ≤ overflow) (finite : (view.toLocal point).isFinite) :
    view.Shows ((1 + 1 / 2 ^ 48) * (reach + bound)) (view.toLocal point) := by
  obtain ⟨x, y⟩ := (Vec2.isFinite_double_iff _).mp finite
  obtain ⟨p, hx, p_pos⟩ := exists_isMagnitude good.finite.1 good.pos.1
  obtain ⟨q, hy, q_pos⟩ := exists_isMagnitude good.finite.2 good.pos.2
  exact ⟨Axis.isShown_toLocal hx p_pos near.x offset.x one_le room x,
    Axis.isShown_toLocal hy q_pos near.y offset.y one_le room y⟩

end Viewport

namespace Navigator

variable {κ σ : Type} {navigator : Navigator κ Float} {reach bound zoom : ℚ}

/-! ### Gestures that do nothing -/

/-- A movement by a displacement that is not finite is passed over. -/
theorem dragTo_of_not_finite {anchor goal : Vec2 Float} (held : navigator.grip = .dragging anchor)
    (infinite : ¬(navigator.view.toLocal goal - anchor).isFinite) :
    navigator.dragTo goal = (navigator, false) := by
  unfold dragTo
  rw [held]
  dsimp only
  rw [if_pos (by simp [infinite])]

/-- A difference is finite only of finite vectors. -/
theorem isFinite_sub_anchor {v anchor : Vec2 Float} (finite : (v - anchor).isFinite) :
    v.isFinite ∧ anchor.isFinite := by
  simp only [Vec2.isFinite_double_iff] at finite ⊢
  obtain ⟨v_x, anchor_x⟩ := isFinite_sub finite.1
  obtain ⟨v_y, anchor_y⟩ := isFinite_sub finite.2
  exact ⟨⟨v_x, v_y⟩, anchor_x, anchor_y⟩

/-- Without a finite offset no gesture acts on the view. -/
theorem step_of_lost (good : navigator.view.HasGoodScale)
    (lost : ¬navigator.view.offset.isFinite) (gesture : Gesture Float) :
    (navigator.step gesture).2 = false := by
  -- every gesture that acts on the view looks up what is under the pointer first
  have nowhere (point : Vec2 Float) : ¬(navigator.view.toLocal point).isFinite :=
    fun finite => lost (good.isFinite_of_toLocal finite).2
  cases gesture with
  | move goal | touchMove goal =>
    rw [step]
    rcases navigator.dragTo_cases goal with still | ⟨anchor, held, _⟩
    · rw [still]
    · rw [dragTo_of_not_finite held fun finite => nowhere goal (isFinite_sub_anchor finite).1]
  | wheel point amount =>
    rw [step]
    rcases navigator.zoomAt_cases point amount with still | ⟨factor, view, zoomed, _⟩
    · rw [still]
    · by_cases can : navigator.view.CanZoom (navigator.view.toLocal point) factor
      · exact absurd can.pivot_finite (nowhere point)
      · obtain ⟨e, refused⟩ := Viewport.zoomAbout_of_not_canZoom can
        rw [refused] at zoomed
        cases zoomed
  | press _ | touch _ | release | touchEnd | cancel => rfl

/-- So it stays, and the targets stay where they are. -/
theorem handleAll_of_lost [TargetSet σ κ Float] (good : navigator.view.HasGoodScale)
    (lost : ¬navigator.view.offset.isFinite) (targets : σ) (gestures : List (Gesture Float)) :
    (navigator.handleAll targets gestures).1.view = navigator.view ∧
      (navigator.handleAll targets gestures).2 = targets := by
  induction gestures generalizing navigator with
  | nil => exact ⟨rfl, rfl⟩
  | cons gesture rest ih =>
    have unchanged := step_of_lost good lost gesture
    have view := navigator.view_step gesture unchanged
    have kept : (navigator.handle gesture targets).2.1 = targets := by
      unfold handle
      dsimp only
      rw [unchanged, if_neg Bool.false_ne_true]
    rw [handleAll_cons, kept, ← view]
    exact ih (view ▸ good) (view ▸ lost)

/-! ### Views within a bound -/

/-- The offset is within a bound, and so is what the view shows of a point that is held. -/
structure InReach (navigator : Navigator κ Float) (bound : ℚ) : Prop where
  scale : navigator.view.HasGoodScale
  offset : navigator.view.offset.HasBound bound
  anchor : ∀ anchor, navigator.grip = .dragging anchor → anchor.isFinite →
    navigator.view.Shows bound anchor

namespace InReach

/-- At the start the offset is zero and nothing is held. -/
protected theorem start {keys : List κ} (zoomStep : Float) :
    ((start keys).withZoomStep zoomStep).InReach 0 := by
  obtain ⟨_, same⟩ := (start keys : Navigator κ Float).withZoomStep_cases zoomStep
  have zero : Binary64.HasBound 0 0.0 := ⟨0, isValue_zero, abs_zero.le⟩
  rw [same]
  exact ⟨.start, ⟨zero, zero⟩, fun _ held => by cases held⟩

protected theorem mono {other : ℚ} (inReach : navigator.InReach bound) (le : bound ≤ other) :
    navigator.InReach other :=
  ⟨inReach.scale, inReach.offset.mono le,
    fun anchor held finite => (inReach.anchor anchor held finite).mono le⟩

theorem bound_nonneg (inReach : navigator.InReach bound) : 0 ≤ bound := by
  obtain ⟨v, _, small⟩ := inReach.offset.x
  exact (abs_nonneg v).trans small

/-- What is taken hold of was under the pointer. -/
protected theorem take (inReach : navigator.InReach bound) {point : Vec2 Float}
    (near : point.isFinite → point.HasBound reach) (one_le : 1 ≤ reach)
    (room : 2 * (reach + bound) ≤ overflow) :
    (navigator.take point).InReach ((1 + 1 / 2 ^ 48) * (reach + bound)) := by
  have nonneg := inReach.bound_nonneg
  refine ⟨inReach.scale, inReach.offset.mono (by linarith), ?_⟩
  intro anchor held finite
  cases held
  have near := near (inReach.scale.isFinite_of_toLocal finite).1
  exact inReach.scale.shows_toLocal near inReach.offset one_le room finite

/-- A movement adds the reach of the pointer to the bound, once for the offset and once for the
point held. -/
protected theorem dragTo (inReach : navigator.InReach bound) {goal : Vec2 Float}
    (near : goal.isFinite → goal.HasBound reach) (one_le : 1 ≤ reach)
    (room : 8 * (2 * reach + bound) ≤ overflow) :
    (navigator.dragTo goal).1.InReach ((1 + 1 / 2 ^ 45) * (2 * reach + bound)) := by
  have nonneg := inReach.bound_nonneg
  have good := inReach.scale
  rcases navigator.dragTo_cases goal with still | ⟨anchor, held, moved⟩
  · rw [still]
    exact inReach.mono (by linarith)
  · by_cases finite : (navigator.view.toLocal goal - anchor).isFinite
    · obtain ⟨finite_goal, finite_anchor⟩ := isFinite_sub_anchor finite
      have near := near (good.isFinite_of_toLocal finite_goal).1
      have shown := inReach.anchor anchor held finite_anchor
      obtain ⟨finite_x, finite_y⟩ := (Vec2.isFinite_double_iff _).mp finite
      obtain ⟨p, hx, p_pos⟩ := exists_isMagnitude good.finite.1 good.pos.1
      obtain ⟨q, hy, q_pos⟩ := exists_isMagnitude good.finite.2 good.pos.2
      have offset : (navigator.view.pan (navigator.view.toLocal goal - anchor)).offset.HasBound
          ((1 + 1 / 2 ^ 46) * (reach + bound)) :=
        ⟨Axis.hasBound_drag hx p_pos near.x inReach.offset.x shown.x one_le (by linarith) finite_x,
          Axis.hasBound_drag hy q_pos near.y inReach.offset.y shown.y one_le (by linarith) finite_y⟩
      rw [moved]
      refine ⟨good.pan _, offset.mono (by linarith), ?_⟩
      -- the point held is looked up anew in the view that was moved
      intro anchor' held' finite'
      cases held'
      have shown' := (good.pan _).shows_toLocal near offset one_le (by linarith) finite'
      exact shown'.mono (by linarith)
    · rw [dragTo_of_not_finite held finite]
      exact inReach.mono (by linarith)

end InReach

/-! ### Zoom factors -/

/-- The zoom factor is a number from one to `zoom`. -/
def ZoomsUpTo (navigator : Navigator κ Float) (zoom : ℚ) : Prop :=
  ∃ z, IsMagnitude navigator.zoomStep z ∧ 1 ≤ z ∧ z ≤ zoom

/-- The zoom factor that is in use is finite and above one. -/
theorem zoomStep_withZoomStep_double (keys : List κ) (zoomStep : Float) :
    let inUse := ((start keys).withZoomStep zoomStep).zoomStep
    inUse.isFinite ∧ 1.0 < inUse := by
  unfold withZoomStep
  split
  next accepted =>
    obtain ⟨finite, above⟩ := (Bool.and_eq_true _ _).mp accepted
    exact ⟨finite, of_decide_eq_true above⟩
  next =>
    show (1.1 : Float).isFinite ∧ (1.0 : Float) < 1.1
    decide +kernel

/-- The zoom factor in use is above one, so that a bound of it is all that is asked for. -/
theorem zoomsUpTo_withZoomStep {keys : List κ} {zoomStep : Float}
    (most : HasBound zoom ((start keys).withZoomStep zoomStep).zoomStep) :
    ((start keys).withZoomStep zoomStep).ZoomsUpTo zoom := by
  obtain ⟨finite, above⟩ := zoomStep_withZoomStep_double keys zoomStep
  obtain ⟨v, value, small⟩ := most
  have above : 1 < v := (isMagnitude_one.isValue.lt_iff value).mp above
  have pos : (0.0 : Float) < ((start keys).withZoomStep zoomStep).zoomStep :=
    (isValue_zero.lt_iff value).mpr (one_pos.trans above)
  obtain ⟨z, magnitude, _⟩ := exists_isMagnitude finite pos
  obtain rfl := magnitude.isValue.unique value
  exact ⟨z, magnitude, above.le, (le_abs_self z).trans small⟩

/-- The factor of a notch is at most the zoom factor, and outwards at most one. -/
theorem ZoomsUpTo.hasBound_zoomFactor (zooms : navigator.ZoomsUpTo zoom) (point : Vec2 Float)
    {amount factor : Float} (given : navigator.zoomFactor? amount = some factor) :
    HasBound ((Gesture.wheel point amount).growth zoom) factor := by
  obtain ⟨z, magnitude, one_le, le⟩ := zooms
  have pos : 0 < z := one_pos.trans_le one_le
  unfold zoomFactor? at given
  unfold Gesture.growth Gesture.zoomsIn
  dsimp only
  by_cases inwards : amount < 0.0
  · rw [if_pos inwards, Option.some.injEq] at given
    rw [if_pos (decide_eq_true inwards), ← given]
    exact ⟨z, magnitude.isValue, (abs_of_pos pos).trans_le le⟩
  · rw [if_neg inwards] at given
    rw [if_neg (by simp [inwards])]
    split at given
    · cases given
      -- outwards the inverse of a factor above one is rounded, which does not lead past one
      have shrinks : nearest (1 / z) ≤ 1 := by
        have small := IsWithin.nearest_le_two_pow (k := 0) (one_div_pos.mpr pos).le
          (by rw [pow_zero]; exact (div_le_one pos).mpr one_le)
        rwa [pow_zero] at small
      have one_lt : (1 : ℚ) < overflow := by
        rw [overflow]
        exact one_lt_zpow₀ one_lt_two (by norm_num)
      have quotient := isMagnitude_one.div magnitude pos (shrinks.trans_lt one_lt)
      exact ⟨_, quotient.isValue, (abs_of_nonneg (nearest_nonneg _)).trans_le shrinks⟩
    · cases given

/-! ### A gesture and a run of them -/

namespace InReach

/-- A notch inwards makes the bound as many times as great. -/
protected theorem zoomAt (inReach : navigator.InReach bound) (zooms : navigator.ZoomsUpTo zoom)
    {point : Vec2 Float} (near : point.isFinite → point.HasBound reach) (one_le : 1 ≤ reach)
    (amount : Float)
    (room : 8 * ((Gesture.wheel point amount).growth zoom * (2 * reach + bound)) ≤ overflow) :
    (navigator.zoomAt point amount).1.InReach
      ((1 + 1 / 2 ^ 45) * ((Gesture.wheel point amount).growth zoom * (2 * reach + bound))) := by
  have nonneg := inReach.bound_nonneg
  have good := inReach.scale
  have one_le_growth : 1 ≤ (Gesture.wheel point amount).growth zoom := by
    obtain ⟨z, -, one_le_z, z_le⟩ := zooms
    exact Gesture.one_le_growth (one_le_z.trans z_le) _
  have wider : 2 * reach + bound ≤
      (Gesture.wheel point amount).growth zoom * (2 * reach + bound) :=
    le_mul_of_one_le_left (by linarith) one_le_growth
  have stays : navigator.InReach ((1 + 1 / 2 ^ 45) *
      ((Gesture.wheel point amount).growth zoom * (2 * reach + bound))) :=
    inReach.mono (by linarith)
  unfold zoomAt
  cases given : navigator.zoomFactor? amount with
  | none => exact stays
  | some factor =>
    dsimp only
    by_cases can : navigator.view.CanZoom (navigator.view.toLocal point) factor
    · have near := near (good.isFinite_of_toLocal can.pivot_finite).1
      have step := zooms.hasBound_zoomFactor point given
      obtain ⟨pivot_x, pivot_y⟩ := (Vec2.isFinite_double_iff _).mp can.pivot_finite
      obtain ⟨⟨scale_x, -⟩, scale_y, -⟩ := (Viewport.isGoodScale_double_iff _).mp can.scale_good
      obtain ⟨p, hx, p_pos⟩ := exists_isMagnitude good.finite.1 good.pos.1
      obtain ⟨q, hy, q_pos⟩ := exists_isMagnitude good.finite.2 good.pos.2
      have zoomed := good.zoomAbout (Viewport.zoomAbout_of_canZoom can)
      rw [Viewport.zoomAbout_of_canZoom can]
      refine ⟨zoomed, ⟨?_, ?_⟩, ?_⟩
      · exact Axis.hasBound_zoom hx p_pos near.x inReach.offset.x step one_le one_le_growth room
          pivot_x scale_x
      · exact Axis.hasBound_zoom hy q_pos near.y inReach.offset.y step one_le one_le_growth room
          pivot_y scale_y
      · intro anchor held finite
        have shown := inReach.anchor anchor held finite
        exact ⟨Axis.isShown_zoom shown.x step one_le one_le_growth scale_x,
          Axis.isShown_zoom shown.y step one_le one_le_growth scale_y⟩
    · obtain ⟨e, refused⟩ := Viewport.zoomAbout_of_not_canZoom can
      rw [refused]
      exact stays

/-- What a gesture makes of the bound. -/
protected theorem step (inReach : navigator.InReach bound) (zooms : navigator.ZoomsUpTo zoom)
    {gesture : Gesture Float}
    (near : ∀ point, gesture.point? = some point → point.isFinite → point.HasBound reach)
    (one_le : 1 ≤ reach) (room : 8 * (gesture.growth zoom * (2 * reach + bound)) ≤ overflow) :
    (navigator.step gesture).1.InReach
      ((1 + 1 / 2 ^ 45) * (gesture.growth zoom * (2 * reach + bound))) := by
  have nonneg := inReach.bound_nonneg
  have one_mul_growth {g : Gesture Float} (noZoom : g.zoomsIn = false) :
      g.growth zoom * (2 * reach + bound) = 2 * reach + bound := by
    rw [Gesture.growth, noZoom, if_neg Bool.false_ne_true, one_mul]
  cases gesture with
  | press point =>
    rw [one_mul_growth rfl] at room ⊢
    exact (inReach.take (near point rfl) one_le (by linarith)).mono (by linarith)
  | touch point =>
    rw [one_mul_growth rfl] at room ⊢
    rw [Navigator.step]
    split
    · exact ⟨inReach.scale, inReach.offset.mono (by linarith), fun _ held => by cases held⟩
    · exact (inReach.take (near point rfl) one_le (by linarith)).mono (by linarith)
  | move goal | touchMove goal =>
    rw [one_mul_growth rfl] at room ⊢
    exact inReach.dragTo (near goal rfl) one_le room
  | release | touchEnd | cancel =>
    rw [one_mul_growth rfl]
    exact ⟨inReach.scale, inReach.offset.mono (by linarith), fun _ held => by cases held⟩
  | wheel point amount => exact inReach.zoomAt zooms (near point rfl) one_le amount room

/-- What the errors of rounding add to the bound over many gestures. -/
theorem pow_le_two {n : ℕ} (few : n ≤ 2 ^ 40) : (1 + 1 / 2 ^ 45 : ℚ) ^ n ≤ 2 := by
  have linear : (1 + 1 / 2 ^ 45 : ℚ) ^ n ≤ 1 + n / 2 ^ 44 := by
    induction n with
    | zero => norm_num
    | succ n ih =>
      have small : (n : ℚ) ≤ 2 ^ 40 := by exact_mod_cast (Nat.le_succ n).trans few
      calc (1 + 1 / 2 ^ 45 : ℚ) ^ (n + 1) = (1 + 1 / 2 ^ 45) ^ n * (1 + 1 / 2 ^ 45) := pow_succ _ n
        _ ≤ (1 + n / 2 ^ 44) * (1 + 1 / 2 ^ 45) :=
          mul_le_mul_of_nonneg_right (ih ((Nat.le_succ n).trans few)) (by norm_num)
        _ ≤ 1 + (n + 1 : ℕ) / 2 ^ 44 := by
          push_cast
          linarith
  have small : (n : ℚ) ≤ 2 ^ 40 := by exact_mod_cast few
  linarith

/-- How the bound grows with one more gesture: with their number, and with the zoom. -/
theorem grown_le {n drawn rounding growth : ℚ} (reach_nonneg : 0 ≤ reach) (drawn_ge : 1 ≤ drawn)
    (rounding_ge : 1 ≤ rounding) (growth_ge : 1 ≤ growth) :
    (1 + 1 / 2 ^ 45) * (growth * (2 * reach + 2 * reach * n * drawn * rounding)) ≤
      2 * reach * (n + 1) * (growth * drawn) * (rounding * (1 + 1 / 2 ^ 45)) := by
  have one_le : 1 ≤ drawn * rounding := one_le_mul_of_one_le_of_one_le drawn_ge rounding_ge
  have factor : 0 ≤ (1 + 1 / 2 ^ 45) * growth * (2 * reach) := by positivity
  calc (1 + 1 / 2 ^ 45) * (growth * (2 * reach + 2 * reach * n * drawn * rounding))
      = (1 + 1 / 2 ^ 45) * growth * (2 * reach) * (1 + n * (drawn * rounding)) := by ring
    _ ≤ (1 + 1 / 2 ^ 45) * growth * (2 * reach) * (drawn * rounding + n * (drawn * rounding)) :=
      mul_le_mul_of_nonneg_left (add_le_add_left one_le _) factor
    _ = 2 * reach * (n + 1) * (growth * drawn) * (rounding * (1 + 1 / 2 ^ 45)) := by ring

/-- Room for all gestures is room for those before the last one, and for the last one. -/
theorem room_le {n drawn rounding growth : ℚ} (reach_nonneg : 0 ≤ reach) (n_nonneg : 0 ≤ n)
    (drawn_ge : 1 ≤ drawn) (rounding_le : rounding ≤ 2) (growth_ge : 1 ≤ growth)
    (room : 64 * ((n + 1) * (growth * drawn) * reach) ≤ overflow) :
    64 * (n * drawn * reach) ≤ overflow ∧
      8 * (growth * (2 * reach + 2 * reach * n * drawn * rounding)) ≤ overflow := by
  have drawn_nonneg : 0 ≤ drawn := zero_le_one.trans drawn_ge
  have growth_nonneg : 0 ≤ growth := zero_le_one.trans growth_ge
  have all_nonneg : 0 ≤ (n + 1) * (growth * drawn) * reach := by positivity
  constructor
  · have fewer : n * drawn * reach ≤ (n + 1) * (growth * drawn) * reach :=
      mul_le_mul_of_nonneg_right
        (mul_le_mul (by linarith) (le_mul_of_one_le_left drawn_nonneg growth_ge) drawn_nonneg
          (by linarith)) reach_nonneg
    linarith
  · -- what the gestures before have used up is at most doubled by its roundings
    have reach_le : reach ≤ drawn * reach := le_mul_of_one_le_left reach_nonneg drawn_ge
    have rest_le : n * drawn * reach * rounding ≤ n * drawn * reach * 2 :=
      mul_le_mul_of_nonneg_left rounding_le (by positivity)
    have sum_le : 2 * reach + 2 * reach * n * drawn * rounding ≤ 4 * ((n + 1) * drawn * reach) := by
      linarith
    have grown := mul_le_mul_of_nonneg_left sum_le growth_nonneg
    linarith

/-- The bound grows with the number of gestures, and as many times as the view is zoomed in. -/
protected theorem handleAll [TargetSet σ κ Float] (inReach : navigator.InReach 0)
    (zooms : navigator.ZoomsUpTo zoom) (targets : σ) {gestures : List (Gesture Float)}
    (near : ∀ g ∈ gestures, ∀ point, g.point? = some point → point.isFinite →
      point.HasBound reach)
    (one_le : 1 ≤ reach) (few : gestures.length ≤ 2 ^ 40)
    (room : 64 * (gestures.length * zoom ^ gestures.countP Gesture.zoomsIn * reach) ≤ overflow) :
    (navigator.handleAll targets gestures).1.InReach
      (2 * reach * gestures.length * zoom ^ gestures.countP Gesture.zoomsIn *
        (1 + 1 / 2 ^ 45) ^ gestures.length) := by
  have one_le_zoom : 1 ≤ zoom := by
    obtain ⟨z, -, one_le_z, z_le⟩ := zooms
    exact one_le_z.trans z_le
  have reach_nonneg : 0 ≤ reach := zero_le_one.trans one_le
  -- from the right: the bound is one for all gestures so far, and the last one adds to it
  induction gestures using List.reverseRecOn with
  | nil => exact inReach.mono (by simp)
  | append_singleton rest gesture ih =>
    have length : ((rest ++ [gesture]).length : ℚ) = rest.length + 1 := by simp
    have drawn : zoom ^ (rest ++ [gesture]).countP Gesture.zoomsIn =
        gesture.growth zoom * zoom ^ rest.countP Gesture.zoomsIn := by
      rw [List.countP_append, pow_add, mul_comm, Gesture.growth]
      cases inwards : gesture.zoomsIn with
      | true => simp [inwards]
      | false => simp [inwards]
    have drawn_ge : 1 ≤ zoom ^ rest.countP Gesture.zoomsIn := one_le_pow₀ one_le_zoom
    have growth_ge := gesture.one_le_growth one_le_zoom
    rw [List.length_append, List.length_singleton] at few
    have few' : rest.length ≤ 2 ^ 40 := (Nat.le_succ _).trans few
    rw [length, drawn] at room
    obtain ⟨room_before, room_last⟩ := room_le reach_nonneg (Nat.cast_nonneg _) drawn_ge
      (pow_le_two few') growth_ge room
    have before := ih (fun g member => near g (List.mem_append_left _ member)) few' room_before
    have zooms' : (navigator.handleAll targets rest).1.ZoomsUpTo zoom := by
      rw [ZoomsUpTo, zoomStep_handleAll]
      exact zooms
    rw [handleAll_snoc, length, drawn, List.length_append, List.length_singleton,
      pow_succ (1 + 1 / 2 ^ 45 : ℚ)]
    exact (before.step zooms' (near gesture (by simp)) one_le room_last).mono
      (grown_le reach_nonneg drawn_ge (one_le_pow₀ (by norm_num)) growth_ge)

end InReach

/-- The view is lost by overflow only, and for good. After up to `2 ^ 40` gestures of a navigator
from its start, at points that are not finite or within `reach` pixels, of which `w` zoom in by a
factor up to `zoom`, the offset is finite and within four times the product of their number, `reach`
and the `w`-th power of `zoom`, as long as this is far from the greatest double. If the offset is
not finite, then whatever comes later leaves the view and the targets as they are, and there is no
point of the screen that shows a point of the world. -/
theorem view_lost_only_by_overflow [TargetSet σ κ Float] (keys : List κ) (zoomStep : Float)
    (targets : σ) (gestures : List (Gesture Float)) :
    let fresh : Navigator κ Float := (start keys).withZoomStep zoomStep
    let after := fresh.handleAll targets gestures
    (∀ zoom reach : ℚ,
      let spread := gestures.length * zoom ^ gestures.countP Gesture.zoomsIn * reach
      HasBound zoom fresh.zoomStep → 1 ≤ reach →
      (∀ g ∈ gestures, ∀ point, g.point? = some point → point.isFinite → point.HasBound reach) →
      gestures.length ≤ 2 ^ 40 → spread ≤ 2 ^ 1018 →
        after.1.view.offset.isFinite ∧ after.1.view.offset.HasBound (4 * spread)) ∧
    (¬after.1.view.offset.isFinite → ∀ later,
      let last := after.1.handleAll after.2 later
      last.1.view = after.1.view ∧ last.2 = after.2 ∧
        ∀ point, ¬(last.1.view.toLocal point).isFinite) := by
  intro fresh after
  have inReach : fresh.InReach 0 := .start zoomStep
  constructor
  · intro zoom reach spread most one_le near few room
    have zooms : fresh.ZoomsUpTo zoom := zoomsUpTo_withZoomStep most
    have one_le_zoom : 1 ≤ zoom := by
      obtain ⟨z, -, one_le_z, z_le⟩ := zooms
      exact one_le_z.trans z_le
    have spread_nonneg : 0 ≤ spread :=
      mul_nonneg (mul_nonneg (Nat.cast_nonneg _) (pow_nonneg (zero_le_one.trans one_le_zoom) _))
        (zero_le_one.trans one_le)
    have room : 64 * spread ≤ overflow := by
      have top : 64 * 2 ^ 1018 = overflow := by
        rw [overflow, show (1024 : ℤ) = 6 + (1018 : ℕ) by norm_num, zpow_add₀ two_ne_zero,
          zpow_natCast]
        norm_num
      rw [← top]
      exact mul_le_mul_of_nonneg_left room (by norm_num)
    have last := (inReach.handleAll zooms targets near one_le few room).offset
    refine ⟨last.isFinite, last.mono ?_⟩
    calc 2 * reach * gestures.length * zoom ^ gestures.countP Gesture.zoomsIn *
          (1 + 1 / 2 ^ 45) ^ gestures.length
        = 2 * spread * (1 + 1 / 2 ^ 45) ^ gestures.length := by ring
      _ ≤ 2 * spread * 2 :=
        mul_le_mul_of_nonneg_left (InReach.pow_le_two few) (mul_nonneg zero_le_two spread_nonneg)
      _ = 4 * spread := by ring
  · intro lost later last
    have good : after.1.view.HasGoodScale := inReach.scale.handleAll targets gestures
    obtain ⟨view, kept⟩ := handleAll_of_lost good lost after.2 later
    refine ⟨view, kept, ?_⟩
    intro point finite
    -- a point of the world under some pixel would need an offset that is finite
    rw [show last.1.view = after.1.view from view] at finite
    exact lost (good.isFinite_of_toLocal finite).2

/-- A notch, a press and a movement at the standard zoom factor leave the offset finite and within
some thousand pixels. With a zoom factor of `10 ^ 307` the notch loses the view, and no gesture
brings it back. -/
theorem notch_keeps_or_loses_view :
    let at_ (x y : Float) : Vec2 Float := ⟨x, y⟩
    let scene : Scene Float := .start .standard
    let notch : Gesture Float := .wheel (at_ 100.0 100.0) (-1.0)
    let gestures := [notch, .press (at_ 10.0 10.0), .move (at_ 300.0 20.0)]
    let fresh (zoomStep : Float) : Navigator LayerId Float :=
      (start LayerId.world).withZoomStep zoomStep
    let great : Float := 1e307
    let kept := (fresh 1.1).handleAll scene gestures
    let lost := (fresh great).handleAll scene [notch]
    (kept.1.view.offset.isFinite ∧ kept.1.view.offset.HasBound (4 * (3 * 2 ^ 1 * 2 ^ 9))) ∧
      ¬lost.1.view.offset.isFinite ∧
      (lost.1.handleAll lost.2 gestures).1.view = lost.1.view := by
  intro at_ scene notch gestures fresh great kept lost
  have near : ∀ g ∈ gestures, ∀ point, g.point? = some point → point.isFinite →
      point.HasBound (2 ^ 9) := by
    intro g member point isPoint _
    have within (x : Float)
        (check : (Dyadic.ofFloat? x).any fun d => d.numerator ≤ 2 ^ 9 * d.denominator) :
        HasBound (2 ^ 9) x := IsWithin.of_check check
    simp only [gestures, List.mem_cons, List.not_mem_nil, or_false] at member
    rcases member with rfl | rfl | rfl
    · cases isPoint
      exact ⟨within 100.0 (by decide +kernel), within 100.0 (by decide +kernel)⟩
    · cases isPoint
      exact ⟨within 10.0 (by decide +kernel), within 10.0 (by decide +kernel)⟩
    · cases isPoint
      exact ⟨within 300.0 (by decide +kernel), within 20.0 (by decide +kernel)⟩
  have most : HasBound (2 ^ 1) (fresh 1.1).zoomStep := IsWithin.of_check (by decide +kernel)
  have spread : (gestures.length : ℚ) * (2 ^ 1) ^ gestures.countP Gesture.zoomsIn * 2 ^ 9 =
      3 * 2 ^ 1 * 2 ^ 9 := by
    have notches : gestures.countP Gesture.zoomsIn = 1 := by decide +kernel
    rw [notches]
    norm_num [gestures]
  have isLost : ¬lost.1.view.offset.isFinite := by decide +kernel
  have safe := (view_lost_only_by_overflow LayerId.world 1.1 scene gestures).1 (2 ^ 1) (2 ^ 9)
    most (by norm_num) near (by decide)
  rw [spread] at safe
  have room : (3 : ℚ) * 2 ^ 1 * 2 ^ 9 ≤ 2 ^ 1018 :=
    calc (3 : ℚ) * 2 ^ 1 * 2 ^ 9 ≤ 2 ^ 12 := by norm_num
      _ ≤ 2 ^ 1018 := pow_le_pow_right₀ one_le_two (by norm_num)
  -- from here on it does not matter which factor it was
  clear_value great
  have gone := (view_lost_only_by_overflow LayerId.world great scene [notch]).2 isLost gestures
  exact ⟨safe room, isLost, gone.1⟩

/-- One notch inwards at an ordinary point, with a zoom factor that is accepted, loses the offset;
then a movement of a point that was taken hold of does nothing. With the standard zoom factor a
notch at a point near the greatest double does so. -/
theorem notch_loses_view :
    let at_ (x y : Float) : Vec2 Float := ⟨x, y⟩
    let settings : Settings Float := ⟨1e307, none⟩
    let fresh (zoomStep : Float) : Navigator LayerId Float :=
      (start LayerId.world).withZoomStep zoomStep
    let lost := ((fresh settings.zoomStep).step (.wheel (at_ 100.0 100.0) (-1.0))).1
    settings.validate = .ok () ∧ ¬lost.view.offset.isFinite ∧
      ((lost.step (.press (at_ 0.0 0.0))).1.step (.move (at_ 10.0 0.0))).2 = false ∧
      (at_ 1.7e308 0.0).isFinite ∧
      ¬((fresh 1.1).step (.wheel (at_ 1.7e308 0.0) (-1.0))).1.view.offset.isFinite := by
  intro at_ settings fresh lost
  refine ⟨?_, by decide +kernel, by decide +kernel, by decide +kernel, by decide +kernel⟩
  rw [Settings.validate, if_neg (by decide +kernel)]

end Navigator

end DeadReckoning
