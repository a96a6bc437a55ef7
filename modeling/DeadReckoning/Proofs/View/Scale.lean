import DeadReckoning.Proofs.Binary64.Values
import DeadReckoning.Proofs.View.Hold

namespace DeadReckoning

/-!
# The scale of the view — a positive number, the same on both axes

Every point of the screen is divided by the scale, so that a scale of zero or one that is not a
number could never be mended. A zoom that would lead to such a scale is refused and leaves the view
as it was. So the scale stays good on doubles too, with NaN and infinities among the gestures.

* `Viewport.CanZoom` — what a zoom needs; `zoomAbout_of_canZoom`, `zoomAbout_of_not_canZoom`
* `Viewport.Change`, `Viewport.changeAll` — pans and zooms, one after the other
* `isGoodScale_double_iff` — a good scale of doubles is finite and above zero on both axes
* `Viewport.HasGoodScale` — what holds of the scale at all times; `HasGoodScale.change`,
  `HasGoodScale.step` and their runs
* `scale_never_degenerates` — all of it for a view and a navigator from their start
-/

theorem Vec2.isFinite_double_iff (v : Vec2 Float) : v.isFinite ↔ v.x.isFinite ∧ v.y.isFinite := by
  rw [Vec2.isFinite, Bool.and_eq_true]
  rfl

namespace Viewport

section Zooms

variable {α : Type} [Scalar α] {view : Viewport α} {pivot : Vec2 α} {factor : α}

/-! ### What a zoom needs -/

/-- The factor, the fixed point and the scale that comes of the zoom are numbers, and factor and
scale are above zero. -/
structure CanZoom (view : Viewport α) (pivot : Vec2 α) (factor : α) : Prop where
  factor_finite : Scalar.isFinite factor
  factor_pos : ¬factor ≤ 0.0
  pivot_finite : pivot.isFinite
  scale_good : isGoodScale (view.scale.scaleBy factor)

/-- With all that it needs a zoom is made. -/
theorem zoomAbout_of_canZoom (can : view.CanZoom pivot factor) :
    view.zoomAbout pivot factor =
      .ok ({ view.pan pivot with scale := view.scale.scaleBy factor }.pan (-pivot)) := by
  unfold zoomAbout
  rw [if_neg (by simp [can.factor_finite, can.factor_pos]), if_neg (by simp [can.pivot_finite])]
  dsimp only
  rw [if_neg (by simp [can.scale_good])]

/-- Without it a zoom is refused. -/
theorem zoomAbout_of_not_canZoom (cannot : ¬view.CanZoom pivot factor) :
    ∃ e, view.zoomAbout pivot factor = .error e := by
  unfold zoomAbout
  split
  next => exact ⟨_, rfl⟩
  next factor_good =>
    split
    next => exact ⟨_, rfl⟩
    next pivot_good =>
      dsimp only
      split
      next => exact ⟨_, rfl⟩
      next scale_good =>
        simp only [Bool.or_eq_true, Bool.not_eq_true', decide_eq_true_eq, not_or,
          Bool.not_eq_false] at factor_good pivot_good scale_good
        exact absurd ⟨factor_good.1, factor_good.2, pivot_good, scale_good⟩ cannot

/-! ### Pans and zooms one after the other -/

/-- A change of the view. -/
inductive Change (α : Type) where
  | pan (displacement : Vec2 α)
  | zoom (pivot : Vec2 α) (factor : α)

/-- The view after a change, and why it was refused if it was. What is refused leaves the view as it
is. -/
def change (view : Viewport α) : Change α → Viewport α × Option (ZoomError α)
  | .pan displacement => (view.pan displacement, none)
  | .zoom pivot factor =>
    match view.zoomAbout pivot factor with
    | .ok zoomed => (zoomed, none)
    | .error e => (view, some e)

/-- The view after several changes. -/
def changeAll (view : Viewport α) (changes : List (Change α)) : Viewport α :=
  changes.foldl (fun view c => (view.change c).1) view

/-- A zoom is refused if and only if one of its conditions fails. -/
theorem refused_iff :
    (view.change (.zoom pivot factor)).2.isSome ↔ ¬view.CanZoom pivot factor := by
  rw [change]
  by_cases can : view.CanZoom pivot factor
  · rw [zoomAbout_of_canZoom can]
    simp [can]
  · obtain ⟨e, refused⟩ := zoomAbout_of_not_canZoom can
    rw [refused]
    simp [can]

/-- A zoom that is refused leaves the view as it is. -/
theorem change_of_refused (refused : (view.change (.zoom pivot factor)).2.isSome) :
    (view.change (.zoom pivot factor)).1 = view := by
  obtain ⟨e, isError⟩ := zoomAbout_of_not_canZoom (refused_iff.mp refused)
  rw [change, isError]

end Zooms

/-! ### Good scales of doubles -/

open Binary64 in
/-- The lesser of two finite doubles is above zero if both are. -/
theorem smaller_le_zero_iff {x y : Float} (hx : x.isFinite) (hy : y.isFinite) :
    Scalar.smaller x y ≤ 0.0 ↔ x ≤ 0.0 ∨ y ≤ 0.0 := by
  obtain ⟨p, px⟩ := isFinite_iff_exists_isValue.mp hx
  obtain ⟨q, qy⟩ := isFinite_iff_exists_isValue.mp hy
  have zero : IsValue (0.0 : Float) 0 := .zero unpack_zero
  have number : (y == y) = true := by
    show Float.Model.UnpackedFloat.beq y.toModel.unpack y.toModel.unpack = true
    simp [Float.Model.UnpackedFloat.beq, qy.compare_eq qy]
  rw [px.le_iff zero, qy.le_iff zero, Scalar.smaller]
  by_cases ordered : x ≤ y
  · rw [if_pos ordered, px.le_iff zero]
    exact ⟨.inl, fun low => low.elim id ((px.le_iff qy).mp ordered).trans⟩
  · have reversed := (not_le.mp (mt (px.le_iff qy).mpr ordered)).le
    rw [if_neg ordered, if_pos number, qy.le_iff zero]
    exact ⟨.inr, fun low => low.elim reversed.trans id⟩

/-- A good scale is finite and above zero on both axes. -/
theorem isGoodScale_double_iff (scale : Vec2 Float) :
    isGoodScale scale ↔
      (scale.x.isFinite ∧ ¬scale.x ≤ 0.0) ∧ (scale.y.isFinite ∧ ¬scale.y ≤ 0.0) := by
  rw [isGoodScale, Bool.and_eq_true, Bool.not_eq_true', decide_eq_false_iff_not, Vec2.isFinite,
    Bool.and_eq_true]
  constructor
  · rintro ⟨⟨x, y⟩, least⟩
    rw [Vec2.smallest, smaller_le_zero_iff x y, not_or] at least
    exact ⟨⟨x, least.1⟩, y, least.2⟩
  · rintro ⟨⟨x, x_pos⟩, y, y_pos⟩
    refine ⟨⟨x, y⟩, ?_⟩
    rw [Vec2.smallest, smaller_le_zero_iff x y, not_or]
    exact ⟨x_pos, y_pos⟩

/-! ### The scale at all times -/

/-- The scale is finite and above zero on both axes, and the same on both. -/
structure HasGoodScale (view : Viewport Float) : Prop where
  finite : view.scale.x.isFinite ∧ view.scale.y.isFinite
  pos : 0.0 < view.scale.x ∧ 0.0 < view.scale.y
  uniform : view.scale.x = view.scale.y

namespace HasGoodScale

variable {view : Viewport Float}

/-- The scale is one at the start. -/
theorem start : (Viewport.start : Viewport Float).HasGoodScale where
  finite := by decide +kernel
  pos := by decide +kernel
  uniform := rfl

/-- Panning does not zoom. -/
protected theorem pan (good : view.HasGoodScale) (displacement : Vec2 Float) :
    (view.pan displacement).HasGoodScale := ⟨good.finite, good.pos, good.uniform⟩

/-- A zoom that is not refused was found to lead to a good scale, and it multiplies both axes by the
same factor. -/
protected theorem zoomAbout (good : view.HasGoodScale) {pivot : Vec2 Float} {factor : Float}
    {zoomed : Viewport Float} (ok : view.zoomAbout pivot factor = .ok zoomed) :
    zoomed.HasGoodScale := by
  by_cases can : view.CanZoom pivot factor
  · rw [zoomAbout_of_canZoom can, Except.ok.injEq] at ok
    obtain ⟨⟨x, x_pos⟩, y, y_pos⟩ := (isGoodScale_double_iff _).mp can.scale_good
    rw [← ok]
    exact ⟨⟨x, y⟩, ⟨(Binary64.not_le_zero_iff x).mp x_pos, (Binary64.not_le_zero_iff y).mp y_pos⟩,
      congrArg (· * factor) good.uniform⟩
  · obtain ⟨e, refused⟩ := zoomAbout_of_not_canZoom can
    rw [refused] at ok
    cases ok

/-- No change spoils the scale, be it panning or a zoom. -/
protected theorem change (good : view.HasGoodScale) (c : Change Float) :
    (view.change c).1.HasGoodScale := by
  cases c with
  | pan displacement => exact good.pan displacement
  | zoom pivot factor =>
    rw [Viewport.change]
    cases zoomed : view.zoomAbout pivot factor with
    | ok other => exact good.zoomAbout zoomed
    | error e => exact good

protected theorem changeAll (good : view.HasGoodScale) (changes : List (Change Float)) :
    (view.changeAll changes).HasGoodScale := by
  induction changes generalizing view with
  | nil => exact good
  | cons c rest ih => exact ih (good.change c)

variable {κ σ : Type} {navigator : Navigator κ Float}

/-- A gesture pans, zooms or leaves the view alone. -/
protected theorem step (good : navigator.view.HasGoodScale) (gesture : Gesture Float) :
    (navigator.step gesture).1.view.HasGoodScale := by
  cases gesture with
  | move goal | touchMove goal =>
    rcases navigator.dragTo_cases goal with still | ⟨anchor, _, moved⟩
    · rw [Navigator.step, still]
      exact good
    · rw [Navigator.step, moved]
      exact good.pan _
  | wheel point amount =>
    rcases navigator.zoomAt_cases point amount with still | ⟨factor, view, ok, zoomed⟩
    · rw [Navigator.step, still]
      exact good
    · rw [Navigator.step, zoomed]
      exact good.zoomAbout ok
  | touch point =>
    rw [Navigator.step]
    split
    · exact good
    · exact good
  | press _ | release | touchEnd | cancel => exact good

/-- Gestures do not spoil the scale either. -/
protected theorem handleAll [TargetSet σ κ Float] (good : navigator.view.HasGoodScale)
    (targets : σ) (gestures : List (Gesture Float)) :
    (navigator.handleAll targets gestures).1.view.HasGoodScale := by
  induction gestures generalizing navigator targets with
  | nil => exact good
  | cons gesture rest ih => exact ih (good.step gesture) _

end HasGoodScale

/-- The conditions of a zoom on doubles, one by one. -/
theorem canZoom_iff (view : Viewport Float) (pivot : Vec2 Float) (factor : Float) :
    view.CanZoom pivot factor ↔
      (factor.isFinite ∧ ¬factor ≤ 0.0) ∧ (pivot.x.isFinite ∧ pivot.y.isFinite) ∧
        ((view.scale.x * factor).isFinite ∧ ¬view.scale.x * factor ≤ 0.0) ∧
        ((view.scale.y * factor).isFinite ∧ ¬view.scale.y * factor ≤ 0.0) := by
  have pivot_finite := pivot.isFinite_double_iff
  have scale_good := isGoodScale_double_iff (view.scale.scaleBy factor)
  constructor
  · rintro ⟨finite, pos, pivot_ok, scale_ok⟩
    exact ⟨⟨finite, pos⟩, pivot_finite.mp pivot_ok, scale_good.mp scale_ok⟩
  · rintro ⟨⟨finite, pos⟩, pivot_ok, scale_ok⟩
    exact ⟨finite, pos, pivot_finite.mpr pivot_ok, scale_good.mpr scale_ok⟩

/-- The scale of the view never degenerates. Whatever the user does with a navigator from its start,
of any zoom factor, and however a view from its start is panned and zoomed, with numbers of any
kind: the scale is finite, above zero and the same on both axes. A zoom that is refused leaves the
view as it is, and one is refused if the factor is not finite and above zero, the fixed point is not
finite, or the scale would not be finite and above zero on both axes, and only then. -/
theorem scale_never_degenerates :
    (∀ {κ σ : Type} [TargetSet σ κ Float] (keys : List κ) (zoomStep : Float) (targets : σ)
      (gestures : List (Gesture Float)),
      (((Navigator.start keys).withZoomStep zoomStep).handleAll targets
        gestures).1.view.HasGoodScale) ∧
    (∀ changes : List (Change Float), (Viewport.start.changeAll changes).HasGoodScale) ∧
    ∀ (view : Viewport Float) (pivot : Vec2 Float) (factor : Float),
      let zoomed := view.change (.zoom pivot factor)
      (zoomed.2.isSome → zoomed.1 = view) ∧
      (zoomed.2.isSome ↔
        (¬factor.isFinite ∨ factor ≤ 0.0) ∨ (¬pivot.x.isFinite ∨ ¬pivot.y.isFinite) ∨
        (¬(view.scale.x * factor).isFinite ∨ view.scale.x * factor ≤ 0.0) ∨
        (¬(view.scale.y * factor).isFinite ∨ view.scale.y * factor ≤ 0.0)) := by
  refine ⟨?_, HasGoodScale.start.changeAll, ?_⟩
  · intro κ σ _ keys zoomStep targets gestures
    obtain ⟨other, same⟩ := (Navigator.start keys : Navigator κ Float).withZoomStep_cases zoomStep
    rw [same]
    exact HasGoodScale.start.handleAll targets gestures
  · intro view pivot factor zoomed
    refine ⟨change_of_refused, ?_⟩
    rw [refused_iff, canZoom_iff]
    simp only [not_and_or, not_not]

end Viewport

end DeadReckoning
