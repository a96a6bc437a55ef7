import DeadReckoning.Proofs.View.Scale
import Mathlib.Tactic.FieldSimp
import Mathlib.Tactic.Ring

namespace DeadReckoning

/-!
# Notches of the wheel — in and out at one point of the screen

A notch stretches the view about the pointer, inwards by the zoom factor and outwards by one over
it. Each notch looks up anew which point of the world is under the pointer; without rounding it is
the same one every time. So the order of the notches is of no account, only how many more go in
than out.

* `Viewport.stretch` — a view stretched about a point of the screen; `stretch_stretch`,
  `stretch_one`
* `Proper.zoomAbout_toLocal` — a zoom about what is under the pointer stretches the view there
* `Navigator.balance` — how many more notches go in than out
* `zoomAt_eq`, `handleAll_wheel` — one notch and a run of them
* `notches_depend_on_balance` — all of it for a navigator from its start
-/

namespace Viewport

/-- The view stretched by a factor, with what it shows at `point` left where it is. -/
def stretch {α : Type} [Scalar α] (view : Viewport α) (point : Vec2 α) (factor : α) :
    Viewport α where
  scale := view.scale.scaleBy factor
  offset := point + (view.offset - point).scaleBy factor

variable {i : Irrational} (view : Viewport (Exact i)) (point : Vec2 (Exact i))

theorem stretch_one : view.stretch point ⟨1⟩ = view := by
  have axis (p o : ℚ) : p + (o - p) * 1 = o := by ring
  obtain ⟨scale, offset⟩ := view
  rw [stretch, Viewport.mk.injEq]
  exact ⟨Vec2.ext_value (mul_one _) (mul_one _), Vec2.ext_value (axis _ _) (axis _ _)⟩

/-- One stretch after the other is a stretch by both factors. -/
theorem stretch_stretch (j k : Exact i) :
    (view.stretch point j).stretch point k = view.stretch point (j * k) := by
  have axis (p o a b : ℚ) : p + (p + (o - p) * a - p) * b = p + (o - p) * (a * b) := by ring
  rw [stretch, stretch, stretch, Viewport.mk.injEq]
  exact ⟨Vec2.ext_value (mul_assoc _ _ _) (mul_assoc _ _ _),
    Vec2.ext_value (axis _ _ _ _) (axis _ _ _ _)⟩

variable {view} {factor : Exact i}

namespace Proper

/-- A positive factor keeps a view proper. -/
protected theorem stretch (proper : view.Proper) (pos : 0 < factor.value) :
    (view.stretch point factor).Proper :=
  ⟨mul_pos proper.x pos, mul_pos proper.y pos⟩

/-- What appears at a point of the screen is found under it. -/
theorem toLocal_toGlobal (proper : view.Proper) (world : Vec2 (Exact i)) :
    view.toLocal (view.toGlobal world) = world := by
  have axis (w s o : ℚ) (pos : 0 < s) : (w * s + o - o) / s = w := by
    rw [add_sub_cancel_right, mul_div_cancel_right₀ w pos.ne']
  exact Vec2.ext_value (axis _ _ _ proper.x) (axis _ _ _ proper.y)

/-- A stretch leaves the point of the world that is under its point of the screen. -/
theorem toLocal_stretch (proper : view.Proper) (pos : 0 < factor.value) :
    (view.stretch point factor).toLocal point = view.toLocal point := by
  have axis (p o s k : ℚ) (scale : 0 < s) (pos : 0 < k) :
      (p - (p + (o - p) * k)) / (s * k) = (p - o) / s := by
    field_simp
    ring
  exact Vec2.ext_value (axis _ _ _ _ proper.x pos) (axis _ _ _ _ proper.y pos)

/-- A zoom about what is under the pointer is not refused, and stretches the view there. -/
theorem zoomAbout_toLocal (proper : view.Proper) (pos : 0 < factor.value) :
    view.zoomAbout (view.toLocal point) factor = .ok (view.stretch point factor) := by
  have can : view.CanZoom (view.toLocal point) factor :=
    { factor_finite := rfl
      factor_pos := by rwa [Exact.le_iff, Exact.value_zero, not_le]
      pivot_finite := rfl
      scale_good := (isGoodScale_iff _).mpr ⟨mul_pos proper.x pos, mul_pos proper.y pos⟩ }
  have axis (p o s k : ℚ) (scale : 0 < s) :
      o + s * ((p - o) / s) + s * k * -((p - o) / s) = p + (o - p) * k := by
    field_simp
    ring
  -- no guard refuses the zoom; what is left is the arithmetic of its two pans, axis by axis
  rw [zoomAbout_of_canZoom can, Except.ok.injEq, stretch, pan, Viewport.mk.injEq]
  exact ⟨rfl, Vec2.ext_value (axis _ _ _ _ proper.x) (axis _ _ _ _ proper.y)⟩

end Proper

end Viewport

namespace Navigator

/-- How many more of the given turns of the wheel zoom in than out. -/
def balance {α : Type} [Scalar α] (amounts : List α) : ℤ :=
  amounts.countP (fun amount => amount < 0.0) - amounts.countP (fun amount => 0.0 < amount)

section Exact

variable {κ σ : Type} {i : Irrational} {navigator : Navigator κ (Exact i)}

/-- The balance of notches is that of the first and that of the others. -/
theorem balance_cons (amount : Exact i) (rest : List (Exact i)) :
    balance (amount :: rest) = balance [amount] + balance rest := by
  simp only [balance, List.countP_cons, List.countP_nil]
  push_cast
  ring

/-- The zoom factor that is in use: the one given if it is above one, else the standard one. -/
theorem zoomStep_withZoomStep (keys : List κ) (zoomStep : Exact i) :
    ((start keys).withZoomStep zoomStep).zoomStep.value =
      if 1 < zoomStep.value then zoomStep.value else 11 / 10 := by
  have standard : (defaultZoomStep : Exact i).value = 11 / 10 := by
    show (1.1 : ℚ) = 11 / 10
    norm_num
  have above : (1.0 : Exact i) < zoomStep ↔ 1 < zoomStep.value := by
    rw [Exact.lt_iff, Exact.value_one]
  rw [withZoomStep, Exact.isFinite_eq, Bool.true_and]
  by_cases great : 1 < zoomStep.value
  · rw [if_pos great, if_pos (decide_eq_true (above.mpr great))]
  · rw [if_neg great, if_neg (by simpa [above] using great)]
    exact standard

/-- A notch stretches the view about the pointer by the zoom factor, inwards or outwards. -/
theorem zoomAt_eq (proper : navigator.view.Proper) (pos : 0 < navigator.zoomStep.value)
    (point : Vec2 (Exact i)) (amount : Exact i) :
    (navigator.zoomAt point amount).1 =
      { navigator with
        view := navigator.view.stretch point ⟨navigator.zoomStep.value ^ balance [amount]⟩ } := by
  unfold zoomAt zoomFactor?
  -- the sign of the amount decides between the factor, none and its inverse
  rcases lt_trichotomy amount.value 0 with inwards | still | outwards
  · have below : amount < 0.0 := by rwa [Exact.lt_iff, Exact.value_zero]
    have above : ¬0.0 < amount := by
      rw [Exact.lt_iff, Exact.value_zero]
      exact inwards.not_gt
    rw [if_pos below]
    dsimp only
    rw [proper.zoomAbout_toLocal point pos]
    simp [balance, below, above]
  · have below : ¬amount < 0.0 := by
      rw [Exact.lt_iff, Exact.value_zero]
      exact still.not_lt
    have above : ¬0.0 < amount := by
      rw [Exact.lt_iff, Exact.value_zero]
      exact still.not_gt
    rw [if_neg below, if_neg above]
    simp [balance, below, above, Viewport.stretch_one]
  · have below : ¬amount < 0.0 := by
      rw [Exact.lt_iff, Exact.value_zero]
      exact outwards.not_gt
    have above : 0.0 < amount := by rwa [Exact.lt_iff, Exact.value_zero]
    have factor : (1.0 / navigator.zoomStep : Exact i) = ⟨navigator.zoomStep.value ^ (-1 : ℤ)⟩ := by
      refine Exact.ext ?_
      rw [Exact.value_div, Exact.value_one, one_div, zpow_neg_one]
    rw [if_neg below, if_pos above]
    dsimp only
    rw [factor, proper.zoomAbout_toLocal point (zpow_pos pos _)]
    simp [balance, below, above]

variable [TargetSet σ κ (Exact i)]

/-- Notches at one point stretch the view there by as many factors as go in more than out. -/
theorem handleAll_wheel (proper : navigator.view.Proper) (pos : 0 < navigator.zoomStep.value)
    (targets : σ) (point : Vec2 (Exact i)) (amounts : List (Exact i)) :
    (navigator.handleAll targets (amounts.map (.wheel point ·))).1 =
      { navigator with
        view := navigator.view.stretch point ⟨navigator.zoomStep.value ^ balance amounts⟩ } := by
  induction amounts generalizing navigator targets with
  | nil =>
    show navigator = { navigator with view := navigator.view.stretch point ⟨_ ^ (0 : ℤ)⟩ }
    rw [zpow_zero, Viewport.stretch_one]
  | cons amount rest ih =>
    have stretched := zoomAt_eq proper pos point amount
    have proper' : (navigator.zoomAt point amount).1.view.Proper := by
      rw [stretched]
      exact proper.stretch point (zpow_pos pos _)
    have pos' : 0 < (navigator.zoomAt point amount).1.zoomStep.value := by
      rw [stretched]
      exact pos
    rw [List.map_cons, handleAll_cons, step, ih proper' pos', stretched, balance_cons amount rest]
    -- two stretches about the same point: the one of the first notch and the one of the rest
    dsimp only
    rw [Viewport.stretch_stretch, zpow_add₀ pos.ne']
    rfl

/-- Notches of the wheel at one point of the screen depend on their balance only. From any state
that a navigator can come to, after turns of the wheel at one point, of which `n` more go in than
out, the scale is multiplied by the `n`-th power of the zoom factor, and the point of the world that
was under the pointer is still there; screen and world are mapped to each other as before. Turns of
the same balance lead to the same view, and those of balance zero to the view as it was. -/
theorem notches_depend_on_balance (keys : List κ) (zoomStep : Exact i) (targets : σ)
    (earlier : List (Gesture (Exact i))) (point : Vec2 (Exact i)) :
    let before := ((start keys).withZoomStep zoomStep).handleAll targets earlier
    let view := before.1.view
    let factor := before.1.zoomStep.value
    let after (amounts : List (Exact i)) :=
      (before.1.handleAll before.2 (amounts.map (.wheel point ·))).1.view
    (factor = if 1 < zoomStep.value then zoomStep.value else 11 / 10) ∧
    (∀ amounts,
      let inwards := amounts.countP fun amount => amount < 0.0
      let outwards := amounts.countP fun amount => 0.0 < amount
      let zoomed := factor ^ ((inwards : ℤ) - outwards)
      (after amounts).scale.x.value = view.scale.x.value * zoomed ∧
      (after amounts).scale.y.value = view.scale.y.value * zoomed ∧
      (after amounts).toGlobal (view.toLocal point) = point ∧
      (∀ world, (after amounts).toLocal ((after amounts).toGlobal world) = world) ∧
      ∀ screen, (after amounts).toGlobal ((after amounts).toLocal screen) = screen) ∧
    (∀ amounts others, balance amounts = balance others → after amounts = after others) ∧
    ∀ amounts, balance amounts = 0 → after amounts = view := by
  intro before view factor after
  have factor_eq : factor = if 1 < zoomStep.value then zoomStep.value else 11 / 10 := by
    rw [← zoomStep_withZoomStep keys]
    exact congrArg Exact.value (zoomStep_handleAll _ targets earlier)
  have pos : 0 < factor := by
    rw [factor_eq]
    split
    next great => exact one_pos.trans great
    next => norm_num
  have proper : view.Proper := proper_handleAll (proper_withZoomStep keys zoomStep) targets earlier
  have after_eq (amounts : List (Exact i)) :
      after amounts = view.stretch point ⟨factor ^ balance amounts⟩ :=
    congrArg Navigator.view (handleAll_wheel proper pos before.2 point amounts)
  refine ⟨factor_eq, ?_, ?_, ?_⟩
  · intro amounts inwards outwards zoomed
    have zoomed_pos : 0 < (⟨zoomed⟩ : Exact i).value := zpow_pos pos _
    have stretched : after amounts = view.stretch point ⟨zoomed⟩ := after_eq amounts
    have proper' := proper.stretch point zoomed_pos
    rw [stretched]
    refine ⟨rfl, rfl, ?_, proper'.toLocal_toGlobal, proper'.toGlobal_toLocal⟩
    rw [← proper.toLocal_stretch point zoomed_pos]
    exact proper'.toGlobal_toLocal point
  · intro amounts others same
    rw [after_eq, after_eq, same]
  · intro amounts none
    rw [after_eq, none, zpow_zero, Viewport.stretch_one]

end Exact

end Navigator

end DeadReckoning
