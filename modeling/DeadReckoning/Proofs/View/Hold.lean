import DeadReckoning.Proofs.Exact
import DeadReckoning.Proofs.View.Steps
import DeadReckoning.Scene.Basic

namespace DeadReckoning

/-!
# Holding — the point taken hold of stays under the pointer

A press or a first touch takes hold of a point of the world. From then on each movement pans the
view so that this point is under the pointer again, and the wheel may zoom about other points in
between. The point held is computed anew after every movement; without rounding it is the same
point all the time.

* `Gesture.target?`, `Gesture.keepsHold`, `Navigator.takes?` — movements, what a hold outlasts, and
  what starts one
* `Navigator.handleAll` — several gestures
* `Navigator.Holds` — a point is held in a proper view
* `dragTo_eq` — a movement, in one equation
* `Holds.step`, `Holds.handleAll` — one gesture and a run of them keep the point
* `held_point_stays` — all of it for a navigator from its start
-/

/-! ### Gestures of a hold -/

namespace Gesture

variable {α : Type}

/-- Where a movement goes. -/
def target? : Gesture α → Option (Vec2 α)
  | move point | touchMove point => some point
  | _ => none

/-- The wheel was turned. -/
def isWheel : Gesture α → Bool
  | wheel .. => true
  | _ => false

/-- A movement or the wheel: a point that is held stays held. -/
def keepsHold (gesture : Gesture α) : Bool := gesture.target?.isSome || gesture.isWheel

end Gesture

namespace Navigator

section Runs

variable {κ α σ : Type} [Scalar α]

/-- The point of the screen at which a gesture takes hold of the world: a press does so always, a
touch if nothing is held. -/
def takes? (navigator : Navigator κ α) : Gesture α → Option (Vec2 α)
  | .press point => some point
  | .touch point => if navigator.isDragging then none else some point
  | _ => none

/-- A gesture that takes hold of a point does nothing else. -/
theorem step_of_takes {navigator : Navigator κ α} {gesture : Gesture α} {point : Vec2 α}
    (takes : navigator.takes? gesture = some point) :
    navigator.step gesture = (navigator.take point, false) := by
  cases gesture with
  | press _ =>
    cases takes
    rfl
  | touch _ =>
    -- a touch takes hold of a point only if none is held yet
    unfold takes? at takes
    dsimp only at takes
    split at takes
    next => cases takes
    next free =>
      cases takes
      rw [step, if_neg free]
  | _ => cases takes

/-- A movement drags the point that is held to its goal. -/
theorem step_of_target {gesture : Gesture α} {goal : Vec2 α} (target : gesture.target? = some goal)
    (navigator : Navigator κ α) : navigator.step gesture = navigator.dragTo goal := by
  cases gesture with
  | move _ | touchMove _ =>
    cases target
    rfl
  | _ => cases target

variable [TargetSet σ κ α]

/-- The navigator and the targets after several gestures. -/
def handleAll (navigator : Navigator κ α) (targets : σ) : List (Gesture α) → Navigator κ α × σ
  | [] => (navigator, targets)
  | gesture :: gestures =>
    let (navigator, targets, _) := navigator.handle gesture targets
    navigator.handleAll targets gestures

theorem handleAll_cons (navigator : Navigator κ α) (targets : σ) (gesture : Gesture α)
    (gestures : List (Gesture α)) :
    navigator.handleAll targets (gesture :: gestures) =
      (navigator.step gesture).1.handleAll (navigator.handle gesture targets).2.1 gestures := rfl

theorem handleAll_snoc (navigator : Navigator κ α) (targets : σ) (gestures : List (Gesture α))
    (gesture : Gesture α) :
    navigator.handleAll targets (gestures ++ [gesture]) =
      let (navigator, targets) := navigator.handleAll targets gestures
      ((navigator.step gesture).1, (navigator.handle gesture targets).2.1) := by
  induction gestures generalizing navigator targets with
  | nil => rfl
  | cons first rest ih => rw [List.cons_append, handleAll_cons, ih, ← handleAll_cons]

/-- The zoom factor stays what it is. -/
theorem zoomStep_handleAll (navigator : Navigator κ α) (targets : σ)
    (gestures : List (Gesture α)) :
    (navigator.handleAll targets gestures).1.zoomStep = navigator.zoomStep := by
  induction gestures generalizing navigator targets with
  | nil => rfl
  | cons gesture rest ih => rw [handleAll_cons, ih, zoomStep_step]

/-- Movements do not zoom. -/
theorem scale_handleAll (navigator : Navigator κ α) (targets : σ) {gestures : List (Gesture α)}
    (moves : ∀ g ∈ gestures, g.target?.isSome) :
    (navigator.handleAll targets gestures).1.view.scale = navigator.view.scale := by
  induction gestures generalizing navigator targets with
  | nil => rfl
  | cons gesture rest ih =>
    obtain ⟨goal, target⟩ := Option.isSome_iff_exists.mp (moves gesture List.mem_cons_self)
    rw [handleAll_cons, ih _ _ fun g member => moves g (List.mem_cons_of_mem _ member),
      step_of_target target]
    exact scale_dragTo navigator goal

end Runs

section Exact

variable {κ σ : Type} {i : Irrational} {navigator : Navigator κ (Exact i)} {anchor : Vec2 (Exact i)}

/-! ### The view stays proper -/

/-- A navigator starts with a proper view, whatever its zoom factor. -/
theorem proper_withZoomStep (keys : List κ) (zoomStep : Exact i) :
    ((start keys).withZoomStep zoomStep).view.Proper := by
  obtain ⟨other, same⟩ := (start keys : Navigator κ (Exact i)).withZoomStep_cases zoomStep
  rw [same]
  exact Viewport.proper_start

/-- Dragging keeps a view proper, since it leaves the scale alone. -/
theorem proper_dragTo (proper : navigator.view.Proper) (goal : Vec2 (Exact i)) :
    (navigator.dragTo goal).1.view.Proper where
  x := by
    rw [scale_dragTo]
    exact proper.x
  y := by
    rw [scale_dragTo]
    exact proper.y

/-- A zoom that is refused leaves the view as it was. -/
theorem proper_zoomAt (proper : navigator.view.Proper) (point : Vec2 (Exact i))
    (amount : Exact i) : (navigator.zoomAt point amount).1.view.Proper := by
  rcases navigator.zoomAt_cases point amount with still | ⟨factor, view, ok, zoomed⟩
  · rw [still]
    exact proper
  · rw [zoomed]
    exact .zoomAbout ok

/-- No gesture makes a proper view improper. -/
theorem proper_step (proper : navigator.view.Proper) (gesture : Gesture (Exact i)) :
    (navigator.step gesture).1.view.Proper := by
  cases gesture with
  | move goal | touchMove goal => exact proper_dragTo proper goal
  | wheel point amount => exact proper_zoomAt proper point amount
  | touch point =>
    rw [step]
    split
    · exact proper
    · exact proper
  | press _ | release | touchEnd | cancel => exact proper

/-- Nor does any number of gestures. -/
theorem proper_handleAll [TargetSet σ κ (Exact i)] (proper : navigator.view.Proper) (targets : σ)
    (gestures : List (Gesture (Exact i))) :
    (navigator.handleAll targets gestures).1.view.Proper := by
  induction gestures generalizing navigator targets with
  | nil => exact proper
  | cons gesture rest ih => exact ih (proper_step proper gesture) _

/-! ### A point that is held -/

/-- A point of the world is held, in a proper view. -/
structure Holds (navigator : Navigator κ (Exact i)) (anchor : Vec2 (Exact i)) : Prop where
  proper : navigator.view.Proper
  grip : navigator.grip = .dragging anchor

namespace Holds

/-- Taking hold takes what is under the pointer. -/
theorem of_take (proper : navigator.view.Proper) (point : Vec2 (Exact i)) :
    (navigator.take point).Holds (navigator.view.toLocal point) := ⟨proper, rfl⟩

/-- A movement pans by what the pointer is off the point held. The point held then is the one held
before, also where nothing was to be panned. -/
theorem dragTo_eq (holds : navigator.Holds anchor) (goal : Vec2 (Exact i)) :
    (navigator.dragTo goal).1 =
      { navigator with view := navigator.view.pan (navigator.view.toLocal goal - anchor) } := by
  unfold dragTo
  rw [holds.grip]
  dsimp only
  rw [Vec2.isFinite_exact, Bool.not_true, Bool.false_or]
  split
  next still => rw [eq_of_beq still, Viewport.pan_zero, ← holds.grip]
  next moved => rw [holds.proper.toLocal_pan_sub]

/-- After a movement the point held is under the pointer. -/
theorem toGlobal_dragTo (holds : navigator.Holds anchor) (goal : Vec2 (Exact i)) :
    (navigator.dragTo goal).1.view.toGlobal anchor = goal := by
  rw [holds.dragTo_eq]
  have back := (holds.proper.pan (navigator.view.toLocal goal - anchor)).toGlobal_toLocal goal
  rw [holds.proper.toLocal_pan_sub] at back
  exact back

/-- Dragging keeps hold of the point. -/
protected theorem dragTo (holds : navigator.Holds anchor) (goal : Vec2 (Exact i)) :
    (navigator.dragTo goal).1.Holds anchor where
  proper := proper_dragTo holds.proper goal
  grip := by
    rw [holds.dragTo_eq]
    exact holds.grip

/-- A movement or the wheel leaves the point held as it is. -/
protected theorem step (holds : navigator.Holds anchor) {gesture : Gesture (Exact i)}
    (keeps : gesture.keepsHold) : (navigator.step gesture).1.Holds anchor := by
  cases gesture with
  | move goal | touchMove goal => exact holds.dragTo goal
  | wheel point amount =>
    exact ⟨proper_zoomAt holds.proper point amount, (grip_zoomAt ..).trans holds.grip⟩
  | _ => cases keeps

/-- Movements and turns of the wheel keep hold of the point, however many there are. -/
protected theorem handleAll [TargetSet σ κ (Exact i)] (holds : navigator.Holds anchor)
    (targets : σ) {gestures : List (Gesture (Exact i))} (keep : ∀ g ∈ gestures, g.keepsHold) :
    (navigator.handleAll targets gestures).1.Holds anchor := by
  induction gestures generalizing navigator targets with
  | nil => exact holds
  | cons gesture rest ih =>
    have first := holds.step (keep gesture List.mem_cons_self)
    exact ih first _ fun g member => keep g (List.mem_cons_of_mem _ member)

end Holds

/-- In a view of the same scale that shows at `goal` what was shown at `point`, everything is off by
the way from `point` to `goal`. -/
theorem offset_of_toGlobal {view other : Viewport (Exact i)} (proper : view.Proper)
    (scale : other.scale = view.scale) {point goal : Vec2 (Exact i)}
    (shown : other.toGlobal (view.toLocal point) = goal) :
    other = { view with offset := view.offset + (goal - point) } := by
  obtain ⟨_, offset⟩ := other
  subst scale shown
  have axis (s o p o' : ℚ) (pos : 0 < s) : o' = o + ((p - o) / s * s + o' - p) := by
    rw [div_mul_cancel₀ _ pos.ne']
    ring
  rw [Viewport.mk.injEq]
  exact ⟨rfl, Vec2.ext_value (axis _ _ _ _ proper.x) (axis _ _ _ _ proper.y)⟩

/-- The point taken hold of stays under the pointer. From any state that a navigator can come to,
after taking hold at a point of the screen and then any movements and turns of the wheel, the point
held is the one that was there. After a movement it is under the pointer, and without the wheel the
view has moved by as much as the pointer, whatever the way between. -/
theorem held_point_stays [TargetSet σ κ (Exact i)] (keys : List κ) (zoomStep : Exact i)
    (targets : σ) (earlier later : List (Gesture (Exact i))) {grab : Gesture (Exact i)}
    {point : Vec2 (Exact i)}
    (takes : (((start keys).withZoomStep zoomStep).handleAll targets earlier).1.takes? grab =
      some point)
    (keep : ∀ g ∈ later, g.keepsHold) :
    let before := ((start keys).withZoomStep zoomStep).handleAll targets earlier
    let anchor := before.1.view.toLocal point
    let held := before.1.handleAll before.2 (grab :: later)
    held.1.grip = .dragging anchor ∧
      ∀ movement goal, movement.target? = some goal →
        let moved := (held.1.handle movement held.2).1
        moved.grip = .dragging anchor ∧ moved.view.toGlobal anchor = goal ∧
          ((∀ g ∈ later, g.isWheel = false) →
            moved.view =
              { before.1.view with offset := before.1.view.offset + (goal - point) }) := by
  intro before anchor held
  have proper : before.1.view.Proper :=
    proper_handleAll (proper_withZoomStep keys zoomStep) targets earlier
  have taken : (before.1.step grab).1 = before.1.take point :=
    congrArg Prod.fst (step_of_takes takes)
  have unfolded :
      held = (before.1.take point).handleAll (before.1.handle grab before.2).2.1 later := by
    rw [← taken]
    exact handleAll_cons ..
  have holds : held.1.Holds anchor := by
    rw [unfolded]
    exact (Holds.of_take proper point).handleAll _ keep
  refine ⟨holds.grip, ?_⟩
  intro movement goal target moved
  have moved_eq : moved = (held.1.dragTo goal).1 := congrArg Prod.fst (step_of_target target held.1)
  have shown : moved.view.toGlobal anchor = goal := by
    rw [moved_eq]
    exact holds.toGlobal_dragTo goal
  refine ⟨?_, shown, ?_⟩
  · rw [moved_eq]
    exact (holds.dragTo goal).grip
  · intro noWheel
    -- without the wheel all that came later were movements, which do not zoom
    have moves : ∀ g ∈ later, g.target?.isSome := by
      intro g member
      have keeps := keep g member
      rw [Gesture.keepsHold, noWheel g member, Bool.or_false] at keeps
      exact keeps
    have scale : moved.view.scale = before.1.view.scale := by
      rw [moved_eq, scale_dragTo, unfolded, scale_handleAll _ _ moves]
      rfl
    exact offset_of_toGlobal proper scale shown

/-- A touch after a zoom takes hold of a point; two movements with a turn of the wheel at another
place between them leave the point where the second one ends. -/
theorem held_point_survives_zoom :
    let i : Irrational := ⟨fun x => x, fun y _ => y⟩
    let at_ (x y : ℚ) : Vec2 (Exact i) := ⟨⟨x⟩, ⟨y⟩⟩
    let before := ((start LayerId.world).withZoomStep (⟨3 / 2⟩ : Exact i)).handleAll
      (Scene.start .standard : Scene (Exact i))
      [.wheel (at_ 50 50) ⟨-1⟩, .press (at_ 1 2), .move (at_ 3 4), .release]
    let held := before.1.handleAll before.2
      [.touch (at_ 200 120), .touchMove (at_ 230 90), .wheel (at_ 10 (-7)) ⟨1⟩]
    (held.1.handle (.move (at_ 260 80)) held.2).1.view.toGlobal
      (before.1.view.toLocal (at_ 200 120)) = at_ 260 80 := by
  intro i at_ before held
  have keep : ∀ g ∈ [Gesture.touchMove (at_ 230 90), .wheel (at_ 10 (-7)) ⟨1⟩], g.keepsHold := by
    simp [Gesture.keepsHold, Gesture.target?, Gesture.isWheel]
  exact ((held_point_stays LayerId.world ⟨3 / 2⟩ (Scene.start .standard)
    [.wheel (at_ 50 50) ⟨-1⟩, .press (at_ 1 2), .move (at_ 3 4), .release]
    [.touchMove (at_ 230 90), .wheel (at_ 10 (-7)) ⟨1⟩]
    (show takes? _ (.touch (at_ 200 120)) = _ by decide +kernel) keep).2
    (.move (at_ 260 80)) (at_ 260 80) rfl).2.1

end Exact

end Navigator

end DeadReckoning
