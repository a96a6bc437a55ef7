import DeadReckoning.View.Navigator

namespace DeadReckoning.Navigator

/-!
# The navigator — what one gesture can do

Movements and the wheel act on the view or do nothing at all; every other gesture takes hold or lets
go. What a gesture does to the navigator is read off from here, without the conditions under which
it does it.

* `dragTo_cases`, `zoomAt_cases` — a movement, a turn of the wheel
* `scale_dragTo`, `grip_zoomAt` — what they leave alone
* `view_step` — a gesture that is said not to have acted on the view left it as it was
* `step_eq` — nothing changes but the view and the grip; `targets_step`, `zoomStep_step`
-/

variable {κ α : Type} [Scalar α] (navigator : Navigator κ α)

/-- A movement does nothing, or it pans by what the pointer is off the point held and takes hold of
what is under the pointer then. -/
theorem dragTo_cases (goal : Vec2 α) :
    navigator.dragTo goal = (navigator, false) ∨
      ∃ anchor, navigator.grip = .dragging anchor ∧
        navigator.dragTo goal =
          ({ navigator with
              view := navigator.view.pan (navigator.view.toLocal goal - anchor) }.take goal,
            true) := by
  unfold dragTo
  cases held : navigator.grip with
  | idle => exact .inl rfl
  | dragging anchor =>
    dsimp only
    split
    · exact .inl rfl
    · exact .inr ⟨anchor, rfl, rfl⟩

/-- The wheel does nothing, or it zooms. -/
theorem zoomAt_cases (point : Vec2 α) (amount : α) :
    navigator.zoomAt point amount = (navigator, false) ∨
      ∃ factor view, navigator.view.zoomAbout (navigator.view.toLocal point) factor = .ok view ∧
        navigator.zoomAt point amount = ({ navigator with view }, true) := by
  unfold zoomAt
  cases navigator.zoomFactor? amount with
  | none => exact .inl rfl
  | some factor =>
    dsimp only
    cases zoomed : navigator.view.zoomAbout (navigator.view.toLocal point) factor with
    | error e => exact .inl rfl
    | ok view => exact .inr ⟨factor, view, zoomed, rfl⟩

/-- A movement does not zoom. -/
theorem scale_dragTo (goal : Vec2 α) :
    (navigator.dragTo goal).1.view.scale = navigator.view.scale := by
  rcases navigator.dragTo_cases goal with still | ⟨anchor, _, moved⟩
  · rw [still]
  · rw [moved]
    rfl

/-- The wheel neither takes hold nor lets go. -/
theorem grip_zoomAt (point : Vec2 α) (amount : α) :
    (navigator.zoomAt point amount).1.grip = navigator.grip := by
  rcases navigator.zoomAt_cases point amount with still | ⟨factor, view, _, zoomed⟩
  · rw [still]
  · rw [zoomed]

/-- A gesture that is said not to have acted on the view left it as it was. -/
theorem view_step (gesture : Gesture α) (unchanged : (navigator.step gesture).2 = false) :
    (navigator.step gesture).1.view = navigator.view := by
  cases gesture with
  | move goal | touchMove goal =>
    rcases navigator.dragTo_cases goal with still | ⟨anchor, _, moved⟩
    · exact congrArg (·.1.view) still
    · cases (congrArg Prod.snd moved).symm.trans unchanged
  | wheel point amount =>
    rcases navigator.zoomAt_cases point amount with still | ⟨factor, view, _, zoomed⟩
    · exact congrArg (·.1.view) still
    · cases (congrArg Prod.snd zoomed).symm.trans unchanged
  | touch point =>
    rw [step]
    split
    · rfl
    · rfl
  | press _ | release | touchEnd | cancel => rfl

/-- A gesture changes nothing but the view and the grip. -/
theorem step_eq (gesture : Gesture α) :
    (navigator.step gesture).1 =
      { navigator with
        view := (navigator.step gesture).1.view
        grip := (navigator.step gesture).1.grip } := by
  cases gesture with
  | move goal | touchMove goal =>
    rw [step]
    rcases navigator.dragTo_cases goal with still | ⟨anchor, _, moved⟩
    · rw [still]
    · rw [moved]
      rfl
  | wheel point amount =>
    rw [step]
    rcases navigator.zoomAt_cases point amount with still | ⟨factor, view, _, zoomed⟩
    · rw [still]
    · rw [zoomed]
  | touch point =>
    rw [step]
    split
    · rfl
    · rfl
  | press _ | release | touchEnd | cancel => rfl

/-- The targets stay bound. -/
theorem targets_step (gesture : Gesture α) :
    (navigator.step gesture).1.targets = navigator.targets := by rw [step_eq]

/-- The zoom factor of a notch stays what it is. -/
theorem zoomStep_step (gesture : Gesture α) :
    (navigator.step gesture).1.zoomStep = navigator.zoomStep := by rw [step_eq]

/-- Another zoom factor changes nothing else. -/
theorem withZoomStep_cases (zoomStep : α) :
    ∃ other, navigator.withZoomStep zoomStep = { navigator with zoomStep := other } := by
  unfold withZoomStep
  split
  · exact ⟨zoomStep, rfl⟩
  · exact ⟨navigator.zoomStep, rfl⟩

end DeadReckoning.Navigator
