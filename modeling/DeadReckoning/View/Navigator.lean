import DeadReckoning.View.Viewport

namespace DeadReckoning

/-!
# The navigator — gestures that pan and zoom

Pressing takes hold of the point of the world under the pointer; moving keeps that point under the
pointer; letting go ends it. A second finger ends it too. The wheel zooms about the pointer at any
time.

* `Gesture` — what the user does, in screen coordinates
* `Grip` — whether a point of the world is being held
* `Navigator.step` — the navigator after a gesture, and whether the view changed
* `Navigator.handle` — the same, with the targets brought in line
-/

/-- What the user does. -/
inductive Gesture (α : Type) where
  | press (point : Vec2 α)
  | move (point : Vec2 α)
  | release
  | touch (point : Vec2 α)
  | touchMove (point : Vec2 α)
  | touchEnd
  /-- The wheel at a point; an `amount` below zero zooms in. -/
  | wheel (point : Vec2 α) (amount : α)
  /-- The gesture is interrupted from outside. -/
  | cancel

/-- Whether a point of the world is being held. -/
inductive Grip (α : Type) where
  | idle
  /-- The point `anchor` of the world is held under the pointer. -/
  | dragging (anchor : Vec2 α)
  deriving DecidableEq, Repr

/-- The view, what is being done with it, and the keys of the targets that follow it. -/
structure Navigator (κ α : Type) where
  view : Viewport α
  grip : Grip α
  targets : List κ
  /-- The zoom factor of one notch of the wheel. -/
  zoomStep : α

/-- A point of the world is being held. -/
def Grip.isDragging {α : Type} : Grip α → Bool
  | idle => false
  | dragging _ => true

namespace Navigator

variable {κ α : Type} [Scalar α]

/-- The zoom factor of a notch if no other is given. -/
def defaultZoomStep : α := 1.1

/-- A navigator with nothing done yet. -/
def start (targets : List κ) : Navigator κ α where
  view := .start
  grip := .idle
  targets
  zoomStep := defaultZoomStep

/-- Another zoom factor; one that is not finite and above one is passed over. -/
def withZoomStep (navigator : Navigator κ α) (zoomStep : α) : Navigator κ α :=
  if Scalar.isFinite zoomStep && decide (1.0 < zoomStep) then { navigator with zoomStep }
  else navigator

/-- A point of the world is being held. -/
def isDragging (navigator : Navigator κ α) : Bool := navigator.grip.isDragging

/-- Takes hold of what is under a point of the screen. -/
def take (navigator : Navigator κ α) (point : Vec2 α) : Navigator κ α :=
  { navigator with grip := .dragging (navigator.view.toLocal point) }

/-- Lets go. -/
def letGo (navigator : Navigator κ α) : Navigator κ α := { navigator with grip := .idle }

/-- Moves the view so that the point held comes under `point`. -/
def dragTo (navigator : Navigator κ α) (point : Vec2 α) : Navigator κ α × Bool :=
  match navigator.grip with
  | .idle => (navigator, false)
  | .dragging anchor =>
    let displacement := navigator.view.toLocal point - anchor
    if !displacement.isFinite || displacement == .zero then (navigator, false)
    else
      let view := navigator.view.pan displacement
      ({ navigator with view, grip := .dragging (view.toLocal point) }, true)

/-- The zoom factor for a turn of the wheel. -/
def zoomFactor? (navigator : Navigator κ α) (amount : α) : Option α :=
  if amount < 0.0 then some navigator.zoomStep
  else if 0.0 < amount then some (1.0 / navigator.zoomStep)
  else none

/-- Zooms about a point of the screen. -/
def zoomAt (navigator : Navigator κ α) (point : Vec2 α) (amount : α) : Navigator κ α × Bool :=
  match navigator.zoomFactor? amount with
  | none => (navigator, false)
  | some factor =>
    match navigator.view.zoomAbout (navigator.view.toLocal point) factor with
    | .ok view => ({ navigator with view }, true)
    | .error _ => (navigator, false)

/-- The navigator after a gesture, and whether it acted on the view. -/
def step (navigator : Navigator κ α) : Gesture α → Navigator κ α × Bool
  | .press point => (navigator.take point, false)
  | .touch point =>
    (if navigator.isDragging then navigator.letGo else navigator.take point, false)
  | .move point | .touchMove point => navigator.dragTo point
  | .release | .touchEnd | .cancel => (navigator.letGo, false)
  | .wheel point amount => navigator.zoomAt point amount

variable {σ : Type} [TargetSet σ κ α]

/-- Brings targets in line with a view one after the other, and counts those that something was
pushed to. -/
def applyEach (view : Viewport α) : List κ → σ → σ × Nat
  | [], targets => (targets, 0)
  | key :: keys, targets =>
    let (targets, changed) := view.apply targets key
    let (targets, count) := applyEach view keys targets
    (targets, if changed then count + 1 else count)

/-- Brings all targets in line, and counts those that something was pushed to. -/
def applyAll (navigator : Navigator κ α) (targets : σ) : σ × Nat :=
  applyEach navigator.view navigator.targets targets

/-- The navigator and the targets after a gesture, and whether it acted on the view. -/
def handle (navigator : Navigator κ α) (gesture : Gesture α) (targets : σ) :
    Navigator κ α × σ × Bool :=
  let (navigator, changed) := navigator.step gesture
  (navigator, if changed then (navigator.applyAll targets).1 else targets, changed)

end Navigator

end DeadReckoning
