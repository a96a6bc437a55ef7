import DeadReckoning.Decimal.Layout
import DeadReckoning.View.Target

namespace DeadReckoning

/-!
# The viewport — how the world is laid out on the screen

A point of the world appears at `point * scale + offset`, each coordinate by itself.

* `Viewport.pan`, `Viewport.zoomAbout` — panning and zooming
* `Viewport.toLocal`, `Viewport.toGlobal` — from screen to world and back
* `Viewport.pushes` — what brings a target in line
-/

/-- Scale and offset of the view. -/
structure Viewport (α : Type) where
  scale : Vec2 α
  offset : Vec2 α
  deriving DecidableEq, Repr

/-- Why a zoom is refused. -/
inductive ZoomError (α : Type) where
  /-- The factor, or the scale that it would lead to, is not a positive finite number. -/
  | degenerate (factor : α)
  /-- The fixed point is not finite. -/
  | pivot (point : Vec2 α)

/-- The wording of a refusal. -/
def ZoomError.message : ZoomError Float → String
  | degenerate factor =>
    "zoom factor " ++ plainLayout.write factor ++ " would make the view scale degenerate"
  | pivot point =>
    "zoom pivot (" ++ plainLayout.write point.x ++ ", " ++ plainLayout.write point.y ++
      ") is not finite"

namespace Viewport

variable {α : Type} [Scalar α]

/-- World and screen coincide. -/
def start : Viewport α := ⟨.one, .zero⟩

/-- Differences up to this size are not pushed to targets. -/
def tolerance : α := 1e-9

/-- The view moved by a displacement in the world. -/
def pan (view : Viewport α) (displacement : Vec2 α) : Viewport α :=
  { view with offset := view.offset + view.scale * displacement }

/-- The number is finite and above zero in both coordinates. -/
def isGoodScale (scale : Vec2 α) : Bool := scale.isFinite && !decide (scale.smallest ≤ 0.0)

/-- The view zoomed by a factor. The point `pivot` of the world stays where it is on the screen. -/
def zoomAbout (view : Viewport α) (pivot : Vec2 α) (factor : α) :
    Except (ZoomError α) (Viewport α) :=
  if !Scalar.isFinite factor || factor ≤ 0.0 then .error (.degenerate factor)
  else if !pivot.isFinite then .error (.pivot pivot)
  else
    let scale := view.scale.scaleBy factor
    if !isGoodScale scale then .error (.degenerate factor)
    else .ok ({ view.pan pivot with scale }.pan (-pivot))

/-- The point of the world that appears at a point of the screen. -/
def toLocal (view : Viewport α) (point : Vec2 α) : Vec2 α :=
  (point - view.offset) / view.scale

/-- Where a point of the world appears on the screen. -/
def toGlobal (view : Viewport α) (point : Vec2 α) : Vec2 α :=
  point * view.scale + view.offset

/-- Two vectors differ by more than the tolerance. -/
def differs (v w : Vec2 α) : Bool := tolerance < (v - w).magnitudes.largest

/-- What brings a target in line with the view: its offset by the difference and its scale as a
whole, each only if it differs. -/
def pushes (view : Viewport α) (pose : Pose α) : List (Push α) :=
  (if differs view.offset pose.offset then
    [.shift (view.offset - pose.offset)] else []) ++
  (if differs view.scale pose.scale then [.rescale view.scale] else [])

/-- Brings the target under a key in line, and tells whether anything was pushed to it. -/
def apply {σ κ : Type} [TargetSet σ κ α] (view : Viewport α) (targets : σ) (key : κ) : σ × Bool :=
  match TargetSet.pose? targets key with
  | none => (targets, false)
  | some pose =>
    match view.pushes pose with
    | [] => (targets, false)
    | changes => (TargetSet.push targets key changes, true)

end Viewport

end DeadReckoning
