import DeadReckoning.Plane
import Std.Data.ExtTreeMap

namespace DeadReckoning

/-!
# Targets — what follows the view

A target is something drawn that has an offset and a scale. It is brought in line by pushes: the
offset changes by a difference, the scale is set. Targets are looked up by a key, so that whatever
must not follow the view is simply not listed.

* `Pose` — offset and scale
* `Push` — one change of a pose
* `TargetSet` — targets by key
* `Board` — a target that counts what is pushed to it
-/

/-- Where something drawn is put on the screen, and how large. -/
structure Pose (α : Type) where
  offset : Vec2 α
  scale : Vec2 α
  deriving DecidableEq, Repr

/-- One change of a pose. -/
inductive Push (α : Type) where
  | shift (difference : Vec2 α)
  | rescale (scale : Vec2 α)
  deriving DecidableEq, Repr

namespace Pose

variable {α : Type} [Scalar α]

/-- Nothing moved and nothing scaled. -/
def rest : Pose α := ⟨.zero, .one⟩

/-- A pose after a push. -/
def push (pose : Pose α) : Push α → Pose α
  | .shift difference => { pose with offset := pose.offset + difference }
  | .rescale scale => { pose with scale }

/-- A pose after several pushes. -/
def pushAll (pose : Pose α) (pushes : List (Push α)) : Pose α := pushes.foldl push pose

/-- Where a point of the drawing appears. -/
def toScreen (pose : Pose α) (point : Vec2 α) : Vec2 α := point * pose.scale + pose.offset

end Pose

/-- Targets that are looked up by a key. -/
class TargetSet (σ : Type) (κ α : outParam Type) where
  /-- The pose of a target, if there is one under the key. -/
  pose? : σ → κ → Option (Pose α)
  /-- The targets after pushes to the one under a key. -/
  push : σ → κ → List (Push α) → σ

/-- A target that counts the pushes to it. -/
structure Board (α : Type) where
  pose : Pose α
  shifts : Nat
  rescales : Nat

namespace Board

variable {α : Type} [Scalar α]

/-- A target that nothing was pushed to. -/
def blank : Board α := ⟨.rest, 0, 0⟩

/-- A board after a push. -/
def push (board : Board α) (change : Push α) : Board α :=
  let pose := board.pose.push change
  match change with
  | .shift _ => { board with pose, shifts := board.shifts + 1 }
  | .rescale _ => { board with pose, rescales := board.rescales + 1 }

end Board

/-- Boards by name. -/
abbrev Boards (α : Type) := Std.ExtTreeMap String (Board α)

/-- Boards are looked up by name. -/
instance {α : Type} [Scalar α] : TargetSet (Boards α) String α where
  pose? boards name := boards[name]?.map (·.pose)
  push boards name changes :=
    match boards[name]? with
    | some board => boards.insert name (changes.foldl Board.push board)
    | none => boards

end DeadReckoning
