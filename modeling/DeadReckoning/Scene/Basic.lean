import DeadReckoning.Catalog
import DeadReckoning.Scene.Shape
import DeadReckoning.View.Target
import Std.Data.ExtTreeSet

namespace DeadReckoning

/-!
# The scene — what is drawn

Each object that is drawn has a mark on one layer. Marks are made when an object is met for the
first time, moved at every frame, and taken away with their object. Layers carry the poses that the
view pushes to them.

* `Layer`, `Layers` — a layer, and the three of them
* `Mark` — an object as it is drawn
* `Scene.update` — one frame: all marks put where their objects are reckoned to be
* `Scene.remove` — an object is no longer drawn
-/

/-- A layer of the drawing. -/
structure Layer (α : Type) where
  pose : Pose α
  /-- The objects drawn on the layer. -/
  members : Std.ExtTreeSet TrackKey
  /-- The text over the drawing. -/
  text : Option String

/-- The three layers. -/
structure Layers (α : Type) where
  asteroids : Layer α
  ships : Layer α
  gui : Layer α

/-- An object as it is drawn. -/
structure Mark (α : Type) where
  shape : Shape α
  /-- Where the object was reckoned to be at the last frame. -/
  position : Vec2 α
  /-- The direction of the object at the last frame at which it moved. -/
  rotation : α

/-- What is drawn. -/
structure Scene (α : Type) where
  layers : Layers α
  marks : Std.ExtTreeMap TrackKey (Mark α)
  shapes : ShapeBook α

variable {α : Type}

namespace Layers

/-- The layer with a name. -/
def get (layers : Layers α) : LayerId → Layer α
  | .asteroids => layers.asteroids
  | .ships => layers.ships
  | .gui => layers.gui

/-- The layers with one of them changed. -/
def modify (layers : Layers α) (id : LayerId) (f : Layer α → Layer α) : Layers α :=
  match id with
  | .asteroids => { layers with asteroids := f layers.asteroids }
  | .ships => { layers with ships := f layers.ships }
  | .gui => { layers with gui := f layers.gui }

/-- One layer is changed, and the others stay. -/
theorem get_modify (layers : Layers α) (id other : LayerId) (f : Layer α → Layer α) :
    (layers.modify id f).get other =
      if other = id then f (layers.get other) else layers.get other := by
  cases id <;> cases other <;> rfl

end Layers

namespace Layer

/-- An object is drawn on the layer. -/
def addMember (key : TrackKey) (layer : Layer α) : Layer α :=
  { layer with members := layer.members.insert key }

/-- An object is no longer drawn on the layer. -/
def dropMember (key : TrackKey) (layer : Layer α) : Layer α :=
  { layer with members := layer.members.erase key }

/-- The layer with another text. -/
def withText (text : String) (layer : Layer α) : Layer α := { layer with text := some text }

variable [Scalar α]

/-- A layer with nothing on it. -/
def blank : Layer α := ⟨.rest, ∅, none⟩

/-- The layer after pushes. -/
def push (changes : List (Push α)) (layer : Layer α) : Layer α :=
  { layer with pose := layer.pose.pushAll changes }

end Layer

namespace Scene

/-- The mark of an object. -/
def mark? (scene : Scene α) (key : TrackKey) : Option (Mark α) := scene.marks[key]?

/-- The scene without the mark of an object, and the mark if there was one. -/
def remove (scene : Scene α) (key : TrackKey) : Scene α × Option (Mark α) :=
  match scene.mark? key with
  | none => (scene, none)
  | some mark =>
    ({ scene with
        marks := scene.marks.erase key
        layers := scene.layers.modify mark.shape.layer (Layer.dropMember key) }, some mark)

/-- The scene without the marks of some objects. -/
def removeAll (scene : Scene α) (keys : List TrackKey) : Scene α :=
  keys.foldl (fun scene key => (scene.remove key).1) scene

/-- The scene with another text over the drawing. -/
def setOverlay (scene : Scene α) (text : String) : Scene α :=
  { scene with layers := scene.layers.modify .gui (Layer.withText text) }

/-- The text over the drawing. -/
def overlay? (scene : Scene α) : Option String := scene.layers.gui.text

/-- The scene with a new or another way of drawing a kind. -/
def register (scene : Scene α) (kind : Kind) (factory : ShapeFactory α) : Scene α :=
  { scene with shapes := scene.shapes.register kind factory }

variable [Scalar α]

/-- A scene with nothing drawn. -/
def start (shapes : ShapeBook α) : Scene α where
  layers := ⟨.blank, .blank, .blank⟩
  marks := ∅
  shapes

/-- Layers are looked up by their names. -/
instance : TargetSet (Scene α) LayerId α where
  pose? scene id := some (scene.layers.get id).pose
  push scene id changes := { scene with layers := scene.layers.modify id (Layer.push changes) }

end Scene

namespace Mark

variable [Scalar α]

/-- A mark before its first frame. -/
def ofShape (shape : Shape α) (track : Track α) : Mark α := ⟨shape, track.position, 0.0⟩

/-- A mark put where its object is reckoned to be, in the size of the object. -/
def follow (mark : Mark α) (track : Track α) (time : Micros) : Mark α where
  shape := { mark.shape with radius := track.radius }
  position := track.positionAt time
  rotation := track.heading?.getD mark.rotation

end Mark

namespace Scene

variable [Scalar α]

/-- The scene with a mark for an object that has none, if its kind is drawn. -/
def ensure (scene : Scene α) (track : Track α) : Scene α :=
  match scene.mark? track.key with
  | some _ => scene
  | none =>
    match scene.shapes.spawn track with
    | none => scene
    | some shape =>
      { scene with
        marks := scene.marks.insert track.key (.ofShape shape track)
        layers := scene.layers.modify shape.layer (Layer.addMember track.key) }

/-- The scene with the mark of an object put in place, and whether it has one. -/
def place (scene : Scene α) (time : Micros) (track : Track α) : Scene α × Bool :=
  let scene := scene.ensure track
  match scene.mark? track.key with
  | none => (scene, false)
  | some mark =>
    ({ scene with marks := scene.marks.insert track.key (mark.follow track time) }, true)

/-- The marks of several objects put in place one after the other, and how many there are. -/
def placeAll (scene : Scene α) (time : Micros) : List (Track α) → Scene α × Nat
  | [] => (scene, 0)
  | track :: tracks =>
    let (scene, placed) := scene.place time track
    let (scene, count) := placeAll scene time tracks
    (scene, if placed then count + 1 else count)

/-- One frame at a server time, and how many objects it shows. -/
def update (scene : Scene α) (catalog : Catalog α) (time : Micros) : Scene α × Nat :=
  scene.placeAll time catalog.tracks

/-- Where an object appears on the screen. -/
def screenPosition? (scene : Scene α) (key : TrackKey) : Option (Vec2 α) :=
  (scene.mark? key).map fun mark =>
    (scene.layers.get mark.shape.layer).pose.toScreen mark.position

end Scene

end DeadReckoning
