import DeadReckoning.Track.Basic

namespace DeadReckoning

/-!
# Shapes — how each kind is drawn

* `LayerId` — the layers of the drawing
* `Shape` — an outline for a renderer to draw
* `ShapeBook` — for each kind, how an object of that kind is drawn, if it is drawn at all
-/

/-- The layers of the drawing. -/
inductive LayerId where
  | asteroids
  | ships
  /-- What lies over the drawing and stays in place. -/
  | gui
  deriving DecidableEq, Repr, Inhabited

namespace LayerId

/-- All layers, in the order in which they are painted. -/
def all : List LayerId := [asteroids, ships, gui]

/-- The layers that follow the view. -/
def world : List LayerId := [ships, asteroids]

/-- The name of a layer. -/
def name : LayerId → String
  | asteroids => "asteroids"
  | ships => "ships"
  | gui => "gui"

end LayerId

/-- An outline for a renderer to draw. -/
structure Shape (α : Type) where
  layer : LayerId
  radius : α
  fill : String
  stroke : String

/-- A way of drawing objects. -/
abbrev ShapeFactory (α : Type) := Track α → Shape α

/-- How objects are drawn, by kind. A kind without an entry is not drawn. -/
structure ShapeBook (α : Type) where
  factory? : Kind → Option (ShapeFactory α)

namespace ShapeBook

variable {α : Type}

/-- Nothing is drawn. -/
def empty : ShapeBook α := ⟨fun _ => none⟩

/-- The book with a new or another entry for a kind. -/
def register (book : ShapeBook α) (kind : Kind) (factory : ShapeFactory α) : ShapeBook α :=
  ⟨fun k => if k = kind then some factory else book.factory? k⟩

/-- The last factory that is registered for a kind counts, and other kinds keep theirs. -/
theorem factory?_register (book : ShapeBook α) (kind k : Kind) (factory : ShapeFactory α) :
    (book.register kind factory).factory? k = if k = kind then some factory else book.factory? k :=
  rfl

/-- The kind has an entry. -/
def isRegistered (book : ShapeBook α) (kind : Kind) : Bool := (book.factory? kind).isSome

/-- The shape of an object, if its kind is drawn. -/
def spawn (book : ShapeBook α) (track : Track α) : Option (Shape α) :=
  (book.factory? track.key.kind).map (· track)

/-- A circle around an object, with a black edge. -/
def circle (layer : LayerId) (fill : String) : ShapeFactory α := fun track =>
  { layer, radius := track.radius, fill, stroke := "black" }

/-- Ships are red circles and asteroids blue ones. -/
def standard : ShapeBook α :=
  (empty.register .ship (circle .ships "red")).register .asteroid (circle .asteroids "blue")

/-- The name of a kind in a listing of the book. -/
def kindName : Kind → String
  | .asteroid => "Asteroid"
  | .ship => "Ship"
  | .unknown => "Unknown"

/-- A listing of the kinds that have an entry. -/
def describe (book : ShapeBook α) : String :=
  "ShapeRegistry \x7b kinds: [" ++
    ", ".intercalate ((Kind.all.filter book.isRegistered).map kindName) ++ "] \x7d"

end ShapeBook

end DeadReckoning
