import DeadReckoning.Scalar

namespace DeadReckoning

/-!
# The plane — points and vectors

World and screen are flat. One type serves for points, displacements, velocities and scales; the
operators work on each coordinate by itself.

* `Vec2` — a pair of coordinates
* `Vec2.distance` — the length of the difference of two points
* `Vec2.heading?` — the direction of a vector, if it has one
-/

/-- A pair of coordinates. -/
structure Vec2 (α : Type) where
  x : α
  y : α
  deriving DecidableEq, Repr

namespace Vec2

variable {α β : Type}

/-- The same change made to both coordinates. -/
def map (f : α → β) (v : Vec2 α) : Vec2 β := ⟨f v.x, f v.y⟩

/-- Two vectors combined coordinate by coordinate. -/
def zipWith (f : α → α → α) (v w : Vec2 α) : Vec2 α := ⟨f v.x w.x, f v.y w.y⟩

variable [Scalar α]

instance : Add (Vec2 α) := ⟨zipWith (· + ·)⟩
instance : Sub (Vec2 α) := ⟨zipWith (· - ·)⟩
instance : Mul (Vec2 α) := ⟨zipWith (· * ·)⟩
instance : Div (Vec2 α) := ⟨zipWith (· / ·)⟩
instance : Neg (Vec2 α) := ⟨map (- ·)⟩
instance : BEq (Vec2 α) := ⟨fun v w => v.x == w.x && v.y == w.y⟩

/-- The origin. -/
def zero : Vec2 α := ⟨0.0, 0.0⟩

/-- The unit scale. -/
def one : Vec2 α := ⟨1.0, 1.0⟩

/-- Both coordinates multiplied by one number. -/
def scaleBy (v : Vec2 α) (k : α) : Vec2 α := v.map (· * k)

/-- Neither coordinate is infinite or NaN. -/
def isFinite (v : Vec2 α) : Bool := Scalar.isFinite v.x && Scalar.isFinite v.y

/-- The greater coordinate. -/
def largest (v : Vec2 α) : α := Scalar.larger v.x v.y

/-- The lesser coordinate. -/
def smallest (v : Vec2 α) : α := Scalar.smaller v.x v.y

/-- Both coordinates taken without their signs. -/
def magnitudes (v : Vec2 α) : Vec2 α := v.map Scalar.magnitude

/-- Length by the theorem of Pythagoras. -/
def length (v : Vec2 α) : α := Scalar.sqrt (v.x * v.x + v.y * v.y)

/-- How far apart two points are. -/
def distance (p q : Vec2 α) : α := (p - q).length

/-- The direction of a vector, counter-clockwise from the first axis; a null vector has none. -/
def heading? (v : Vec2 α) : Option α :=
  if v.x == 0.0 && v.y == 0.0 then none else some (Scalar.atan2 v.y v.x)

end Vec2

end DeadReckoning
