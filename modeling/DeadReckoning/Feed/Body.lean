import DeadReckoning.Random.Draw
import DeadReckoning.Track.Sighting

namespace DeadReckoning

/-!
# Bodies — objects that move as made up

The objects of a made-up feed have constant accelerations, so that where they are at any time is
known exactly.

* `Body` — an object and its motion
* `Body.sightingAt` — what the server would say of it
* `Trigonometry` — cosine and sine, which differ from processor to processor
* `Body.spawnAll` — ships and asteroids with motions drawn at random
-/

/-- An object in motion with constant acceleration. -/
structure Body (α : Type) where
  kind : Kind
  id : UInt64
  /-- Where it is at the start. -/
  origin : Vec2 α
  /-- Its velocity at the start. -/
  velocity : Vec2 α
  acceleration : Vec2 α
  radius : α
  /-- The chance of being part of a message. -/
  rate : α

/-- The functions of an angle. How they round is up to the processor. -/
class Trigonometry where
  cos : Float → Float
  sin : Float → Float

instance : Trigonometry := ⟨Float.cos, Float.sin⟩

namespace Body

/-- What a body and its track are known by. -/
def key {α : Type} (body : Body α) : TrackKey := ⟨body.kind, body.id⟩

section Motion

variable {α : Type} [Scalar α]

/-- Where a body is some seconds after the start. -/
def positionAt (body : Body α) (seconds : α) : Vec2 α :=
  let change := (body.acceleration.map (0.5 * ·)).scaleBy seconds
  body.origin + body.velocity.scaleBy seconds + change.scaleBy seconds

/-- The velocity of a body some seconds after the start. -/
def velocityAt (body : Body α) (seconds : α) : Vec2 α :=
  body.velocity + body.acceleration.scaleBy seconds

/-- What is seen of a body some seconds after the start. -/
def sightingAt (body : Body α) (seconds : α) : Sighting α where
  kind := body.kind
  id := body.id
  position := body.positionAt seconds
  velocity := body.velocityAt seconds
  radius := some body.radius

/-- A body is seen under its own key. -/
@[simp] theorem key_sightingAt (body : Body α) (seconds : α) :
    (body.sightingAt seconds).key = body.key := rfl

end Motion

/-- The angle of a full turn. -/
def fullTurn : Float := 6.283185307179586

/-- A vector of a given length in a given direction. -/
def polar [Trigonometry] (length direction : Float) : Vec2 Float :=
  ⟨length * Trigonometry.cos direction, length * Trigonometry.sin direction⟩

variable {σ : Type} [Chance σ]

/-- A point with coordinates less than `reach` from zero. -/
def pointWithin (reach : Float) : StateM σ (Vec2 Float) := do
  let x ← Chance.real (-reach) reach
  let y ← Chance.real (-reach) reach
  return ⟨x, y⟩

/-- A ship that speeds up or slows down on a straight course. -/
def spawnShip [Trigonometry] (id : UInt64) : StateM σ (Body Float) := do
  let course ← Chance.real 0.0 fullTurn
  let speed ← Chance.real 5.0 40.0
  let thrust ← Chance.real (-2.0) 2.0
  let origin ← pointWithin 500.0
  return {
    kind := .ship
    id, origin
    velocity := polar speed course
    acceleration := polar thrust course
    radius := 10.0
    rate := 0.9 }

/-- An asteroid that drifts. -/
def spawnAsteroid (id : UInt64) : StateM σ (Body Float) := do
  let origin ← pointWithin 2000.0
  let velocity ← pointWithin 3.0
  let radius ← Chance.real 8.0 60.0
  return {
    kind := .asteroid
    id, origin, velocity
    acceleration := .zero
    radius
    rate := 0.5 }

/-- Things made one after the other, with the numbers from zero. -/
def numbered (count : UInt64) (make : UInt64 → StateM σ (Body Float)) :
    StateM σ (List (Body Float)) :=
  (List.range count.toNat).mapM fun n => make (UInt64.ofNat n)

/-- Some ships, then some asteroids. -/
def spawnAll [Trigonometry] (ships asteroids : UInt64) : StateM σ (List (Body Float)) := do
  let fleet ← numbered ships spawnShip
  let belt ← numbered asteroids spawnAsteroid
  return fleet ++ belt

end Body

end DeadReckoning
