import DeadReckoning.Json.Printer
import DeadReckoning.Link
import DeadReckoning.Wire.Batch

namespace DeadReckoning

open Json

/-!
# Writing messages and their parts

* `Sighting.write` — an item
* `Batch.write` — a message
* `Vec2.write`, `TrackKey.write`, `Kind.write`, `Link.write` — values on their own
-/

/-- A kind by its tag. -/
def Kind.write (kind : Kind) : List Char := writeWord kind.tag

/-- A state of the channel by its name. -/
def Link.write (link : Link) : List Char := writeWord link.name

/-- A point or vector as an object. -/
def Vec2.write (v : Vec2 Float) : List Char :=
  writeObject [writeMember "x" (writeFloat v.x), writeMember "y" (writeFloat v.y)]

/-- A key as an object. -/
def TrackKey.write (key : TrackKey) : List Char :=
  writeObject [writeMember "kind" key.kind.write, writeMember "id" (writeNatural key.id)]

namespace Sighting

/-- Position and velocity in a row. -/
def components (s : Sighting Float) : List Float :=
  [s.position.x, s.position.y, s.velocity.x, s.velocity.y]

/-- An item; its radius is left out if there is none. -/
def write (s : Sighting Float) : List Char :=
  let radius := match s.radius with
    | some radius => [writeMember "radius" (writeFloat radius)]
    | none => []
  writeObject <|
    [writeMember "type" s.kind.write,
      writeMember "id" (writeNatural s.id),
      writeMember "pos" (writeArray (s.components.map writeFloat))] ++ radius

end Sighting

/-- A message with a server time and sightings. -/
def Batch.write (serverTime : Micros) (sightings : List (Sighting Float)) : String :=
  String.ofList <| writeObject
    [writeMember "ts" (writeNatural serverTime),
      writeMember "items" (writeArray (sightings.map Sighting.write))]

end DeadReckoning
