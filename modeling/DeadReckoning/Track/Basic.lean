import DeadReckoning.Micros
import DeadReckoning.Track.Sighting

namespace DeadReckoning

/-!
# Tracks — the motion of one object between sightings

Position and velocity are the last ones seen. The acceleration follows from the velocities of the
last two sightings that counted; it is null after the first. A sighting that is not newer than the
track changes nothing.

* `Track.ofSighting` — the track of an object that is seen for the first time
* `Track.advance?` — the track after a newer sighting
* `Track.positionAt` — where the object is reckoned to be
-/

/-- What is known of the motion of one object. -/
structure Track (α : Type) where
  key : TrackKey
  position : Vec2 α
  velocity : Vec2 α
  acceleration : Vec2 α
  lastUpdate : Micros
  radius : α

namespace Track

variable {α : Type} [Scalar α]

/-- The radius of an object whose first sighting gives none. -/
def defaultRadius : α := 10.0

/-- The track of an object that is seen for the first time. -/
def ofSighting (s : Sighting α) (time : Micros) : Track α where
  key := s.key
  position := s.position
  velocity := s.velocity
  acceleration := .zero
  lastUpdate := time
  radius := s.radius.getD defaultRadius

/-- A track has the key of the sighting that it starts with. -/
@[simp] theorem key_ofSighting (s : Sighting α) (time : Micros) : (ofSighting s time).key = s.key :=
  rfl

/-- The seconds from one time to a later one. -/
def secondsBetween (earlier later : Micros) : α :=
  Scalar.ofMicros (later - earlier) / microsPerSecond

/-- The track after a sighting at a later time. -/
def advance (track : Track α) (s : Sighting α) (time : Micros) : Track α :=
  { track with
    position := s.position
    velocity := s.velocity
    acceleration := (s.velocity - track.velocity).map (· / secondsBetween track.lastUpdate time)
    lastUpdate := time
    radius := s.radius.getD track.radius }

/-- A track keeps its key. -/
@[simp] theorem key_advance (track : Track α) (s : Sighting α) (time : Micros) :
    (track.advance s time).key = track.key := rfl

/-- The track after a sighting, `none` if the sighting is not newer than the track. -/
def advance? (track : Track α) (s : Sighting α) (time : Micros) : Option (Track α) :=
  if time ≤ track.lastUpdate then none else some (track.advance s time)

/-- The seconds that a prediction looks ahead, or back if they are negative. Both times are turned
into numbers before they are subtracted. -/
def lookahead (track : Track α) (time : Micros) : α :=
  (Scalar.ofMicros time - Scalar.ofMicros track.lastUpdate) / microsPerSecond

/-- Where the object is at a time if its acceleration stays what it is. -/
def positionAt (track : Track α) (time : Micros) : Vec2 α :=
  let seconds := track.lookahead time
  let halfSquare := seconds * seconds / 2.0
  track.position + track.velocity.scaleBy seconds + track.acceleration.scaleBy halfSquare

/-- The direction in which the object moves. -/
def heading? (track : Track α) : Option α := track.velocity.heading?

end Track

end DeadReckoning
