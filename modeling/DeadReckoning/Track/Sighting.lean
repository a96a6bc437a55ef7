import DeadReckoning.Plane
import DeadReckoning.Track.Key

namespace DeadReckoning

/-!
# Sightings — what the server says of an object at one time
-/

/-- The state of an object as the server gave it. -/
structure Sighting (α : Type) where
  kind : Kind
  id : UInt64
  position : Vec2 α
  velocity : Vec2 α
  radius : Option α

namespace Sighting

variable {α β : Type}

/-- The key of the object that was seen. -/
def key (s : Sighting α) : TrackKey := ⟨s.kind, s.id⟩

/-- The same sighting in other numbers. -/
def map (f : α → β) (s : Sighting α) : Sighting β where
  kind := s.kind
  id := s.id
  position := s.position.map f
  velocity := s.velocity.map f
  radius := s.radius.map f

/-- The key does not depend on the numbers. -/
@[simp] theorem key_map (f : α → β) (s : Sighting α) : (s.map f).key = s.key := rfl

end Sighting

end DeadReckoning
