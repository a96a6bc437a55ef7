import DeadReckoning.Wire.Printer

namespace DeadReckoning

open Json

/-!
# Reading values on their own

* `Kind.parse`, `Link.parse` — a case by its name
* `Vec2.parse`, `TrackKey.parse` — a record of two fields
-/

/-- A field that has to be there. -/
def requiredField {β : Type} (name : String) (read : Reader β) : RecordField β := ⟨name, read, none⟩

/-- A kind by its tag. -/
def Kind.read : Reader Kind := readCase fun tag => .ok (.ofTag tag)

/-- A text that is a kind. -/
def Kind.parse (text : String) : Except Fault Kind := readDocument (fun _ => Kind.read) text

/-- A state of the channel by its name. -/
def Link.read : Reader Link :=
  readCase fun name =>
    match Link.ofName? name with
    | some link => .ok link
    | none => .error (.unknownCase name (Link.all.map Link.name))

/-- A text that is a state of the channel. -/
def Link.parse (text : String) : Except Fault Link := readDocument (fun _ => Link.read) text

/-- A point or vector under the name that it has in messages. -/
def Vec2.read (record : String) (budget : Nat) : Reader (Vec2 Float) := fun cs => do
  let ((x, y), rest) ←
    readPair budget record (requiredField "x" readReal) (requiredField "y" readReal) cs
  return (⟨x, y⟩, rest)

/-- A text that is a point or vector. -/
def Vec2.parse (record : String) (text : String) : Except Fault (Vec2 Float) :=
  readDocument (Vec2.read record) text

/-- A key. -/
def TrackKey.read (budget : Nat) : Reader TrackKey := fun cs => do
  let ((kind, id), rest) ←
    readPair budget "EntityKey" (requiredField "kind" Kind.read) (requiredField "id" readNatural) cs
  return (⟨kind, id⟩, rest)

/-- A text that is a key. -/
def TrackKey.parse (text : String) : Except Fault TrackKey := readDocument TrackKey.read text

end DeadReckoning
