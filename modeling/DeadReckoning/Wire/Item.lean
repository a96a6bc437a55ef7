import DeadReckoning.Json.Record
import DeadReckoning.Track.Sighting

namespace DeadReckoning

open Json

/-!
# Items of a message — what the server says of one object

An item names a kind and a number, gives position and velocity as four numbers, and perhaps a radius
and a time. It is an object with these members or an array of them. Other members are of no account,
nor is the time, as long as it is a natural number.

* `Item.ofValue` — an item from a JSON value
* `Item.toSighting` — its values judged
* `Sighting.ofValue` — both
* `ItemError` — why an item is refused
-/

/-- Why an item is refused. -/
inductive ItemError where
  /-- A value is missing or has the wrong form. -/
  | malformed (fault : Fault)
  /-- Position and velocity are not four numbers. -/
  | componentCount (key : TrackKey) (count : Nat)
  | notFinite (key : TrackKey)
  | badRadius (key : TrackKey) (radius : Float)

/-- How many numbers make position and velocity. -/
def componentsPerItem : Nat := 4

namespace ItemError

/-- The message for an item that is not of the right form. -/
def malformedMessage (what : String) : String := "malformed entity snapshot: " ++ what

/-- The wording of a refusal. -/
def message : ItemError → String
  | malformed fault => malformedMessage fault.message
  | componentCount key count =>
    malformedMessage (key.text ++ ": pos has " ++ toString count ++ " components, expected " ++
      toString componentsPerItem)
  | notFinite key => "non-finite coordinate in snapshot for " ++ key.text
  | badRadius key radius =>
    "invalid radius " ++ plainLayout.write radius ++ " in snapshot for " ++ key.text

end ItemError

/-- An item of the right form. -/
structure Item where
  kind : Kind
  id : UInt64
  components : List Float
  radius : Option Float

namespace Json.Value

/-- The value is not of the wanted form. -/
def unlike {β : Type} (v : Value) (wanted : Wanted) : Except Fault β :=
  .error (.wrongType v.found wanted)

/-- The value as a natural number. -/
def toNatural : Value → Except Fault UInt64
  | number n => n.toNatural
  | v => v.unlike .natural

/-- The value as a double. -/
def toReal : Value → Except Fault Float
  | number n => .ok n.toFloat
  | v => v.unlike .real

/-- The value as a list of doubles. -/
def toReals : Value → Except Fault (List Float)
  | array items => items.mapM toReal
  | v => v.unlike .sequence

/-- The value, unless it is `null`. -/
def toOptional {β : Type} (read : Value → Except Fault β) : Value → Except Fault (Option β)
  | null => .ok none
  | v => some <$> read v

/-- The value as a kind: its tag, or an object with the tag as its one key and `null` as value. -/
def toKind : Value → Except Fault Kind
  | text tag => .ok (.ofTag tag)
  | object members =>
    match onlyMember? members with
    | some (tag, null) => .ok (.ofTag tag)
    | some (_, v) => v.unlike .unit
    | none => .error (.wrongValue .map .singleKeyMap)
  | v => v.unlike .textOrMap

end Json.Value

namespace Item

/-- The name of the record in messages. -/
def recordName : String := "WireItem"

/-- A member, if it is there. -/
def memberAs {β : Type} (name : String) (read : Value → Except Fault β)
    (members : List (String × Value)) : Except Fault (Option β) :=
  (lastMember? name members).mapM read

/-- A member that has to be there. -/
def require {β : Type} (name : String) : Option β → Except Fault β
  | some x => .ok x
  | none => .error (.missingField name)

/-- An item from the members of an object. What is wrong is told in the order of the members' names;
what is missing, after that. -/
def ofMembers (members : List (String × Value)) : Except Fault Item := do
  let id? ← memberAs "id" Value.toNatural members
  let components? ← memberAs "pos" Value.toReals members
  let radius? ← memberAs "radius" (Value.toOptional Value.toReal) members
  let _ ← memberAs "ts" (Value.toOptional Value.toNatural) members
  let kind? ← memberAs "type" Value.toKind members
  let kind ← require "type" kind?
  let id ← require "id" id?
  let components ← require "pos" components?
  return { kind, id, components, radius := radius?.join }

/-- An element that has to be there. -/
def requireElement {β : Type} (items : List Value) (position : Nat)
    (read : Value → Except Fault β) : Except Fault β :=
  match items[position]? with
  | some v => read v
  | none => .error (.wrongLength position (.recordOf recordName 5))

/-- An element that may be missing at the end. -/
def lateElement {β : Type} (items : List Value) (position : Nat)
    (read : Value → Except Fault β) : Except Fault (Option β) :=
  match items[position]? with
  | some v => Value.toOptional read v
  | none => .ok none

/-- An item from the elements of an array. -/
def ofElements (items : List Value) : Except Fault Item := do
  let kind ← requireElement items 0 Value.toKind
  let id ← requireElement items 1 Value.toNatural
  let components ← requireElement items 2 Value.toReals
  let radius ← lateElement items 3 Value.toReal
  let _ ← lateElement items 4 Value.toNatural
  if items.length > 5 then throw (.wrongLength items.length .shorterArray)
  return { kind, id, components, radius }

/-- An item from a JSON value. -/
def ofValue : Value → Except Fault Item
  | .object members => ofMembers members
  | .array items => ofElements items
  | v => v.unlike (.record recordName)

/-- The key of the object that an item speaks of. -/
def key (item : Item) : TrackKey := ⟨item.kind, item.id⟩

/-- An item with its values judged: their number first, then whether they are finite, then the
radius. -/
def toSighting (item : Item) : Except ItemError (Sighting Float) :=
  match item.components with
  | [x, y, vx, vy] =>
    let position : Vec2 Float := ⟨x, y⟩
    let velocity : Vec2 Float := ⟨vx, vy⟩
    if !position.isFinite || !velocity.isFinite then .error (.notFinite item.key)
    else
      match item.radius with
      | some radius =>
        if !radius.isFinite || radius ≤ 0.0 then .error (.badRadius item.key radius)
        else .ok ⟨item.kind, item.id, position, velocity, some radius⟩
      | none => .ok ⟨item.kind, item.id, position, velocity, none⟩
  | components => .error (.componentCount item.key components.length)

end Item

/-- A sighting from a JSON value. -/
def Sighting.ofValue (v : Value) : Except ItemError (Sighting Float) :=
  match Item.ofValue v with
  | .ok item => item.toSighting
  | .error fault => .error (.malformed fault)

end DeadReckoning
