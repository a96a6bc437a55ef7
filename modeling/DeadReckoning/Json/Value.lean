namespace DeadReckoning.Json

/-!
# JSON values

* `Number` — a number as it was written: a natural number or a negative whole number of 64 bits, or
  a double
* `Value` — any value; an object keeps its members in the order of the text
* `Value.member?` — the value of a member; of several with one name the last counts
-/

/-- A number. Whole numbers out of the range of 64 bits, and those with a fraction or an exponent,
are doubles. -/
inductive Number where
  | natural (n : UInt64)
  /-- A whole number below zero, by its magnitude. -/
  | negative (magnitude : UInt64)
  | real (x : Float)

/-- The double nearest to a number. -/
def Number.toFloat : Number → Float
  | .natural n => n.toFloat
  | .negative magnitude => -magnitude.toFloat
  | .real x => x

/-- Any value. -/
inductive Value where
  | null
  | bool (b : Bool)
  | number (n : Number)
  | text (s : String)
  | array (items : List Value)
  | object (members : List (String × Value))

/-- The last of the members that have a name. -/
def lastMember? (name : String) (members : List (String × Value)) : Option Value :=
  members.foldl (fun found (key, value) => if key = name then some value else found) none

namespace Value

/-- The value of a member of an object. -/
def member? (name : String) : Value → Option Value
  | object members => lastMember? name members
  | _ => none

/-- The only name in an object, with the value that counts for it. -/
def onlyMember? : List (String × Value) → Option (String × Value)
  | [] => none
  | (name, value) :: rest =>
    if rest.all (·.1 = name) then some (name, (lastMember? name rest).getD value) else none

end Value

end DeadReckoning.Json
