import DeadReckoning.Json.Layout

namespace DeadReckoning.Json

/-!
# Writing JSON

Compact text: nothing stands between the tokens.

* `writeNatural`, `writeWord` — leaves (doubles are written by `writeFloat`)
* `writeArray`, `writeObject` — values one after the other
-/

/-- A natural number. -/
def writeNatural (n : UInt64) : List Char := digits n.toNat

/-- A string of letters that need no escape. -/
def writeWord (s : String) : List Char := '"' :: s.toList ++ ['"']

/-- Texts with a comma between them. -/
def separate (parts : List (List Char)) : List Char := List.intercalate [','] parts

/-- An array of values that are written already. -/
def writeArray (items : List (List Char)) : List Char := '[' :: separate items ++ [']']

/-- A member of an object. -/
def writeMember (name : String) (value : List Char) : List Char := writeWord name ++ ':' :: value

/-- An object of members that are written already. -/
def writeObject (members : List (List Char)) : List Char := '\x7b' :: separate members ++ ['\x7d']

end DeadReckoning.Json
