namespace DeadReckoning.Arguments

/-!
# Arguments — flags and their values

A flag may stand anywhere, and its value is the argument behind it, whatever that is. The value may
itself be a flag with a value.

* `valuesOf` — all values of a flag
* `pathOf?` — the first of them
* `numberOf` — the first of them that is a number
-/

/-- The arguments that stand behind a flag. -/
def valuesOf (flag : String) : List String → List String
  | arg :: value :: rest =>
    if arg = flag then value :: valuesOf flag (value :: rest) else valuesOf flag (value :: rest)
  | _ => []

/-- The path that a flag gives. -/
def pathOf? (flag : String) (args : List String) : Option String := (valuesOf flag args).head?

/-- The number that a flag gives, or else a number for the case that it gives none. -/
def numberOf {β : Type} (read : List Char → Option β) (flag : String) (otherwise : β)
    (args : List String) : β :=
  ((valuesOf flag args).findSome? fun value => read value.toList).getD otherwise

end DeadReckoning.Arguments
