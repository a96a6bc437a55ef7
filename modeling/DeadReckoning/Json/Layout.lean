import DeadReckoning.Decimal.Layout

namespace DeadReckoning.Json

/-!
# Numbers in JSON text

* `numberLayout` — how doubles are written
* `writeFloat` — a double as a JSON value
-/

/-- Magnitudes from a hundred-thousandth below ten quadrillion are written without an exponent;
whole numbers end in `.0`. -/
def numberLayout : Layout where
  isPlain power := -5 ≤ power && power < 16
  whole := ['.', '0']
  tie := .even

/-- A double; one that is not finite has no number and is written as `null`. -/
def writeFloat (x : Float) : List Char :=
  match Dyadic.ofFloat? x with
  | some d => numberLayout.writeDyadic d
  | none => "null".toList

end DeadReckoning.Json
