import DeadReckoning.Decimal.Shortest

namespace DeadReckoning

/-!
# Decimal layout — how a number is written in digits

* `Decimal.positional`, `Decimal.scientific` — the two layouts of a decimal
* `Layout` — which layout is used when, and how whole numbers look
* `Layout.write` — a double in one style
* `fixedPlaces` — a double with a given number of places
* `plainLayout` — the style of numbers in messages
-/

/-- The decimal digits of a natural number, most significant first. -/
def digits (n : Nat) : List Char := Nat.toDigits 10 n

namespace Decimal

/-- Written without an exponent; a whole number ends in `whole`. -/
def positional (whole : List Char) (d : Decimal) : List Char :=
  let ds := digits d.coefficient
  if 0 ≤ d.exponent then
    if d.coefficient = 0 then '0' :: whole
    else ds ++ List.replicate d.exponent.toNat '0' ++ whole
  else
    let places := (-d.exponent).toNat
    if places < ds.length then
      ds.take (ds.length - places) ++ '.' :: ds.drop (ds.length - places)
    else
      '0' :: '.' :: List.replicate (places - ds.length) '0' ++ ds

/-- The power of ten of the first digit. -/
def leadingPower (d : Decimal) : Int := d.exponent + (digits d.coefficient).length - 1

/-- Written with one digit before the point and a signed exponent. -/
def scientific (d : Decimal) : List Char :=
  let power := d.leadingPower
  let sign := if power < 0 then '-' else '+'
  let mantissa := match digits d.coefficient with
    | first :: second :: rest => first :: '.' :: second :: rest
    | ds => ds
  mantissa ++ 'e' :: sign :: digits power.natAbs

end Decimal

/-- A way of writing doubles with the fewest digits that stand for them. -/
structure Layout where
  /-- Leading powers of ten that are written without an exponent. -/
  isPlain : Int → Bool
  /-- What follows the digits of a whole number. -/
  whole : List Char
  /-- Which of two equally near shortest decimals is written. -/
  tie : Tie

namespace Layout

/-- The digits of a magnitude. -/
def layOut (style : Layout) (d : Dyadic) : List Char :=
  let decimal := d.shortest style.tie
  if d.mantissa == 0 || style.isPlain decimal.leadingPower then decimal.positional style.whole
  else decimal.scientific

/-- A finite number with its sign. -/
def writeDyadic (style : Layout) (d : Dyadic) : List Char :=
  if d.negative then '-' :: style.layOut d else style.layOut d

/-- A double; those that are not finite are written by name. -/
def write (style : Layout) (x : Float) : String :=
  match Dyadic.ofFloat? x with
  | some d => String.ofList (style.writeDyadic d)
  | none => if x < 0 then "-inf" else if 0 < x then "inf" else "NaN"

end Layout

/-- Numbers in messages: never an exponent, and nothing after the digits of a whole number. -/
def plainLayout : Layout where
  isPlain _ := true
  whole := []
  tie := .up

/-- A magnitude as a count of `10 ^ -places`, a half going to the even neighbour. -/
def Dyadic.countPlaces (d : Dyadic) (places : Nat) : Nat :=
  let value := d.numerator * tenTo places
  let below := value / d.denominator
  if Tie.takesUpper .even below (value % d.denominator) d.denominator then below + 1 else below

/-- A double with exactly `places` digits after the point. -/
def fixedPlaces (places : Nat) (x : Float) : String :=
  match Dyadic.ofFloat? x with
  | some d =>
    let ds := digits (d.countPlaces places)
    let ds := List.replicate (places + 1 - ds.length) '0' ++ ds
    let sign := if d.negative then ['-'] else []
    String.ofList (sign ++ ds.take (ds.length - places) ++ '.' :: ds.drop (ds.length - places))
  | none => plainLayout.write x

end DeadReckoning
