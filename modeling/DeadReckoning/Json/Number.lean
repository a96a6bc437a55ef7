import DeadReckoning.Decimal.Literal
import DeadReckoning.Json.Fault

namespace DeadReckoning.Json

/-!
# Reading JSON numbers

A whole number that fits 64 bits is kept as it is. Any other number becomes a double in two steps:
its digits are gathered in a 64-bit significand as long as they fit, and the significand, rounded to
a double, is then multiplied or divided by a power of ten. The result can be a unit or two in the
last place away from the nearest double.

* `gather` — digits into a significand
* `scaleByTen` — the second step
* `readNumber` — a number at the start of a text
-/

/-- A step of reading: what was read and the text after it, or what is wrong. -/
abbrev Reader (β : Type) := List Char → Except Fault (β × List Char)

/-- The text goes on with a digit. -/
def startsWithDigit : List Char → Bool
  | c :: _ => c.isDigit
  | [] => false

/-- Digits appended to a significand while it stays below `2 ^ 64`: the significand, how many digits
it took, and the rest of the text. -/
def gather (significand : Nat) (taken : Nat) : List Char → Nat × Nat × List Char
  | [] => (significand, taken, [])
  | c :: cs =>
    if c.isDigit && significand * 10 + digitValue c < UInt64.size then
      gather (significand * 10 + digitValue c) (taken + 1) cs
    else (significand, taken, c :: cs)

/-- The power of ten nearest to `10 ^ n`. -/
def powerOfTen (n : Nat) : Float := Float.ofScientific 1 false n

/-- A number divided by `10 ^ n`, in steps of at most `10 ^ 308`. -/
def divideByTen (x : Float) : (steps : Nat) → (n : Nat) → Float
  | 0, n => x / powerOfTen n
  | steps + 1, n =>
    if n ≤ 308 then x / powerOfTen n
    else if x == 0.0 then x
    else divideByTen (x / powerOfTen 308) steps (n - 308)

/-- `± significand · 10 ^ exponent`, unless that is beyond the doubles. -/
def scaleByTen (negative : Bool) (significand : Nat) (exponent : Int) : Except Fault Float := do
  let x := (UInt64.ofNat significand).toFloat
  let magnitude ←
    if exponent < 0 then pure (divideByTen x 3 exponent.natAbs)
    else if exponent ≤ 308 then
      let product := x * powerOfTen exponent.natAbs
      if product.isInf then throw .numberOutOfRange else pure product
    else if x == 0.0 then pure x
    else throw .numberOutOfRange
  return if negative then -magnitude else magnitude

/-- The largest exponent that is read; a larger one counts as unbounded. -/
def greatestExponent : Nat := 0x7fffffff

/-- The number after the `e` of its exponent, its point being moved by `shift` already. -/
def readExponent (negative : Bool) (significand : Nat) (shift : Int) : Reader Float := fun cs => do
  let (down, ds) := takeSign cs
  match ds with
  | [] => throw .endInValue
  | c :: _ =>
    if !c.isDigit then throw .badNumber
    let rest := ds.dropWhile Char.isDigit
    let exponent := decimalNumeral (ds.takeWhile Char.isDigit)
    if exponent ≤ greatestExponent then
      let x ← scaleByTen negative significand (if down then shift - exponent else shift + exponent)
      return (x, rest)
    else if significand ≠ 0 && !down then throw .numberOutOfRange
    else return (if negative then -0.0 else 0.0, rest)

/-- An exponent, if one follows. -/
def readScale (negative : Bool) (significand : Nat) (shift : Int) : Reader Float
  | 'e' :: cs => readExponent negative significand shift cs
  | 'E' :: cs => readExponent negative significand shift cs
  | cs => do
    let x ← scaleByTen negative significand shift
    return (x, cs)

/-- The digits after the point and what follows them. Digits that do not fit are passed over. -/
def readPlaces (negative : Bool) (significand : Nat) (shift : Int) : Reader Float := fun cs =>
  match cs with
  | [] => throw .endInValue
  | c :: _ =>
    if !c.isDigit then throw .badNumber
    else
      let (significand, taken, rest) := gather significand 0 cs
      readScale negative significand (shift - taken) (rest.dropWhile Char.isDigit)

/-- The number after its whole part, when that is a significand and `shift` digits dropped. -/
def readFraction (negative : Bool) (significand : Nat) (shift : Nat) : Reader Float
  | '.' :: cs => readPlaces negative significand shift cs
  | cs => readScale negative significand shift cs

/-- A whole number by its sign: zero with a minus, and one below `-2 ^ 63`, are doubles. -/
def wholeNumber (negative : Bool) (n : Nat) : Number :=
  if !negative then .natural (UInt64.ofNat n)
  else if n = 0 || n > 0x8000000000000000 then .real (-(UInt64.ofNat n).toFloat)
  else .negative (UInt64.ofNat n)

/-- The text goes on with a point or an exponent. -/
def startsWithFraction : List Char → Bool
  | c :: _ => c == '.' || c == 'e' || c == 'E'
  | [] => false

/-- A number after its sign. -/
def readMagnitude (negative : Bool) : Reader Number := fun cs =>
  match cs with
  | [] => throw .endInValue
  | '0' :: rest =>
    if startsWithDigit rest then throw .badNumber
    else if startsWithFraction rest then do
      let (x, rest) ← readFraction negative 0 0 rest
      return (.real x, rest)
    else return (wholeNumber negative 0, rest)
  | c :: _ =>
    if !c.isDigit then throw .badNumber
    else
      let (significand, _, rest) := gather 0 0 cs
      if startsWithDigit rest then do
        let dropped := rest.takeWhile Char.isDigit
        let (x, rest) ← readFraction negative significand dropped.length (rest.drop dropped.length)
        return (.real x, rest)
      else if startsWithFraction rest then do
        let (x, rest) ← readFraction negative significand 0 rest
        return (.real x, rest)
      else return (wholeNumber negative significand, rest)

/-- A number. -/
def readNumber : Reader Number
  | '-' :: cs => readMagnitude true cs
  | cs => readMagnitude false cs

end DeadReckoning.Json
