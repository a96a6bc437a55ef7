namespace DeadReckoning

/-!
# Decimal literals — reading numbers from text

* `wordLiteral?` — a natural number below `2 ^ 64`
* `doubleLiteral?` — a decimal fraction or a name of infinity or NaN, rounded to the nearest double
* `decimalValue` — the double nearest to `± coefficient · 10 ^ exponent`
-/

/-- The value of a decimal digit. -/
def digitValue (c : Char) : Nat := c.toNat - '0'.toNat

/-- The number that a list of digits stands for in `base`, continuing from `start`. -/
def numeral (base : Nat) (value : Char → Nat) (start : Nat) (ds : List Char) : Nat :=
  ds.foldl (fun n c => n * base + value c) start

/-- The number that decimal digits stand for. -/
def decimalNumeral (ds : List Char) : Nat := numeral 10 digitValue 0 ds

/-- The double nearest to `± coefficient · 10 ^ exponent`. -/
def decimalValue (negative : Bool) (coefficient : Nat) (exponent : Int) : Float :=
  let magnitude := Float.ofScientific coefficient (exponent < 0) exponent.natAbs
  if negative then -magnitude else magnitude

/-- A natural number below `2 ^ 64`: decimal digits after an optional plus. -/
def wordLiteral? (cs : List Char) : Option UInt64 :=
  let ds := match cs with
    | '+' :: rest => rest
    | _ => cs
  if ds.isEmpty || ds.any (!·.isDigit) then none
  else
    let n := decimalNumeral ds
    if n < UInt64.size then some (UInt64.ofNat n) else none

/-- The sign in front of a number, and what follows it. -/
def takeSign : List Char → Bool × List Char
  | '-' :: rest => (true, rest)
  | '+' :: rest => (false, rest)
  | cs => (false, cs)

/-- The exponent part of a number: nothing, or an `e` with a signed number, up to the end. -/
def exponentPart? : List Char → Option Int
  | [] => some 0
  | c :: cs =>
    if c == 'e' || c == 'E' then
      let (negative, ds) := takeSign cs
      if ds.isEmpty || ds.any (!·.isDigit) then none
      else
        let n : Int := decimalNumeral ds
        some (if negative then -n else n)
    else none

/-- A decimal fraction without its sign: digits around an optional point, then an exponent part. -/
def fraction? (negative : Bool) (cs : List Char) : Option Float :=
  let whole := cs.takeWhile Char.isDigit
  let (places, rest) := match cs.dropWhile Char.isDigit with
    | '.' :: rest => (rest.takeWhile Char.isDigit, rest.dropWhile Char.isDigit)
    | rest => ([], rest)
  if whole.isEmpty && places.isEmpty then none
  else do
    let exponent ← exponentPart? rest
    return decimalValue negative (decimalNumeral (whole ++ places)) (exponent - places.length)

/-- A double, rounded to nearest: a signed decimal fraction, or `inf`, `infinity` or `nan` in
letters of either case. -/
def doubleLiteral? (cs : List Char) : Option Float :=
  let (negative, rest) := takeSign cs
  let name := String.ofList (rest.map Char.toLower)
  if name == "inf" || name == "infinity" then
    some (if negative then -(1.0 / 0.0) else 1.0 / 0.0)
  else if name == "nan" then some (0.0 / 0.0)
  else fraction? negative rest

end DeadReckoning
