import DeadReckoning.Decimal.Literal
import DeadReckoning.Toml.Node
import DeadReckoning.Toml.Text

namespace DeadReckoning.Toml

/-!
# TOML numbers, dates and times

* `readMoment` — a date, a time of day, or both
* `readNumber` — an integer of 64 bits or a double
-/

/-! ### Dates and times -/

/-- A number of exactly `count` digits between two bounds. -/
def readFixed (count low high : Nat) : Reader Nat := fun cs =>
  let ds := cs.take count
  let n := decimalNumeral ds
  if ds.length = count && ds.all Char.isDigit && low ≤ n && n ≤ high then some (n, cs.drop count)
  else none

/-- The text after a certain character. -/
def expect (c : Char) : List Char → Option (List Char)
  | d :: cs => if d = c then some cs else none
  | [] => none

/-- How many days a month has. -/
def daysIn (year month : Nat) : Nat :=
  if month = 2 then
    if year % 4 = 0 && (year % 100 ≠ 0 || year % 400 = 0) then 29 else 28
  else if month = 4 || month = 6 || month = 9 || month = 11 then 30
  else 31

/-- The text after a date. -/
def passDate (cs : List Char) : Option (List Char) := do
  let (year, cs) ← readFixed 4 0 9999 cs
  let cs ← expect '-' cs
  let (month, cs) ← readFixed 2 1 12 cs
  let cs ← expect '-' cs
  let (_, cs) ← readFixed 2 1 (daysIn year month) cs
  return cs

/-- The text after an hour, a colon and a minute. -/
def passHourMinute (cs : List Char) : Option (List Char) := do
  let (_, cs) ← readFixed 2 0 23 cs
  let cs ← expect ':' cs
  let (_, cs) ← readFixed 2 0 59 cs
  return cs

/-- The text after a time of day; its seconds may have a fraction. -/
def passTime (cs : List Char) : Option (List Char) := do
  let cs ← passHourMinute cs
  let cs ← expect ':' cs
  let (_, cs) ← readFixed 2 0 60 cs
  match cs with
  | '.' :: rest =>
    if (rest.takeWhile Char.isDigit).isEmpty then some cs else some (rest.dropWhile Char.isDigit)
  | _ => some cs

/-- The text after the distance from universal time, if it is given. -/
def passOffset : List Char → Option (List Char)
  | 'Z' :: cs | 'z' :: cs => some cs
  | '+' :: cs | '-' :: cs => passHourMinute cs
  | cs => some cs

/-- The text goes on with an hour and a colon. -/
def startsTime (cs : List Char) : Bool :=
  match readFixed 2 0 23 cs with
  | some (_, ':' :: _) => true
  | _ => false

/-- The text goes on with a year and a dash. -/
def startsDate (cs : List Char) : Bool :=
  match readFixed 4 0 9999 cs with
  | some (_, '-' :: _) => true
  | _ => false

/-- A date with a time of day, if one follows. -/
def passDateTime (cs : List Char) : Option (List Char) := do
  let rest ← passDate cs
  match rest with
  | c :: after =>
    if (c = 'T' || c = 't' || c = ' ') && startsTime after then passOffset (← passTime after)
    else some rest
  | [] => some []

/-- A date, a time of day, or both. -/
def readMoment : Reader Node := fun cs =>
  (if startsDate cs then passDateTime cs else passTime cs).map fun rest => (.moment, rest)

/-! ### Numbers -/

/-- Digits in groups: an underline may stand between two of them. -/
def readGroups (isDigit : Char → Bool) : (first : Bool) → Reader (List Char)
  | true, [] => none
  | false, [] => some ([], [])
  | true, c :: cs =>
    if isDigit c then (readGroups isDigit false cs).map fun (ds, rest) => (c :: ds, rest) else none
  | false, c :: cs =>
    if isDigit c then (readGroups isDigit false cs).map fun (ds, rest) => (c :: ds, rest)
    else if c = '_' then readGroups isDigit true cs
    else some ([], c :: cs)

/-- The digits of a decimal whole number, with no zero in front. -/
def readWhole : Reader (List Char)
  | '0' :: cs => some (['0'], cs)
  | cs => readGroups Char.isDigit true cs

/-- An exponent after its letter. -/
def readExponent (cs : List Char) : Option (Int × List Char) := do
  let (negative, ds) := takeSign cs
  let (ds, rest) ← readGroups Char.isDigit true ds
  let n : Int := decimalNumeral ds
  return (if negative then -n else n, rest)

/-- A double from its parts. One that is too large is no number, unless it is negative. -/
def makeReal (negative : Bool) (ds places : List Char) (exponent : Int) : Option Node :=
  let x := decimalValue negative (decimalNumeral (ds ++ places)) (exponent - places.length)
  if x.isInf && !negative then none else some (.real x)

/-- A double after its whole part and point. -/
def readPlaces (negative : Bool) (ds cs : List Char) : Option (Node × List Char) := do
  let (places, rest) ← readGroups Char.isDigit true cs
  let (exponent, rest) ← match rest with
    | 'e' :: cs | 'E' :: cs => readExponent cs
    | _ => some (0, rest)
  return (← makeReal negative ds places exponent, rest)

/-- An integer, if it fits 64 bits with sign. -/
def makeInteger (negative : Bool) (n : Nat) : Option Node :=
  let greatest := if negative then 0x8000000000000000 else 0x7fffffffffffffff
  if n ≤ greatest then some (.integer (if negative then -n else n)) else none

/-- An integer after a prefix that tells its base. -/
def readBased (base : Nat) (isDigit : Char → Bool) : Reader Node := fun cs => do
  let (ds, rest) ← readGroups isDigit true cs
  let n := numeral base (fun c => (hexDigit? c).getD 0) 0 ds
  return (← makeInteger false n, rest)

/-- A number after its sign. -/
def readUnsigned (negative : Bool) (cs : List Char) : Option (Node × List Char) := do
  match cs with
  | 'i' :: 'n' :: 'f' :: rest => return (.real (if negative then -(1.0 / 0.0) else 1.0 / 0.0), rest)
  | 'n' :: 'a' :: 'n' :: rest => return (.real (0.0 / 0.0), rest)
  | _ =>
    let (ds, rest) ← readWhole cs
    match rest with
    | '.' :: rest => readPlaces negative ds rest
    | 'e' :: rest | 'E' :: rest =>
      let (exponent, rest) ← readExponent rest
      return (← makeReal negative ds [] exponent, rest)
    | _ => return (← makeInteger negative (decimalNumeral ds), rest)

/-- A number. -/
def readNumber : Reader Node
  | '0' :: 'x' :: cs => readBased 16 (fun c => (hexDigit? c).isSome) cs
  | '0' :: 'o' :: cs => readBased 8 (fun c => '0' ≤ c && c ≤ '7') cs
  | '0' :: 'b' :: cs => readBased 2 (fun c => c == '0' || c == '1') cs
  | cs =>
    let (negative, rest) := takeSign cs
    readUnsigned negative rest

end DeadReckoning.Toml
