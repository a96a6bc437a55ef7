import DeadReckoning.Json.Reader

namespace DeadReckoning.Json

/-!
# Passing over JSON values

A value that nobody asked for is passed over without being kept. Only its outline is checked: there
is no bound on its nesting or on the size of its numbers. The arrays and objects that are open are
held on a stack.

* `Enclosure` — an array or an object that is open
* `passNumber` — the text after a number
* `passValue` — the text after any value
-/

/-- An open array or object. -/
inductive Enclosure where
  | array
  | object
  deriving DecidableEq

namespace Enclosure

/-- The character that closes it. -/
def closer : Enclosure → Char
  | array => ']'
  | object => '\x7d'

/-- The text ends inside it. -/
def endFault : Enclosure → Fault
  | array => .endInArray
  | object => .endInObject

/-- It neither goes on nor ends after one of its values. -/
def separatorFault : Enclosure → Fault
  | array => .expectedCommaOrBracket
  | object => .expectedCommaOrBrace

end Enclosure

/-- The text after an exponent, given from behind its `e`. -/
def passExponent (cs : List Char) : Except Fault (List Char) :=
  let ds := (takeSign cs).2
  if startsWithDigit ds then .ok (ds.dropWhile Char.isDigit) else .error .badNumber

/-- The text after an exponent, if there is one. -/
def passScale : List Char → Except Fault (List Char)
  | 'e' :: cs => passExponent cs
  | 'E' :: cs => passExponent cs
  | cs => .ok cs

/-- The text after a fraction and an exponent, each of which may be missing. -/
def passFraction : List Char → Except Fault (List Char)
  | '.' :: cs =>
    if startsWithDigit cs then passScale (cs.dropWhile Char.isDigit) else .error .badNumber
  | cs => passScale cs

/-- The text after a number without sign. -/
def passNumber : List Char → Except Fault (List Char)
  | '0' :: cs => if startsWithDigit cs then .error .badNumber else passFraction cs
  | cs => if startsWithDigit cs then passFraction (cs.dropWhile Char.isDigit) else .error .badNumber

/-- The text after a member's name and colon, from its opening quote on. -/
def passKey (cs : List Char) : Except Fault (List Char) :=
  match skipSpace cs with
  | [] => .error .endInObject
  | '"' :: rest => do readColon (← passText rest)
  | _ => .error .keyNotText

/-- A value or the start of one: the enclosure that it opens if it opens one, and the text after
that. -/
def passToken : Reader (Option Enclosure) := fun cs =>
  match skipSpace cs with
  | [] => .error .endInValue
  | 'n' :: rest => do return (none, ← readWord "ull".toList rest)
  | 't' :: rest => do return (none, ← readWord "rue".toList rest)
  | 'f' :: rest => do return (none, ← readWord "alse".toList rest)
  | '-' :: rest => do return (none, ← passNumber rest)
  | '"' :: rest => do return (none, ← passText rest)
  | '[' :: rest => .ok (some .array, rest)
  | '\x7b' :: rest => .ok (some .object, rest)
  | c :: rest =>
    if c.isDigit then do return (none, ← passNumber (c :: rest)) else .error .expectedValue

/-- What to do next inside the enclosures that are open. -/
inductive Pass where
  /-- A value follows. -/
  | value
  /-- The innermost enclosure has just been opened. -/
  | opened
  /-- A value of the innermost enclosure has just ended. -/
  | closed

/-- The text after the value that is being passed over, in at most `budget` steps. The enclosures
that are open are listed from the inside. -/
def passOpen : (budget : Nat) → Pass → List Enclosure → List Char → Except Fault (List Char)
  | 0, _, _, _ => .error .endInValue
  | _ + 1, .closed, [], cs => .ok cs
  | _ + 1, .opened, [], cs => .ok cs
  | budget + 1, .value, stack, cs => do
    match ← passToken cs with
    | (none, rest) => passOpen budget .closed stack rest
    | (some enclosure, rest) => passOpen budget .opened (enclosure :: stack) rest
  | budget + 1, .closed, enclosure :: outer, cs =>
    match skipSpace cs with
    | [] => .error enclosure.endFault
    | c :: rest =>
      if c = enclosure.closer then passOpen budget .closed outer rest
      else if c = ',' then do
        let rest ← if enclosure = .object then passKey rest else pure rest
        passOpen budget .value (enclosure :: outer) rest
      else .error enclosure.separatorFault
  | budget + 1, .opened, enclosure :: outer, cs =>
    match skipSpace cs with
    | [] => .error enclosure.endFault
    | c :: rest =>
      if c = enclosure.closer then passOpen budget .closed outer rest
      else do
        let rest ← if enclosure = .object then passKey (c :: rest) else pure (c :: rest)
        passOpen budget .value (enclosure :: outer) rest

/-- The text after any value. -/
def passValue (budget : Nat) (cs : List Char) : Except Fault (List Char) :=
  passOpen (2 * budget) .value [] cs

end DeadReckoning.Json
