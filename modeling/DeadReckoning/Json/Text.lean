import DeadReckoning.Json.Number

namespace DeadReckoning.Json

/-!
# Reading JSON strings

The characters between two quotes are read one by one. An escape is decoded as a whole where it
starts; the characters that it spans are then passed over.

* `escapeAt` — an escape after its backslash: the character it stands for, and its length
* `readText` — a string after its opening quote
* `passText` — the same for a string whose contents do not matter, with pairs of escapes unchecked
-/

/-- The value of a hexadecimal digit of either case. -/
def hexValue? (c : Char) : Option Nat :=
  if c.isDigit then some (c.toNat - '0'.toNat)
  else if 'a' ≤ c && c ≤ 'f' then some (c.toNat - 'a'.toNat + 10)
  else if 'A' ≤ c && c ≤ 'F' then some (c.toNat - 'A'.toNat + 10)
  else none

/-- How many bytes a text takes. -/
def byteLength (cs : List Char) : Nat := (cs.map Char.utf8Size).foldr (· + ·) 0

/-- The number that four hexadecimal digits at the start of a text stand for. -/
def hexUnit (cs : List Char) : Except Fault Nat :=
  match (cs.take 4).mapM hexValue? with
  | some [a, b, c, d] => .ok (((a * 16 + b) * 16 + c) * 16 + d)
  | _ => .error (if byteLength (cs.take 4) < 4 then .endInText else .badEscape)

/-- The character of an escape of one letter. -/
def letterEscape? : Char → Option Char
  | '"' => some '"'
  | '\\' => some '\\'
  | '/' => some '/'
  | 'b' => some '\x08'
  | 'f' => some '\x0c'
  | 'n' => some '\n'
  | 'r' => some '\r'
  | 't' => some '\t'
  | _ => none

/-- The unit is the first half of a pair. -/
def isLeadingHalf (n : Nat) : Bool := 0xd800 ≤ n && n ≤ 0xdbff

/-- The unit is the second half of a pair. -/
def isTrailingHalf (n : Nat) : Bool := 0xdc00 ≤ n && n ≤ 0xdfff

/-- The second half of a pair of numeric escapes, from its backslash on. -/
def pairedUnit : List Char → Except Fault Nat
  | [] | ['\\'] => .error .endInText
  | '\\' :: 'u' :: cs => do
    let n ← hexUnit cs
    if isTrailingHalf n then pure n else throw .strayHalf
  | _ => .error .halfPair

/-- The escape after a backslash: the character that it stands for, and how many characters it
takes. -/
def escapeAt : List Char → Except Fault (Char × Nat)
  | [] => .error .endInText
  | 'u' :: cs => do
    let n ← hexUnit cs
    if isTrailingHalf n then throw .strayHalf
    else if isLeadingHalf n then
      let m ← pairedUnit (cs.drop 4)
      return (Char.ofNat (0x10000 + (n - 0xd800) * 0x400 + (m - 0xdc00)), 11)
    else return (Char.ofNat n, 5)
  | c :: _ =>
    match letterEscape? c with
    | some d => .ok (d, 1)
    | none => .error .badEscape

/-- The characters up to the closing quote, after passing over `skip` characters. -/
def readChars : (skip : Nat) → Reader (List Char)
  | _, [] => .error .endInText
  | skip + 1, _ :: cs => readChars skip cs
  | 0, c :: cs =>
    if c = '"' then .ok ([], cs)
    else if c = '\\' then do
      let (d, length) ← escapeAt cs
      let (ds, rest) ← readChars length cs
      return (d :: ds, rest)
    else if c.toNat < 0x20 then .error .controlCharacter
    else do
      let (ds, rest) ← readChars 0 cs
      return (c :: ds, rest)

/-- A string after its opening quote. -/
def readText : Reader String := fun cs => do
  let (ds, rest) ← readChars 0 cs
  return (String.ofList ds, rest)

/-- The length of an escape after its backslash, whatever character it stands for. -/
def escapeLength : List Char → Except Fault Nat
  | [] => .error .endInText
  | 'u' :: cs => do
    let _ ← hexUnit cs
    return 5
  | c :: _ => if (letterEscape? c).isSome then .ok 1 else .error .badEscape

/-- The text after the closing quote, after passing over `skip` characters. -/
def passChars : (skip : Nat) → List Char → Except Fault (List Char)
  | _, [] => .error .endInText
  | skip + 1, _ :: cs => passChars skip cs
  | 0, c :: cs =>
    if c = '"' then .ok cs
    else if c = '\\' then do
      let length ← escapeLength cs
      passChars length cs
    else if c.toNat < 0x20 then .error .controlCharacter
    else passChars 0 cs

/-- The text after a string, given from its first character. -/
def passText (cs : List Char) : Except Fault (List Char) := passChars 0 cs

end DeadReckoning.Json
