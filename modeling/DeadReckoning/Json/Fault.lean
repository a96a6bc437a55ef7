import DeadReckoning.Json.Layout
import DeadReckoning.Json.Value
import DeadReckoning.Text.Quoted

namespace DeadReckoning.Json

/-!
# Faults of JSON text — why it was not accepted

A fault is either one of grammar or a value that is not of the wanted form.

* `Found` — what stood in the text
* `Wanted` — what was called for
* `Fault` — the causes
* `Fault.message` — their wording
-/

/-- What stood in the text, as far as a message tells it. -/
inductive Found where
  | null
  | bool (b : Bool)
  | number (n : Number)
  | text (s : String)
  | sequence
  | map

/-- What was called for. -/
inductive Wanted where
  /-- A natural number of 64 bits. -/
  | natural
  | real
  | sequence
  | unit
  | textOrMap
  | singleKeyMap
  | record (name : String)
  | recordOf (name : String) (fields : Nat)
  | shorterArray

/-- Why a text was not accepted. -/
inductive Fault where
  | endInArray
  | endInObject
  | endInText
  | endInValue
  | expectedColon
  | expectedCommaOrBracket
  | expectedCommaOrBrace
  | expectedWord
  | expectedValue
  | badEscape
  | badNumber
  | numberOutOfRange
  | controlCharacter
  | keyNotText
  | trailingComma
  | trailingCharacters
  /-- The first half of a pair of escapes without the second. -/
  | halfPair
  /-- An escape for the second half of a pair by itself, or not where one must stand. -/
  | strayHalf
  | tooDeep
  | missingField (name : String)
  | repeatedField (name : String)
  | wrongType (found : Found) (wanted : Wanted)
  | wrongValue (found : Found) (wanted : Wanted)
  | wrongLength (length : Nat) (wanted : Wanted)
  | unknownCase (name : String) (known : List String)

/-- What a value is, for a message. -/
def Value.found : Value → Found
  | null => .null
  | bool b => .bool b
  | number n => .number n
  | text s => .text s
  | array _ => .sequence
  | object _ => .map

/-- A name as messages show it. -/
def backquoted (s : String) : String := "`" ++ s ++ "`"

namespace Found

/-- The wording of what was found. -/
def describe : Found → String
  | null => "null"
  | bool b => "boolean " ++ backquoted (if b then "true" else "false")
  | number (.natural n) => "integer " ++ backquoted (toString n.toNat)
  | number (.negative magnitude) => "integer " ++ backquoted ("-" ++ toString magnitude.toNat)
  | number (.real x) => "floating point " ++ backquoted (String.ofList (writeFloat x))
  | text s => "string " ++ Text.quoted s
  | sequence => "sequence"
  | map => "map"

end Found

namespace Wanted

/-- The wording of what was called for. -/
def describe : Wanted → String
  | natural => "u64"
  | real => "f64"
  | sequence => "a sequence"
  | unit => "unit"
  | textOrMap => "string or map"
  | singleKeyMap => "map with a single key"
  | record name => "struct " ++ name
  | recordOf name fields => "struct " ++ name ++ " with " ++ toString fields ++ " elements"
  | shorterArray => "fewer elements in array"

end Wanted

namespace Fault

/-- The wording of a fault. -/
def message : Fault → String
  | endInArray => "EOF while parsing a list"
  | endInObject => "EOF while parsing an object"
  | endInText => "EOF while parsing a string"
  | endInValue => "EOF while parsing a value"
  | expectedColon => "expected `:`"
  | expectedCommaOrBracket => "expected `,` or `]`"
  | expectedCommaOrBrace => "expected `,` or `\x7d`"
  | expectedWord => "expected ident"
  | expectedValue => "expected value"
  | badEscape => "invalid escape"
  | badNumber => "invalid number"
  | numberOutOfRange => "number out of range"
  | controlCharacter => "control character (\\u0000-\\u001F) found while parsing a string"
  | keyNotText => "key must be a string"
  | trailingComma => "trailing comma"
  | trailingCharacters => "trailing characters"
  | halfPair => "unexpected end of hex escape"
  | strayHalf => "lone leading surrogate in hex escape"
  | tooDeep => "recursion limit exceeded"
  | missingField name => "missing field " ++ backquoted name
  | repeatedField name => "duplicate field " ++ backquoted name
  | wrongType found wanted => "invalid type: " ++ found.describe ++ ", expected " ++ wanted.describe
  | wrongValue found wanted =>
    "invalid value: " ++ found.describe ++ ", expected " ++ wanted.describe
  | wrongLength length wanted =>
    "invalid length " ++ toString length ++ ", expected " ++ wanted.describe
  | unknownCase name known =>
    "unknown variant " ++ backquoted name ++ ", expected one of " ++
      ", ".intercalate (known.map backquoted)

end Fault

end DeadReckoning.Json
