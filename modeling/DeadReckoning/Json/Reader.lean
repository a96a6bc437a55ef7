import DeadReckoning.Json.Text

namespace DeadReckoning.Json

/-!
# Reading JSON values

Arrays and objects may be nested to a given depth. Of several faults the first in the text counts.

* `moreElements`, `nextKey?` — the separators of arrays and objects
* `readItems`, `readMembers` — the contents of an array and an object
* `readValue` — any value
* `readDocument` — a text that holds one value and nothing else
-/

/-- White space between tokens. -/
def isSpace (c : Char) : Bool := c == ' ' || c == '\n' || c == '\t' || c == '\r'

/-- The text from the next token on. -/
def skipSpace (cs : List Char) : List Char := cs.dropWhile isSpace

/-- The rest of a word of which `letters` are still to come. -/
def readWord (letters : List Char) (cs : List Char) : Except Fault (List Char) :=
  match letters, cs with
  | [], cs => .ok cs
  | _ :: _, [] => .error .endInValue
  | l :: ls, c :: cs => if c = l then readWord ls cs else .error .expectedWord

/-- Whether an array goes on. If so, the rest starts at the next element, else at the bracket. -/
def moreElements (first : Bool) : Reader Bool := fun cs =>
  match skipSpace cs with
  | [] => .error .endInArray
  | ']' :: rest => .ok (false, ']' :: rest)
  | c :: rest =>
    if first then .ok (true, c :: rest)
    else if c = ',' then
      match skipSpace rest with
      | [] => .error .endInValue
      | ']' :: _ => .error .trailingComma
      | rest => .ok (true, rest)
    else .error .expectedCommaOrBracket

/-- The end of an array. -/
def closeArray : List Char → Except Fault (List Char) := fun cs =>
  match skipSpace cs with
  | [] => .error .endInArray
  | ']' :: rest => .ok rest
  | ',' :: rest =>
    match skipSpace rest with
    | ']' :: _ => .error .trailingComma
    | _ => .error .trailingCharacters
  | _ => .error .trailingCharacters

/-- A member's name from its opening quote on; `fault` if there is no quote. -/
def keyOr (fault : Fault) : Reader (Option String)
  | '"' :: rest => do
    let (key, rest) ← readText rest
    return (some key, rest)
  | _ => .error fault

/-- The name of the next member of an object, `none` if the object ends; then the rest starts at the
brace. -/
def nextKey? (first : Bool) : Reader (Option String) := fun cs =>
  match skipSpace cs with
  | [] => .error .endInObject
  | '\x7d' :: rest => .ok (none, '\x7d' :: rest)
  | c :: rest =>
    if first then keyOr .keyNotText (c :: rest)
    else if c = ',' then
      match skipSpace rest with
      | [] => .error .endInValue
      | '\x7d' :: _ => .error .trailingComma
      | rest => keyOr .keyNotText rest
    else .error .expectedCommaOrBrace

/-- The colon after a name. -/
def readColon : List Char → Except Fault (List Char) := fun cs =>
  match skipSpace cs with
  | [] => .error .endInObject
  | ':' :: rest => .ok rest
  | _ => .error .expectedColon

/-- The end of an object. -/
def closeObject : List Char → Except Fault (List Char) := fun cs =>
  match skipSpace cs with
  | [] => .error .endInObject
  | '\x7d' :: rest => .ok rest
  | ',' :: _ => .error .trailingComma
  | _ => .error .trailingCharacters

/-- The elements of an array after its opening bracket, at most `budget` of them. -/
def readItems {β : Type} (item : Reader β) : (budget : Nat) → (first : Bool) → Reader (List β)
  | 0, _ => fun _ => .error .endInArray
  | budget + 1, first => fun cs => do
    match ← moreElements first cs with
    | (false, rest) =>
      let rest ← closeArray rest
      return ([], rest)
    | (true, rest) =>
      let (x, rest) ← item rest
      let (xs, rest) ← readItems item budget false rest
      return (x :: xs, rest)

/-- The members of an object after its opening brace, at most `budget` of them. -/
def readMembers {β : Type} (value : Reader β) :
    (budget : Nat) → (first : Bool) → Reader (List (String × β))
  | 0, _ => fun _ => .error .endInObject
  | budget + 1, first => fun cs => do
    match ← nextKey? first cs with
    | (none, rest) =>
      let rest ← closeObject rest
      return ([], rest)
    | (some key, rest) =>
      let rest ← readColon rest
      let (x, rest) ← value rest
      let (members, rest) ← readMembers value budget false rest
      return ((key, x) :: members, rest)

/-- A value whose elements and members are read by `nested`; without it none may be nested. -/
def readValueWith (budget : Nat) (nested : Option (Reader Value)) : Reader Value := fun cs =>
  match skipSpace cs with
  | [] => .error .endInValue
  | 'n' :: rest => do return (.null, ← readWord "ull".toList rest)
  | 't' :: rest => do return (.bool true, ← readWord "rue".toList rest)
  | 'f' :: rest => do return (.bool false, ← readWord "alse".toList rest)
  | '"' :: rest => do
    let (s, rest) ← readText rest
    return (.text s, rest)
  | '[' :: rest =>
    match nested with
    | none => .error .tooDeep
    | some value => do
      let (items, rest) ← readItems value budget true rest
      return (.array items, rest)
  | '\x7b' :: rest =>
    match nested with
    | none => .error .tooDeep
    | some value => do
      let (members, rest) ← readMembers value budget true rest
      return (.object members, rest)
  | c :: rest =>
    if c == '-' || c.isDigit then do
      let (n, rest) ← readNumber (c :: rest)
      return (.number n, rest)
    else .error .expectedValue

/-- A value with at most `depth` arrays and objects inside each other. -/
def readValue (budget : Nat) : (depth : Nat) → Reader Value
  | 0 => readValueWith budget none
  | depth + 1 => readValueWith budget (some (readValue budget depth))

/-- How deep arrays and objects may be nested in a document. -/
def greatestDepth : Nat := 127

/-- A text that holds one value. The reader is given a bound on how many things the text holds. -/
def readDocument {β : Type} (reader : (budget : Nat) → Reader β) (text : String) :
    Except Fault β := do
  let cs := text.toList
  let (x, rest) ← reader (cs.length + 1) cs
  if (skipSpace rest).isEmpty then return x else throw .trailingCharacters

/-- The value that a text holds. -/
def Value.parse (text : String) : Except Fault Value :=
  readDocument (fun budget => readValue budget greatestDepth) text

end DeadReckoning.Json
