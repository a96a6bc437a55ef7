import DeadReckoning.Json.Skip

namespace DeadReckoning.Json

/-!
# Reading JSON into records

Where the form of a value is known beforehand it is read straight from the text, so that the first
thing out of place is the fault reported. A record of two fields may be written as an object or as
an array of its fields; an object may hold other members, which are passed over, but no field twice.

* `readNatural`, `readReal`, `readOptional`, `readSequence`, `readCase` — values of known form
* `RecordField` — a field: its name, its reader, and what it is when it is missing
* `readPair` — a record of two fields
-/

/-- The fault of a text that goes on with a value of another form than the wanted one. A word, a
number or a string has to be well formed first. -/
def mismatch (wanted : Wanted) (cs : List Char) : Fault :=
  let found : Except Fault Found :=
    match cs with
    | 'n' :: rest => do
      let _ ← readWord "ull".toList rest
      return .null
    | 't' :: rest => do
      let _ ← readWord "rue".toList rest
      return .bool true
    | 'f' :: rest => do
      let _ ← readWord "alse".toList rest
      return .bool false
    | '"' :: rest => do return .text (← readText rest).1
    | '[' :: _ => .ok .sequence
    | '\x7b' :: _ => .ok .map
    | c :: _ =>
      if c == '-' || c.isDigit then do return .number (← readNumber cs).1 else .error .expectedValue
    | [] => .error .expectedValue
  match found with
  | .ok found => .wrongType found wanted
  | .error fault => fault

/-- A number, where one is wanted. -/
def readWantedNumber (wanted : Wanted) : Reader Number := fun cs =>
  match skipSpace cs with
  | [] => .error .endInValue
  | c :: rest =>
    if c == '-' || c.isDigit then readNumber (c :: rest) else .error (mismatch wanted (c :: rest))

/-- The number as a natural number of 64 bits. -/
def Number.toNatural : Number → Except Fault UInt64
  | .natural n => .ok n
  | .negative magnitude => .error (.wrongValue (.number (.negative magnitude)) .natural)
  | .real x => .error (.wrongType (.number (.real x)) .natural)

/-- A natural number of 64 bits. -/
def readNatural : Reader UInt64 := fun cs => do
  let (n, rest) ← readWantedNumber .natural cs
  return (← n.toNatural, rest)

/-- Any number, as a double. -/
def readReal : Reader Float := fun cs => do
  let (n, rest) ← readWantedNumber .real cs
  return (n.toFloat, rest)

/-- A value, or `null` for none. -/
def readOptional {β : Type} (reader : Reader β) : Reader (Option β) := fun cs =>
  match skipSpace cs with
  | 'n' :: rest => do return (none, ← readWord "ull".toList rest)
  | cs => do
    let (x, rest) ← reader cs
    return (some x, rest)

/-- An array of values that are read by `item`, where an array is wanted and may be nested. -/
def readSequence {β : Type} (budget : Nat) (item : Reader β) : Reader (List β) := fun cs =>
  match skipSpace cs with
  | [] => .error .endInValue
  | '[' :: rest => readItems item budget true rest
  | cs => .error (mismatch .sequence cs)

/-- `null`, where it is wanted. -/
def readUnit (cs : List Char) : Except Fault (List Char) :=
  match skipSpace cs with
  | [] => .error .endInValue
  | 'n' :: rest => readWord "ull".toList rest
  | cs => .error (mismatch .unit cs)

/-- A case by its name: a string, or an object with the name as its one key and `null` as value. -/
def readCase {β : Type} (resolve : String → Except Fault β) : Reader β := fun cs =>
  match skipSpace cs with
  | [] => .error .endInValue
  | '"' :: rest => do
    let (name, rest) ← readText rest
    return (← resolve name, rest)
  | '\x7b' :: rest =>
    match skipSpace rest with
    | [] => .error .endInObject
    | '\x7d' :: _ => .error .expectedValue
    | '"' :: rest => do
      let (name, rest) ← readText rest
      let case ← resolve name
      let rest ← readUnit (← readColon rest)
      match skipSpace rest with
      | [] => throw .endInObject
      | '\x7d' :: rest => return (case, rest)
      | _ => throw .expectedValue
    | _ => .error .keyNotText
  | _ => .error .expectedValue

/-- A field of a record. -/
structure RecordField (β : Type) where
  name : String
  read : Reader β
  /-- The value of a field that is not there, if it may be missing. -/
  default? : Option β

namespace RecordField

variable {β γ : Type}

/-- What a field is after all members were read. -/
def settle (field : RecordField β) (found : Option β) : Except Fault β :=
  match found.or field.default? with
  | some x => .ok x
  | none => .error (.missingField field.name)

/-- A field that was met again. -/
def once (field : RecordField β) (found : Option β) : Except Fault Unit :=
  if found.isSome then .error (.repeatedField field.name) else .ok ()

/-- A field of a record that is written as an array: the next element, if there is one. -/
def readElement (field : RecordField β) (first : Bool) (position : Nat) (wanted : Wanted) :
    Reader β := fun cs => do
  match ← moreElements first cs with
  | (true, rest) => field.read rest
  | (false, rest) =>
    match field.default? with
    | some x => return (x, rest)
    | none => throw (.wrongLength position wanted)

end RecordField

variable {β γ : Type}

/-- The members of an object after its opening brace, with the fields that were found already. -/
def readPairMembers (f : RecordField β) (g : RecordField γ) (space : Nat) :
    (budget : Nat) → (first : Bool) → Option β → Option γ → Reader (β × γ)
  | 0, _, _, _ => fun _ => .error .endInObject
  | budget + 1, first, x, y => fun cs => do
    match ← nextKey? first cs with
    | (none, rest) =>
      let x ← f.settle x
      let y ← g.settle y
      return ((x, y), ← closeObject rest)
    | (some key, rest) =>
      if key = f.name then
        f.once x
        let (x, rest) ← f.read (← readColon rest)
        readPairMembers f g space budget false (some x) y rest
      else if key = g.name then
        g.once y
        let (y, rest) ← g.read (← readColon rest)
        readPairMembers f g space budget false x (some y) rest
      else
        let rest ← passValue space (← readColon rest)
        readPairMembers f g space budget false x y rest

/-- The elements of an array after its opening bracket, as the fields of a record. -/
def readPairElements (record : String) (f : RecordField β) (g : RecordField γ) :
    Reader (β × γ) := fun cs => do
  let (x, rest) ← f.readElement true 0 (.recordOf record 2) cs
  let (y, rest) ← g.readElement false 1 (.recordOf record 2) rest
  return ((x, y), ← closeArray rest)

/-- A record of two fields. -/
def readPair (budget : Nat) (record : String) (f : RecordField β) (g : RecordField γ) :
    Reader (β × γ) := fun cs =>
  match skipSpace cs with
  | [] => .error .endInValue
  | '\x7b' :: rest => readPairMembers f g budget budget true none none rest
  | '[' :: rest => readPairElements record f g rest
  | cs => .error (mismatch (.record record) cs)

end DeadReckoning.Json
