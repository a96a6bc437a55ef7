import DeadReckoning.Toml.Number

namespace DeadReckoning.Toml

/-!
# TOML documents

A document is read line by line into sections: what stands before the first header, and what follows
each header. The sections are then put together in their order.

* `readValue` — a value
* `readKey` — a key, which may be dotted
* `Section` — a header with its entries
* `parse` — the entries at the top of a document
-/

/-- Arrays and inline tables can be nested this deep. -/
def greatestDepth : Nat := 79

/-- Keys can have this many parts. -/
def longestKey : Nat := 79

/-- The parts of a key after the first. -/
def readKeyParts : (budget : Nat) → Reader (List String)
  | 0, _ => none
  | budget + 1, cs => do
    let (name, rest) ← readName (skipBlanks cs)
    match skipBlanks rest with
    | '.' :: rest =>
      let (names, rest) ← readKeyParts budget rest
      return (name :: names, rest)
    | rest => return ([name], rest)

/-- A key: the way to its table, and its last part. -/
def readKey (cs : List Char) : Option ((List String × String) × List Char) := do
  let (names, rest) ← readKeyParts longestKey cs
  let last ← names.getLast?
  return ((names.dropLast, last), rest)

/-- A key, an equals sign and a value. -/
def readEntry (value : Reader Node) (cs : List Char) :
    Option ((List String × String × Node) × List Char) := do
  let ((path, key), rest) ← readKey cs
  let rest ← expect '=' rest
  let (v, rest) ← value (skipBlanks rest)
  return ((path, key, v), rest)

/-- The rest of an array after its opening bracket or a comma. -/
def readItems (item : Reader Node) : (budget : Nat) → Reader (List Node)
  | 0, _ => none
  | budget + 1, cs =>
    match skipVoid false cs with
    | ']' :: rest => some ([], rest)
    | cs => do
      let (x, rest) ← item cs
      match skipVoid false rest with
      | ',' :: rest =>
        let (xs, rest) ← readItems item budget rest
        return (x :: xs, rest)
      | ']' :: rest => return ([x], rest)
      | _ => none

/-- The rest of an inline table that holds `entries` so far. -/
def readInline (value : Reader Node) : (budget : Nat) → Entries → Reader Entries
  | 0, _, _ => none
  | budget + 1, entries, cs => do
    let ((path, key, v), rest) ← readEntry value cs
    let entries ← put path key v entries
    match skipBlanks rest with
    | ',' :: rest => readInline value budget entries rest
    | '\x7d' :: rest => return (entries, rest)
    | _ => none

/-- An inline table after its opening brace. -/
def readInlineTable (value : Reader Node) (budget : Nat) (cs : List Char) :
    Option (Node × List Char) :=
  match skipBlanks cs with
  | '\x7d' :: rest => some (.table .inline [], rest)
  | cs => (readInline value budget [] cs).map fun (entries, rest) => (.table .inline entries, rest)

/-- A value whose parts are read by `nested`; without it none may be nested. -/
def readValueWith (budget : Nat) (nested : Option (Reader Node)) : Reader Node := fun cs =>
  match cs with
  | '"' :: _ | '\'' :: _ => (readText cs).map fun (s, rest) => (.text s, rest)
  | '[' :: rest => do
    let value ← nested
    let (items, rest) ← readItems value budget rest
    return (.array items, rest)
  | '\x7b' :: rest => do
    let value ← nested
    readInlineTable value budget rest
  | 't' :: 'r' :: 'u' :: 'e' :: rest => some (.bool true, rest)
  | 'f' :: 'a' :: 'l' :: 's' :: 'e' :: rest => some (.bool false, rest)
  | _ => if startsDate cs || startsTime cs then readMoment cs else readNumber cs

/-- A value with at most `depth` arrays and inline tables inside each other. -/
def readValue (budget : Nat) : (depth : Nat) → Reader Node
  | 0 => readValueWith budget none
  | depth + 1 => readValueWith budget (some (readValue budget depth))

/-- The header that a section stands under. -/
inductive Header where
  | none
  | table (path : List String) (key : String)
  | tableItem (path : List String) (key : String)

/-- A header and the entries below it. -/
structure Section where
  header : Header
  entries : List (List String × String × Node)

/-- A header after its opening bracket, and the text after its line. -/
def readHeader : Reader Header
  | '[' :: cs => do
    let ((path, key), rest) ← readKey cs
    let rest ← expect ']' (← expect ']' rest)
    return (.tableItem path key, ← endLine? rest)
  | cs => do
    let ((path, key), rest) ← readKey cs
    return (.table path key, ← endLine? (← expect ']' rest))

/-- The sections of a document, where `current` is open and holds its entries in reverse. -/
def readSections : (budget : Nat) → (current : Section) → List Char → Option (List Section)
  | 0, _, _ => none
  | budget + 1, current, cs =>
    match skipVoid false cs with
    | [] => some [{ current with entries := current.entries.reverse }]
    | '[' :: rest => do
      let (header, rest) ← readHeader rest
      let sections ← readSections budget ⟨header, []⟩ rest
      return { current with entries := current.entries.reverse } :: sections
    | cs => do
      let (entry, rest) ← readEntry (readValue budget greatestDepth) cs
      let rest ← endLine? rest
      readSections budget { current with entries := entry :: current.entries } rest

/-- The entries of a section added to those of its table. -/
def Section.fill (part : Section) (entries : Entries) : Option Entries :=
  part.entries.foldlM (fun entries (path, key, v) => put path key v entries) entries

/-- A section added to the document before it. -/
def Section.add (root : Entries) (part : Section) : Option Entries :=
  match part.header with
  | .none => part.fill root
  | .table path key => alongHeader (putTable key part.fill) path root
  | .tableItem path key => alongHeader (putTableItem key part.fill) path root

/-- The text after a byte order mark. -/
def dropMark : List Char → List Char
  | '\ufeff' :: cs => cs
  | cs => cs

/-- The entries at the top of a document; nothing if it is not well formed. -/
def parse (text : String) : Option Entries := do
  let cs := dropMark text.toList
  let sections ← readSections (cs.length + 1) ⟨.none, []⟩ cs
  sections.foldlM Section.add []

end DeadReckoning.Toml
