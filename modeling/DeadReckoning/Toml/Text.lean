namespace DeadReckoning.Toml

/-!
# TOML text — blanks, comments and strings

A step of reading gives what was read and the text after it, or nothing if the text is not TOML.

* `skipBlanks`, `skipVoid`, `endLine?` — what stands between values and lines
* `readText` — a string in any of its four forms
* `readName` — one part of a key
-/

/-- A step of reading. -/
abbrev Reader (β : Type) := List Char → Option (β × List Char)

/-- A space or a tab. -/
def isBlank (c : Char) : Bool := c == ' ' || c == '\t'

/-- A character that can stand in comments and strings: any but control characters, but the tab. -/
def isPlain (c : Char) : Bool := c == '\t' || (0x20 ≤ c.toNat && c.toNat != 0x7f)

/-- The text after spaces and tabs. -/
def skipBlanks (cs : List Char) : List Char := cs.dropWhile isBlank

/-- The text after blanks, ends of lines and comments. -/
def skipVoid : (inComment : Bool) → List Char → List Char
  | _, '\n' :: cs => skipVoid false cs
  | _, '\r' :: '\n' :: cs => skipVoid false cs
  | true, c :: cs => if isPlain c then skipVoid true cs else c :: cs
  | false, c :: cs =>
    if isBlank c then skipVoid false cs else if c = '#' then skipVoid true cs else c :: cs
  | _, [] => []

/-- The text after the end of a line. -/
def endOfLine? : List Char → Option (List Char)
  | [] => some []
  | '\n' :: cs => some cs
  | '\r' :: '\n' :: cs => some cs
  | _ => none

/-- The text after a line on which nothing but a comment may still stand. -/
def endLine? (cs : List Char) : Option (List Char) :=
  match skipBlanks cs with
  | '#' :: rest => endOfLine? (rest.dropWhile isPlain)
  | rest => endOfLine? rest

/-- The value of a hexadecimal digit of either case. -/
def hexDigit? (c : Char) : Option Nat :=
  if c.isDigit then some (c.toNat - '0'.toNat)
  else if 'a' ≤ c && c ≤ 'f' then some (c.toNat - 'a'.toNat + 10)
  else if 'A' ≤ c && c ≤ 'F' then some (c.toNat - 'A'.toNat + 10)
  else none

/-- The character whose number is written in `count` hexadecimal digits. -/
def numberedChar? (count : Nat) (cs : List Char) : Option Char := do
  let ds ← (cs.take count).mapM hexDigit?
  let n := ds.foldl (fun n d => n * 16 + d) 0
  if ds.length = count && n.isValidChar then some (Char.ofNat n) else none

/-- An escape after its backslash: the character that it stands for, and its length. -/
def escapeAt? : List Char → Option (Char × Nat)
  | 'b' :: _ => some ('\x08', 1)
  | 't' :: _ => some ('\t', 1)
  | 'n' :: _ => some ('\n', 1)
  | 'f' :: _ => some ('\x0c', 1)
  | 'r' :: _ => some ('\r', 1)
  | '"' :: _ => some ('"', 1)
  | '\\' :: _ => some ('\\', 1)
  | 'u' :: cs => (numberedChar? 4 cs).map (·, 5)
  | 'U' :: cs => (numberedChar? 8 cs).map (·, 9)
  | _ => none

/-- How a string is delimited. -/
structure Quotes where
  mark : Char
  /-- A backslash starts an escape. -/
  escapes : Bool
  /-- The string may span lines and ends at three marks. -/
  isLong : Bool

/-- How many characters blanks and ends of lines take at the start of a text. -/
def voidLength : List Char → Nat
  | '\n' :: cs => voidLength cs + 1
  | '\r' :: '\n' :: cs => voidLength cs + 2
  | c :: cs => if isBlank c then voidLength cs + 1 else 0
  | [] => 0

/-- The length of a joint of two lines after its backslash: blanks up to the end of the line, and
all blanks and ends of lines after that. -/
def jointLength? (cs : List Char) : Option Nat :=
  match skipBlanks cs with
  | '\n' :: _ | '\r' :: '\n' :: _ => some (voidLength cs)
  | _ => none

/-- A character added in front of a string that was read. -/
def prepend (c : Char) : Option (List Char × List Char) → Option (List Char × List Char) :=
  Option.map fun (s, rest) => (c :: s, rest)

/-- The characters of a string up to its end, after passing over `skip` characters. -/
def readChars (quotes : Quotes) : (skip : Nat) → Reader (List Char)
  | _, [] => none
  | skip + 1, _ :: cs => readChars quotes skip cs
  | 0, c :: cs =>
    if c = quotes.mark then
      if quotes.isLong then
        let run := 1 + (cs.takeWhile (· = quotes.mark)).length
        if run < 3 then prepend c (readChars quotes 0 cs)
        else
          let taken := min run 5
          some (List.replicate (taken - 3) c, cs.drop (taken - 1))
      else some ([], cs)
    else if c = '\\' && quotes.escapes then
      match (if quotes.isLong then jointLength? cs else none) with
      | some length => readChars quotes length cs
      | none =>
        match escapeAt? cs with
        | some (d, length) => prepend d (readChars quotes length cs)
        | none => none
    else if isPlain c then prepend c (readChars quotes 0 cs)
    else if quotes.isLong && c = '\n' then prepend c (readChars quotes 0 cs)
    else if quotes.isLong && c = '\r' && cs.head? = some '\n' then readChars quotes 0 cs
    else none

/-- The text after an end of line right behind the opening marks of a long string. -/
def dropFirstEnd : List Char → List Char
  | '\n' :: cs => cs
  | '\r' :: '\n' :: cs => cs
  | cs => cs

/-- A string on one line. -/
def readShortText : Reader String
  | '"' :: cs => (readChars ⟨'"', true, false⟩ 0 cs).map fun (s, rest) => (String.ofList s, rest)
  | '\'' :: cs => (readChars ⟨'\'', false, false⟩ 0 cs).map fun (s, rest) => (String.ofList s, rest)
  | _ => none

/-- A string. -/
def readText : Reader String
  | '"' :: '"' :: '"' :: cs =>
    (readChars ⟨'"', true, true⟩ 0 (dropFirstEnd cs)).map fun (s, rest) => (String.ofList s, rest)
  | '\'' :: '\'' :: '\'' :: cs =>
    (readChars ⟨'\'', false, true⟩ 0 (dropFirstEnd cs)).map fun (s, rest) => (String.ofList s, rest)
  | cs => readShortText cs

/-- A character of a key without quotes. -/
def isNameChar (c : Char) : Bool := c.isAlphanum || c == '_' || c == '-'

/-- One part of a key. -/
def readName : Reader String := fun cs =>
  match cs with
  | '"' :: _ | '\'' :: _ => readShortText cs
  | _ =>
    let name := cs.takeWhile isNameChar
    if name.isEmpty then none else some (String.ofList name, cs.dropWhile isNameChar)

end DeadReckoning.Toml
