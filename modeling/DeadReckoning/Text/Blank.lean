namespace DeadReckoning.Text

/-!
# Blank text — lines that hold nothing but white space

* `isBlankChar` — the property White_Space of the character standard
* `isBlank` — a text of such characters
* `lines` — the lines of a text, without their ends
-/

/-- A character that counts as white space in any script. -/
def isBlankChar (c : Char) : Bool :=
  let n := c.toNat
  (9 ≤ n && n ≤ 13) || n == 0x20 || n == 0x85 || n == 0xa0 || n == 0x1680 ||
    (0x2000 ≤ n && n ≤ 0x200a) || n == 0x2028 || n == 0x2029 || n == 0x202f || n == 0x205f ||
    n == 0x3000

/-- Nothing but white space. -/
def isBlank (s : List Char) : Bool := s.all isBlankChar

/-- A line without the carriage return at its end. -/
def trimReturn (line : List Char) : List Char :=
  match line.getLast? with
  | some '\r' => line.dropLast
  | _ => line

/-- The lines of the rest of a text, where `line` holds the start of the first one in reverse. -/
def linesFrom (line : List Char) : List Char → List (List Char)
  | [] => if line.isEmpty then [] else [line.reverse]
  | '\n' :: rest => trimReturn line.reverse :: linesFrom [] rest
  | c :: rest => linesFrom (c :: line) rest

/-- The lines of a text: each ends with a line feed, or a carriage return and a line feed; the last
may end with the text. -/
def lines (s : List Char) : List (List Char) := linesFrom [] s

end DeadReckoning.Text
