namespace DeadReckoning.Toml

/-!
# TOML values and tables

* `Origin` — how a table came to be, which decides who may add to it
* `Node` — a value, a table, or an array of tables
* `putDotted` — a new value under a dotted key
* `putTable`, `putTableItem` — a new table under a header
-/

/-- How a table came to be. -/
inductive Origin where
  /-- By its own header. -/
  | header
  /-- On the way to the header of another table. -/
  | implied
  /-- On the way to a value with a dotted key. -/
  | dotted
  /-- Written in braces; nothing can be added to it from outside. -/
  | inline
  deriving DecidableEq

/-- What can stand under a key. -/
inductive Node where
  | text (s : String)
  | integer (n : Int)
  | real (x : Float)
  | bool (b : Bool)
  /-- A date, a time of day, or both; which one makes no difference. -/
  | moment
  | array (items : List Node)
  | table (origin : Origin) (entries : List (String × Node))
  /-- Tables with headers in double brackets, the last one first. -/
  | tables (all : List (List (String × Node)))

/-- What stands under the keys of a table. -/
abbrev Entries := List (String × Node)

/-- What stands under a key. -/
def Entries.get? (entries : Entries) (key : String) : Option Node := List.lookup key entries

/-- The entries with another value under a key, which is added if it is new. -/
def Entries.set (key : String) (value : Node) : Entries → Entries
  | [] => [(key, value)]
  | (k, v) :: rest => if k = key then (key, value) :: rest else (k, v) :: Entries.set key value rest

/-- The entries with a value under a key of their own; the key must be new. -/
def Entries.add? (entries : Entries) (key : String) (value : Node) : Option Entries :=
  if (entries.get? key).isSome then none else some (entries.set key value)

/-- A value under a dotted key: the tables on the way are opened or made. Tables with a header of
their own and inline tables are closed to dotted keys; the last table on the way must be one that
dotted keys made. -/
def putDotted (key : String) (value : Node) :
    (path : List String) → (last : Origin) → Entries → Option Entries
  | [], last, entries => if last = .dotted then entries.add? key value else none
  | step :: path, _, entries => do
    let inner ← match entries.get? step with
      | none => (putDotted key value path .dotted []).map (Node.table .dotted)
      | some (.table .dotted es) => (putDotted key value path .dotted es).map (Node.table .dotted)
      | some (.table .implied es) =>
        (putDotted key value path .implied es).map (Node.table .implied)
      | some (.tables (es :: rest)) =>
        (putDotted key value path .header es).map fun es => Node.tables (es :: rest)
      | _ => none
    return entries.set step inner

/-- A value under a key that may be dotted. -/
def put (path : List String) (key : String) (value : Node) (entries : Entries) : Option Entries :=
  if path.isEmpty then entries.add? key value else putDotted key value path .header entries

/-- A change to the entries of a table, given the path of its header without the last key. The
tables on the way are opened or made; of an array of tables the last one is meant. -/
def alongHeader (change : Entries → Option Entries) :
    (path : List String) → Entries → Option Entries
  | [], entries => change entries
  | step :: path, entries => do
    let inner ← match entries.get? step with
      | none => (alongHeader change path []).map (Node.table .implied)
      | some (.table .inline _) => none
      | some (.table origin es) => (alongHeader change path es).map (Node.table origin)
      | some (.tables (es :: rest)) =>
        (alongHeader change path es).map fun es => Node.tables (es :: rest)
      | _ => none
    return entries.set step inner

/-- A table under the last key of its header. It may exist already, if only on the way to others. -/
def putTable (key : String) (fill : Entries → Option Entries) (entries : Entries) :
    Option Entries :=
  match entries.get? key with
  | none => do return entries.set key (.table .header (← fill []))
  | some (.table .implied es) => do return entries.set key (.table .header (← fill es))
  | _ => none

/-- A table at the end of an array of tables under the last key of its header. -/
def putTableItem (key : String) (fill : Entries → Option Entries) (entries : Entries) :
    Option Entries :=
  match entries.get? key with
  | none => do return entries.set key (.tables [← fill []])
  | some (.tables all) => do return entries.set key (.tables ((← fill []) :: all))
  | _ => none

end DeadReckoning.Toml
