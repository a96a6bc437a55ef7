import DeadReckoning.Command.Files

namespace DeadReckoning

/-!
# A directory in memory

A host for commands that holds plain files and remembers what was said. There are no directories in
it, and no files outside.

* `Directory` — files by name, and what was said
* `Directory.place` — what a path leads to
* its `Host` instance
-/

/-- Files by name, and what was said. -/
structure Directory where
  files : List (String × ByteArray)
  said : String

namespace Directory

/-- A directory in which nothing was said yet. -/
def ofFiles (files : List (String × ByteArray)) : Directory := ⟨files, ""⟩

/-- The content of a file. -/
def get? (directory : Directory) (name : String) : Option ByteArray := directory.files.lookup name

/-- The directory with another content for a file. -/
def put (directory : Directory) (name : String) (content : ByteArray) : Directory :=
  { directory with
    files := (name, content) :: directory.files.filter fun file => file.1 ≠ name }

/-- The greatest size of a name in bytes. -/
def maxNameSize : Nat := 255

/-- The greatest size of a path in bytes. -/
def maxPathSize : Nat := 4095

/-- Refuses a name that is too long. -/
def checkName (name : String) : Except FileError Unit :=
  if name.utf8ByteSize > maxNameSize then .error .tooLong else .ok ()

/-- The content of the file of a name. -/
def find (directory : Directory) (name : String) : Except FileError ByteArray := do
  checkName name
  match directory.get? name with
  | some content => return content
  | none => throw .missing

/-- What follows the first name of a path. -/
inductive Ending where
  | nothing
  /-- Only separators, which ask for a directory. -/
  | separator
  /-- More names. -/
  | names
  deriving DecidableEq, Repr

/-- What a path leads to. -/
inductive Place where
  /-- A directory. -/
  | directory
  /-- A place whose way starts with the name in this directory. -/
  | inside (name : String) (ending : Ending)
  /-- A place whose way starts with the name in another directory. -/
  | outside (name : String) (ending : Ending)
  deriving DecidableEq, Repr

/-- What follows the first name, of the parts of a path that come after it. -/
def Ending.ofParts (parts : List String) : Ending :=
  if parts.isEmpty then .nothing else if parts.all (· = "") then .separator else .names

/-- What a path leads to. A point stands for the directory that it is looked for in, and two points
for the one around that. -/
def place (path : String) : Place :=
  let parts := (path.splitOn "/").dropWhile fun part => part = "" || part = "."
  match parts.dropWhile fun part => part = "" || part = "." || part = ".." with
  | [] => .directory
  | name :: rest =>
    if path.startsWith "/" || parts.head? = some ".." then .outside name (.ofParts rest)
    else .inside name (.ofParts rest)

/-- What a path leads to, if there can be such a path. -/
def locate (path : String) : Except FileError Place :=
  if path = "" then .error .missing
  else if path.utf8ByteSize > maxPathSize then .error .tooLong
  else .ok (place path)

/-- The content of the file that a path leads to. -/
def readFile (directory : Directory) (path : String) : Except FileError ByteArray := do
  match ← locate path with
  | .directory => throw .isDirectory
  | .inside name ending =>
    let content ← directory.find name
    if ending = .nothing then return content else throw .notDirectory
  | .outside name _ =>
    checkName name
    throw .missing

/-- The directory with another content for the file that a path leads to. -/
def writeFile (directory : Directory) (path : String) (content : ByteArray) :
    Except FileError Directory := do
  match ← locate path with
  | .directory | .inside _ .separator | .outside _ .separator => throw .isDirectory
  | .inside name .nothing =>
    checkName name
    return directory.put name content
  | .inside name .names =>
    let _ ← directory.find name
    throw .notDirectory
  | .outside name _ =>
    checkName name
    throw .missing

instance : Host (StateM Directory) where
  read path := return (← get).readFile path
  write path text := do
    match (← get).writeFile path text.toUTF8 with
    | .ok directory => set directory; return .ok ()
    | .error e => return .error e
  say text := modify fun directory => { directory with said := directory.said ++ text }

end Directory

end DeadReckoning
