namespace DeadReckoning

/-!
# Files — what commands need of the machine

Commands read and write whole files and speak to the user. They are written over any monad that
offers this, so that they run on the machine and on a directory held in memory alike.

* `FileError` — why a file cannot be used
* `Host` — reading, writing and speaking
* `readText`, `writeText` — the text of a file
-/

/-- Why a file cannot be used. -/
inductive FileError where
  /-- The system refuses, with its number for the cause and its words. -/
  | refused (code : Nat) (cause : String)
  /-- The path holds a zero, which would end it for the system. -/
  | zeroInPath
  /-- The bytes of the file are not text. -/
  | notText
  deriving DecidableEq, Repr

namespace FileError

/-- The wording of an error. -/
def message : FileError → String
  | refused code cause => cause ++ " (os error " ++ toString code ++ ")"
  | zeroInPath => "file name contained an unexpected NUL byte"
  | notText => "stream did not contain valid UTF-8"

/-- There is no such file. -/
def missing : FileError := refused 2 "No such file or directory"

/-- A file stands where a directory is needed. -/
def notDirectory : FileError := refused 20 "Not a directory"

/-- A directory stands where a file is needed. -/
def isDirectory : FileError := refused 21 "Is a directory"

/-- A name or a path is longer than the system allows. -/
def tooLong : FileError := refused 36 "File name too long"

end FileError

/-- What commands need of the machine. Paths that hold a zero are not given to it. -/
class Host (m : Type → Type) where
  /-- The bytes of a file. -/
  read (path : String) : m (Except FileError ByteArray)
  /-- Makes a text the content of a file, which is created if need be. -/
  write (path text : String) : m (Except FileError Unit)
  /-- Tells the user something, beside the output proper. -/
  say (text : String) : m Unit

/-- Bytes as text. -/
def decodeText (bytes : ByteArray) : Except FileError String :=
  match String.fromUTF8? bytes with
  | some text => .ok text
  | none => .error .notText

/-- Asks the system for something under a path, if the path can be given to it. -/
def underPath {m : Type → Type} [Monad m] {β : Type} (path : String)
    (ask : m (Except FileError β)) : m (Except FileError β) :=
  if path.contains '\x00' then return .error .zeroInPath else ask

/-- A file as text. -/
def readText {m : Type → Type} [Monad m] [Host m] (path : String) :
    m (Except FileError String) := do
  return (← underPath path (Host.read path)).bind decodeText

/-- Makes a text the content of a file. -/
def writeText {m : Type → Type} [Monad m] [Host m] (path text : String) :
    m (Except FileError Unit) :=
  underPath path (Host.write path text)

end DeadReckoning
