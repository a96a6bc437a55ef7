import DeadReckoning.Command.Run

/-!
# The program

The commands on the files of the machine.
-/

namespace DeadReckoning

/-- What the system says of an error. -/
def FileError.ofSystem : IO.Error → FileError
  | .alreadyExists _ code text | .invalidArgument _ code text | .permissionDenied _ code text
  | .resourceExhausted _ code text | .inappropriateType _ code text | .noSuchThing _ code text
  | .interrupted _ code text | .noFileOrDirectory _ code text
  | .otherError code text | .resourceBusy code text | .resourceVanished code text
  | .unsupportedOperation code text | .hardwareFault code text | .unsatisfiedConstraints code text
  | .illegalOperation code text | .protocolError code text | .timeExpired code text =>
    .refused code.toNat text
  | .unexpectedEof => .refused 0 "unexpected end of file"
  | .userError text => .refused 0 text

instance : Host IO where
  read path := do
    try return .ok (← IO.FS.readBinFile path)
    catch e => return .error (.ofSystem e)
  write path text := do
    try return .ok (← IO.FS.writeFile path text)
    catch e => return .error (.ofSystem e)
  say text := do (← IO.getStderr).putStr text

end DeadReckoning

/-- Runs the command that the arguments name. -/
def main (args : List String) : IO UInt32 := DeadReckoning.Command.run args
