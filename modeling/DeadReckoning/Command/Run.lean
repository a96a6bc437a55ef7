import DeadReckoning.Command.Arguments
import DeadReckoning.Command.Files
import DeadReckoning.Decimal.Literal
import DeadReckoning.Feed.Plan
import DeadReckoning.Feed.Replay

namespace DeadReckoning

/-!
# The commands

* `CommandError` — why a command fails
* `Settings.load` — settings from a file
* `Command.generate` — writes a made-up feed
* `Command.replay` — replays a feed and tells what came of it
* `Command.run` — the command that the arguments name
-/

/-- Why settings cannot be taken from a file. -/
inductive LoadError where
  | file (cause : FileError)
  | settings (cause : SettingsError)

/-- Why a command fails. -/
inductive CommandError where
  /-- A flag that is needed is missing, or has no value. -/
  | noPath (flag : String)
  | message (cause : BatchError)
  | settings (cause : LoadError)
  | file (cause : FileError)

namespace FileError

/-- The message for a file that cannot be used. -/
def report (e : FileError) : String := "I/O error: " ++ e.message

end FileError

/-- The wording of an error. -/
def LoadError.message : LoadError → String
  | file cause => cause.report
  | settings cause => cause.message

namespace CommandError

/-- The message for settings that cannot be used. -/
def settingsMessage (what : String) : String := "config error: " ++ what

/-- The wording of an error. -/
def wording : CommandError → String
  | noPath flag => flag ++ " <path> is required"
  | message cause => "protocol error: " ++ cause.message
  | settings cause => settingsMessage cause.message
  | file cause => cause.report

end CommandError

variable {m : Type → Type} [Monad m] [Host m]

/-- Settings from a file. -/
def Settings.load (path : String) : m (Except LoadError (Settings Float)) := do
  match ← readText path with
  | .error e => return .error (.file e)
  | .ok text => return (Settings.parse text).mapError .settings

namespace Command

/-- How the commands are used. -/
def usage : String :=
  "\n".intercalate [
    "feed-replay: starwatch update feed tool",
    "",
    "Commands:",
    "",
    "generate  Write a deterministic synthetic feed (one JSON batch per line)",
    "",
    "--output <path>      Output file path",
    "--seed <N>           RNG seed (default: 42)",
    "--ships <N>          Number of ships (default: 4)",
    "--asteroids <N>      Number of asteroids (default: 16)",
    "--duration <secs>    Feed length in seconds (default: 60)",
    "--interval-ms <ms>   Mean gap between batches (default: 250, max: 3600000)",
    "",
    "replay    Drive the client headlessly from a recorded feed",
    "",
    "--input <path>       Feed file (one JSON batch per line)",
    "--fps <N>            Render ticks per second (default: 60, max: 1000000)",
    "--config <path>      Client config TOML (optional)",
    "",
    "Set RUST_LOG=debug for per-batch and per-tick detail.",
    ""]

/-- A line for the user. -/
def sayLine (text : String) : m Unit := Host.say (text ++ "\n")

/-- Shows how the commands are used. -/
def showUsage : m Unit := sayLine usage

/-- A line for the user, from a command that may fail. -/
def tell (text : String) : ExceptT CommandError m Unit := ExceptT.lift (sayLine text)

/-- The path that a flag gives. -/
def requirePath (flag : String) (args : List String) : ExceptT CommandError m String :=
  match Arguments.pathOf? flag args with
  | some path => pure path
  | none => throw (.noPath flag)

/-- Makes a text the content of a file. -/
def writeFile (path text : String) : ExceptT CommandError m Unit :=
  ExceptT.mk do return (← writeText path text).mapError .file

/-- The seed of a made-up feed if none is given. -/
def standardSeed : UInt64 := 42

/-- The plan that arguments ask for. -/
def planOf (args : List String) : Plan :=
  let standard := Plan.standard
  { ships := Arguments.numberOf wordLiteral? "--ships" standard.ships args
    asteroids := Arguments.numberOf wordLiteral? "--asteroids" standard.asteroids args
    duration := Arguments.numberOf doubleLiteral? "--duration" standard.duration args
    interval := Arguments.numberOf wordLiteral? "--interval-ms" standard.interval args }

/-- The lines of the feed that arguments ask for. -/
def feedOf (args : List String) : List String :=
  let seed := Arguments.numberOf wordLiteral? "--seed" standardSeed args
  let (batches, _) := ((planOf args).record : StateM ChaCha (List (Batch Float))).run (.ofSeed seed)
  writeFeed batches

/-- Writes a made-up feed to a file. The file is made before the feed, so that one which cannot be
written is found out at once. -/
def generate (args : List String) : ExceptT CommandError m Unit := do
  let path ← requirePath "--output" args
  writeFile path ""
  let lines := feedOf args
  writeFile path (String.join (lines.map (· ++ "\n")))
  tell ("Done! Output: " ++ path ++ " (" ++ toString lines.length ++ " batches)")

/-- The settings that arguments name, or the standard ones. -/
def settingsOf (args : List String) : ExceptT CommandError m (Settings Float) :=
  match Arguments.pathOf? "--config" args with
  | some path => ExceptT.mk do return (← Settings.load path).mapError .settings
  | none => pure .standard

/-- Frames in a second if no number is given. -/
def standardFrameRate : UInt64 := 60

/-- The tally of the replay of a file. -/
def replayFile (path : String) (framesPerSecond : UInt64) (settings : Settings Float) :
    m (Except FileError (Tally Float)) := do
  return (← readText path).map fun text =>
    .ofCues (DeadReckoning.replay settings framesPerSecond (readFeed text.toList))

/-- The line that tells what was replayed. -/
def describeCounts (tally : Tally Float) : String :=
  "Replayed " ++ toString tally.batches ++ " batches (" ++ toString tally.dropped ++
    " dropped), " ++ toString tally.items ++ " items (" ++ toString tally.refused ++
    " rejected, " ++ toString tally.stale ++ " stale), " ++ toString tally.frames ++ " render ticks"

/-- The line that tells how far off the reckoning was. -/
def describeMisses (tally : Tally Float) : String :=
  let mean := tally.missSum / tally.samples.toFloat
  "Prediction error at next update: mean " ++ fixedPlaces 3 mean ++ ", max " ++
    fixedPlaces 3 tally.greatestMiss ++ " (" ++ toString tally.samples ++ " samples)"

/-- Replays a feed and tells what came of it. -/
def replay (args : List String) : ExceptT CommandError m Unit := do
  let path ← requirePath "--input" args
  let framesPerSecond := Arguments.numberOf wordLiteral? "--fps" standardFrameRate args
  let settings ← settingsOf args
  let tally ← ExceptT.mk do
    return (← replayFile path framesPerSecond settings).mapError CommandError.file
  tell (describeCounts tally)
  if tally.samples > 0 then tell (describeMisses tally)

/-- Runs a command, and tells the user if it fails. -/
def finish (command : ExceptT CommandError m Unit) : m UInt32 := do
  match ← command.run with
  | .ok () => return 0
  | .error e => sayLine ("Error: " ++ e.wording); return 1

/-- Runs the command that the first argument names. What is answered is the exit code. -/
def run : List String → m UInt32
  | [] => do showUsage; return 1
  | name :: args =>
    if name = "generate" then finish (generate args)
    else if name = "replay" then finish (replay args)
    else if name = "help" || name = "--help" || name = "-h" then do showUsage; return 0
    else do
      sayLine ("Unknown command: " ++ name)
      showUsage
      return 1

end Command

end DeadReckoning
