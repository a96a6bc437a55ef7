import DeadReckoning.Micros
import DeadReckoning.Scalar
import DeadReckoning.Decimal.Layout
import DeadReckoning.Toml.Document

namespace DeadReckoning

/-!
# Settings

* `Settings` — the zoom factor of the wheel, and how long silent objects are kept
* `Settings.validate` — which values are accepted
* `Settings.retentionMicros` — the time that silent objects are kept, in microseconds
* `Settings.parse` — settings from the text of a file
-/

/-- What the user can choose. -/
structure Settings (α : Type) where
  /-- The zoom factor of one notch of the wheel. -/
  zoomStep : α
  /-- For how many seconds an object is kept without news; without it, for ever. -/
  retention : Option α

/-- A value that is not accepted. -/
inductive SettingError (α : Type) where
  | zoomStep (value : α)
  | retention (value : α)

/-- Why no settings come of a text. -/
inductive SettingsError where
  /-- The text is not well formed, or a value has the wrong form. -/
  | malformed
  | refused (cause : SettingError Float)

namespace SettingError

/-- The reason why a value is not accepted. -/
def reason : SettingError Float → String
  | zoomStep value => "zoom_step must be greater than 1, got " ++ plainLayout.write value
  | retention value => "entity_ttl_secs must be positive, got " ++ plainLayout.write value

end SettingError

namespace SettingsError

/-- The message for a value that is not accepted. -/
def refusedMessage (reason : String) : String := "invalid setting: " ++ reason

/-- The wording of an error. -/
def message : SettingsError → String
  | malformed => "parse error"
  | refused cause => refusedMessage cause.reason

end SettingsError

namespace Settings

section Values

variable {α : Type} [Scalar α]

/-- The settings where nothing is chosen. -/
def standard : Settings α := ⟨1.1, none⟩

/-- The zoom factor must be above one and the retention above nothing, and both finite. -/
def validate (settings : Settings α) : Except (SettingError α) Unit :=
  if !Scalar.isFinite settings.zoomStep || settings.zoomStep ≤ 1.0 then
    .error (.zoomStep settings.zoomStep)
  else
    match settings.retention with
    | none => .ok ()
    | some seconds =>
      if !Scalar.isFinite seconds || seconds ≤ 0.0 then .error (.retention seconds) else .ok ()

/-- The retention as the nearest count of microseconds. -/
def retentionMicros (settings : Settings α) : Option Micros :=
  settings.retention.map fun seconds => Scalar.toMicros (seconds * microsPerSecond)

end Values

/-- A number in a settings file; whole numbers will do. -/
def numberOf? : Toml.Node → Option Float
  | .integer n => some (decimalValue (n < 0) n.natAbs 0)
  | .real x => some x
  | _ => none

/-- A number under a key, if the key is there. -/
def numberAt (key : String) (entries : Toml.Entries) : Except SettingsError (Option Float) :=
  match entries.get? key with
  | none => .ok none
  | some node =>
    match numberOf? node with
    | some x => .ok (some x)
    | none => .error .malformed

/-- Settings from the entries of a file. Keys that are not known are of no account. -/
def ofEntries (entries : Toml.Entries) : Except SettingsError (Settings Float) := do
  let zoomStep ← numberAt "zoom_step" entries
  let retention ← numberAt "entity_ttl_secs" entries
  return { zoomStep := zoomStep.getD standard.zoomStep, retention }

/-- Settings from the text of a file. -/
def parse (text : String) : Except SettingsError (Settings Float) := do
  let entries ← match Toml.parse text with
    | some entries => pure entries
    | none => throw .malformed
  let settings ← ofEntries entries
  match settings.validate with
  | .ok () => return settings
  | .error cause => throw (.refused cause)

end Settings

end DeadReckoning
