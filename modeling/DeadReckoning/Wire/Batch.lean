import DeadReckoning.Micros
import DeadReckoning.Wire.Item

namespace DeadReckoning

open Json

/-!
# Messages — sightings of many objects at one time

A message is an envelope with a server time and a list of items. Each item is judged by itself: a
bad one is refused, with its position and the reason, and the rest of the message counts.

* `Envelope.parse` — the outline of a message
* `Batch` — the sightings and refusals of a message
* `Batch.parse` — a message from its text
* `BatchError` — why a message is dropped as a whole
-/

/-- An item that was refused. -/
structure Refusal where
  /-- The place of the item in its message, from zero. -/
  index : Nat
  error : ItemError

/-- The sightings of one time. -/
structure Batch (α : Type) where
  serverTime : Micros
  sightings : List (Sighting α)
  refusals : List Refusal

/-- Why a message is dropped as a whole. -/
inductive BatchError where
  | malformed (fault : Fault)
  | noTimestamp

namespace BatchError

/-- The wording of an error. -/
def message : BatchError → String
  | malformed fault => "malformed update batch: " ++ fault.message
  | noTimestamp => "update batch carries no server timestamp"

end BatchError

/-- A message whose items are not yet judged. -/
structure Envelope where
  timestamp : Option Micros
  items : List Value

namespace Envelope

/-- The time of a message; it may be `null` or missing. -/
def timestampField : RecordField (Option Micros) where
  name := "ts"
  read := readOptional readNatural
  default? := some none

/-- The items of a message, two levels below its top. -/
def itemsField (budget : Nat) : RecordField (List Value) where
  name := "items"
  read := readSequence budget (readValue budget (greatestDepth - 2))
  default? := none

/-- The name of the record in messages. -/
def recordName : String := "RawBatch"

/-- An envelope at the start of a text. -/
def read (budget : Nat) : Reader Envelope := fun cs => do
  let ((timestamp, items), rest) ← readPair budget recordName timestampField (itemsField budget) cs
  return (⟨timestamp, items⟩, rest)

/-- A text that is one envelope. -/
def parse (text : String) : Except Fault Envelope := readDocument read text

end Envelope

namespace Batch

variable {α β : Type}

/-- The same batch in other numbers. -/
def map (f : α → β) (batch : Batch α) : Batch β where
  serverTime := batch.serverTime
  sightings := batch.sightings.map (·.map f)
  refusals := batch.refusals

/-- The outcomes of judging items, numbered from `index`, as sightings and refusals in order. -/
def sort (index : Nat) : List (Except ItemError (Sighting α)) → List (Sighting α) × List Refusal
  | [] => ([], [])
  | .ok s :: rest =>
    let (sightings, refusals) := sort (index + 1) rest
    (s :: sightings, refusals)
  | .error e :: rest =>
    let (sightings, refusals) := sort (index + 1) rest
    (sightings, ⟨index, e⟩ :: refusals)

/-- The batch of items that carry a time. -/
def ofItems (serverTime : Micros) (items : List Value) : Batch Float :=
  let (sightings, refusals) := sort 0 (items.map Sighting.ofValue)
  { serverTime, sightings, refusals }

/-- A batch from the text of a message. -/
def parse (text : String) : Except BatchError (Batch Float) :=
  match Envelope.parse text with
  | .error fault => .error (.malformed fault)
  | .ok ⟨none, _⟩ => .error .noTimestamp
  | .ok ⟨some serverTime, items⟩ => .ok (ofItems serverTime items)

end Batch

end DeadReckoning
