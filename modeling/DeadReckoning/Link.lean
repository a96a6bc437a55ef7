namespace DeadReckoning

/-!
# The link — state of the channel that messages come by
-/

/-- State of the channel. -/
inductive Link where
  | connecting
  | established
  | lost
  deriving DecidableEq, Repr, Inhabited

namespace Link

/-- All states. -/
def all : List Link := [connecting, established, lost]

/-- The state before anything is known. -/
def initial : Link := connecting

/-- The name of a state in stored text. -/
def name : Link → String
  | connecting => "Connecting"
  | established => "Established"
  | lost => "Lost"

/-- What the overlay says of a state. -/
def label : Link → String
  | connecting => "Connecting..."
  | established => "Connection established"
  | lost => "Connection lost"

/-- The state with a name. -/
def ofName? (name : String) : Option Link := all.find? (·.name = name)

@[simp] theorem ofName?_name (link : Link) : ofName? link.name = some link := by
  cases link <;> decide

end Link

end DeadReckoning
