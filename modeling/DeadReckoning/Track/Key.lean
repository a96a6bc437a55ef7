import Std.Data.ExtTreeMap

namespace DeadReckoning

/-!
# Track keys — what an object is known by

Objects are told apart by their kind and a number that is unique within the kind.

* `Kind` — the kinds, with the tags they have in messages
* `TrackKey` — a kind and a number, ordered by kind, then by number
-/

/-- The kind of a tracked object. A kind that the program does not know is `unknown`. -/
inductive Kind where
  | asteroid
  | ship
  | unknown
  deriving DecidableEq, Repr, Inhabited

namespace Kind

/-- All kinds, in their order. -/
def all : List Kind := [asteroid, ship, unknown]

/-- The word for a kind in messages. -/
def tag : Kind → String
  | asteroid => "asteroid"
  | ship => "ship"
  | unknown => "unknown"

/-- The kind with a tag; every tag that is not one of the others stands for an unknown kind. -/
def ofTag (tag : String) : Kind :=
  if tag = "asteroid" then asteroid else if tag = "ship" then ship else unknown

/-- The place of a kind in their order. -/
def rank : Kind → Nat
  | asteroid => 0
  | ship => 1
  | unknown => 2

/-- No two kinds have the same place. -/
theorem rank_injective {k l : Kind} (h : k.rank = l.rank) : k = l := by
  revert h
  cases k <;> cases l <;> decide

/-- The tag of a kind stands for it. -/
@[simp] theorem ofTag_tag (k : Kind) : ofTag k.tag = k := by cases k <;> rfl

end Kind

/-- What an object is known by. -/
structure TrackKey where
  kind : Kind
  id : UInt64
  deriving DecidableEq, Repr, Inhabited

namespace TrackKey

/-- By kind first, then by number. -/
def order : TrackKey → TrackKey → Ordering :=
  compareLex (compareOn fun key => key.kind.rank) (compareOn fun key => key.id)

instance : Ord TrackKey := ⟨order⟩

instance : Std.TransOrd TrackKey :=
  inferInstanceAs (Std.TransCmp
    (compareLex (compareOn fun key : TrackKey => key.kind.rank) (compareOn fun key => key.id)))

instance : Std.LawfulEqOrd TrackKey where
  eq_of_compare {k l} h := by
    have h : (compare k.kind.rank l.kind.rank).then (compare k.id l.id) = .eq := h
    rw [Ordering.then_eq_eq] at h
    have kinds := Kind.rank_injective (Std.LawfulEqOrd.eq_of_compare h.1)
    have ids := Std.LawfulEqOrd.eq_of_compare h.2
    cases k; cases l; simp_all

/-- The key as text, such as `ship.3`. -/
def text (key : TrackKey) : String := key.kind.tag ++ "." ++ toString key.id.toNat

end TrackKey

end DeadReckoning
