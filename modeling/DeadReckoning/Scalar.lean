import DeadReckoning.Dyadic

namespace DeadReckoning

/-!
# Scalars — the numbers that positions, views and settings are made of

The geometry of the library is written once, over any type with these operations. The program runs
it on doubles; read over an exact field the same definitions give exact motion, without rounding
and overflow.

* `Scalar` — the operations
* `Scalar.larger`, `Scalar.smaller` — greatest and least of two numbers, passing over NaN
* `microsPerSecond` — from seconds to the unit of server times
-/

/-- The arithmetic, the comparisons and the conversions that the library needs of a number. -/
class Scalar (α : Type) extends Add α, Sub α, Mul α, Div α, Neg α, LT α, LE α, BEq α,
    OfScientific α where
  decidableLT : DecidableLT α
  decidableLE : DecidableLE α
  /-- The number that a double read from outside stands for. -/
  ofFloat : Float → α
  /-- A count of microseconds as a number. -/
  ofMicros : UInt64 → α
  /-- The nearest count of microseconds, a half going away from zero. -/
  toMicros : α → UInt64
  isFinite : α → Bool
  sqrt : α → α
  /-- The direction of the point `(x, y)`, given as `atan2 y x`, from the first axis. -/
  atan2 : α → α → α

attribute [reducible, instance] Scalar.decidableLT Scalar.decidableLE

namespace Scalar

variable {α : Type} [Scalar α]

/-- The greater of two numbers; a NaN loses to any number. -/
def larger (a b : α) : α := if b ≤ a then a else if b == b then b else a

/-- The lesser of two numbers; a NaN loses to any number. -/
def smaller (a b : α) : α := if a ≤ b then a else if b == b then b else a

/-- The distance from zero. -/
def magnitude (a : α) : α := if a < 0.0 then -a else a

end Scalar

/-- How many microseconds make a second. -/
def microsPerSecond {α : Type} [Scalar α] : α := 1e6

/-- Doubles, with the operations of the processor. -/
instance : Scalar Float where
  decidableLT := inferInstance
  decidableLE := inferInstance
  ofFloat := id
  ofMicros := UInt64.toFloat
  toMicros := roundToWord
  isFinite := Float.isFinite
  sqrt := Float.sqrt
  atan2 := Float.atan2

end DeadReckoning
