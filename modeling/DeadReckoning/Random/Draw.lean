import DeadReckoning.Random.ChaCha

namespace DeadReckoning

/-!
# Drawing numbers at random

What draws needs a source of chance; any type whose values can be drawn from will do.

* `Chance` — the draws, which change the state of their source
* `firstSuccess` — tries again until a draw is good
* the draws of a `ChaCha` stream
-/

/-- A source of chance. -/
class Chance (σ : Type) where
  /-- A number from `low`, which may be drawn, to `high`, which may not. -/
  real (low high : Float) : StateM σ Float
  /-- A number from `low` to `high`, both of which may be drawn. -/
  natural (low high : UInt64) : StateM σ UInt64
  /-- Yes with a given chance between zero and one. -/
  yes (chance : Float) : StateM σ Bool

/-- The first success among a number of attempts, `otherwise` if all of them fail. -/
def firstSuccess {σ α : Type} (attempt : StateM σ (Option α)) (otherwise : α) : Nat → StateM σ α
  | 0 => pure otherwise
  | attempts + 1 => do
    match ← attempt with
    | some x => pure x
    | none => firstSuccess attempt otherwise attempts

namespace ChaCha

/-- The next word of the stream. -/
def word : StateM ChaCha UInt64 := fun stream => stream.next

/-- How often a draw is tried. At least every second attempt succeeds in the long run, so that the
value held ready for the other case does not come up. -/
def patience : Nat := 256

/-- A number from zero to below one with 52 random bits. -/
def unit : StateM ChaCha Float := do
  return Float.ofBits ((← word) >>> 12 ||| 0x3ff0000000000000) - 1.0

/-- A point of an interval; rounding may bring it to the upper end, which does not count. -/
def tryReal (low high : Float) : StateM ChaCha (Option Float) := do
  let x := (← unit) * (high - low) + low
  return if x < high then some x else none

/-- A number of a range that begins at `low` and has `size` numbers. A word is spread over the range
by multiplication; the words that would make some numbers more likely than others do not count. -/
def tryNatural (low : UInt64) (size : Nat) : StateM ChaCha (Option UInt64) := do
  let product := (← word).toNat * size
  let greatest := (size <<< (63 - size.log2)) - 1
  let offset := UInt64.ofNat (product / UInt64.size)
  return if product % UInt64.size ≤ greatest then some (low + offset) else none

instance : Chance ChaCha where
  real low high := firstSuccess (tryReal low high) low patience
  natural low high := firstSuccess (tryNatural low (high.toNat + 1 - low.toNat)) low patience
  yes chance := do return (← word) < (chance * 18446744073709551616.0).toUInt64

end ChaCha

end DeadReckoning
