namespace DeadReckoning

/-!
# Microseconds — times and spans of the server

Server times are counts of microseconds in 64 bits. Sums and differences stop at the ends of the
range instead of wrapping round.

* `Micros.after`, `Micros.before` — a time later or earlier by a span
* `toNat_after`, `toNat_before` — what they are in natural numbers
-/

/-- A server time, or a span of it, in microseconds. -/
abbrev Micros := UInt64

namespace Micros

/-- The time a span later, at most the greatest there is. -/
def after (time : Micros) (span : Nat) : Micros := UInt64.ofNatClamp (time.toNat + span)

/-- The time a span earlier, at least zero. -/
def before (time span : Micros) : Micros := UInt64.ofNatClamp (time.toNat - span.toNat)

/-- Natural numbers beyond the word are cut to its greatest. -/
theorem toNat_ofNatClamp (n : Nat) : (UInt64.ofNatClamp n).toNat = min n (UInt64.size - 1) := by
  rw [UInt64.ofNatClamp]
  split
  next h => rw [UInt64.toNat_ofNatLT]; omega
  next h => rw [UInt64.toNat_ofNatLT]; omega

/-- Time does not go beyond the greatest word. -/
theorem toNat_after (time : Micros) (span : Nat) :
    (after time span).toNat = min (time.toNat + span) (UInt64.size - 1) :=
  toNat_ofNatClamp _

/-- Nor does it go below zero. -/
theorem toNat_before (time span : Micros) : (before time span).toNat = time.toNat - span.toNat := by
  rw [before, toNat_ofNatClamp]
  have := time.toNat_lt_size
  omega

end Micros

end DeadReckoning
