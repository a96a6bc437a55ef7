namespace DeadReckoning

/-!
# Dyadic numbers — finite doubles taken apart

A finite double is `± mantissa · 2 ^ exponent` with a natural mantissa. Everything that has to be
exact about a double (rounding to a whole number, its decimal digits) is computed on this form, in
natural numbers.

* `Dyadic.ofFloat?` — the exact value of a finite double, `none` for infinities and NaN
* `Dyadic.round` — the nearest whole number, a half going away from zero
* `saturate` — a whole number brought into the range of 64 unsigned bits
-/

/-- The number `± mantissa · 2 ^ exponent`. -/
structure Dyadic where
  negative : Bool
  mantissa : Nat
  exponent : Int
  deriving DecidableEq, Repr

namespace Dyadic

/-- The exact value of a finite double. A zero keeps its sign. -/
def ofFloat? (x : Float) : Option Dyadic :=
  match x.toModel.unpack with
  | .finite sign mantissa exponent _ => some ⟨sign == .negative, mantissa, exponent⟩
  | .zero sign => some ⟨sign == .negative, 0, 0⟩
  | .infinity _ | .notANumber => none

/-- Numerator of the magnitude over `denominator`. -/
def numerator (d : Dyadic) : Nat := d.mantissa <<< d.exponent.toNat

/-- The power of two that the magnitude is a fraction of. -/
def denominator (d : Dyadic) : Nat := 1 <<< (-d.exponent).toNat

/-- The magnitude as a whole number, a half going up. -/
def roundMagnitude (d : Dyadic) : Nat :=
  (2 * d.numerator + d.denominator) / (2 * d.denominator)

/-- The nearest whole number, a half going away from zero. -/
def round (d : Dyadic) : Int :=
  if d.negative then -(d.roundMagnitude : Int) else d.roundMagnitude

end Dyadic

/-- The 64-bit number nearest to a whole number. -/
def saturate (n : Int) : UInt64 := UInt64.ofNatClamp n.toNat

/-- The 64-bit number nearest to a double, a half going away from zero; NaN gives zero. -/
def roundToWord (x : Float) : UInt64 :=
  match Dyadic.ofFloat? x with
  | some d => saturate d.round
  | none => if 0 < x then saturate UInt64.size else 0

end DeadReckoning
