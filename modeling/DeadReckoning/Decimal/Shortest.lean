import DeadReckoning.Dyadic

namespace DeadReckoning

/-!
# Shortest decimals — the fewest digits that stand for a double

A decimal stands for a double if it lies among the reals that round to it. That span reaches half a
unit in the last place to either side, half as far below a power of two, and includes its ends when
the mantissa is even. The grids of multiples of `10 ^ p` are tried from coarse to fine; the first
that meets the span gives the fewest digits, and of two points on it the nearer is taken.

* `Decimal` — `coefficient · 10 ^ exponent`
* `Tie` — which of two equally near points is taken
* `Dyadic.onGrid?` — the point of one grid that stands for the number
* `Dyadic.shortest` — the shortest decimal
-/

/-- The number `coefficient · 10 ^ exponent`. -/
structure Decimal where
  coefficient : Nat
  exponent : Int
  deriving DecidableEq, Repr

/-- What becomes of a number exactly half way between two points of a grid. -/
inductive Tie where
  /-- The even point. -/
  | even
  /-- The greater point. -/
  | up
  deriving DecidableEq, Repr

/-- The upper of two neighbouring points is taken: `rest` above the lower one, out of `unit`. -/
def Tie.takesUpper (tie : Tie) (lower rest unit : Nat) : Bool :=
  match compare (2 * rest) unit with
  | .lt => false
  | .gt => true
  | .eq => match tie with
    | .even => lower % 2 == 1
    | .up => true

/-- A power of ten; one with a negative exponent counts as one. -/
def tenTo (p : Int) : Nat := Nat.pow 10 p.toNat

namespace Dyadic

/-- A quarter of the unit in the last place, measured on the grid of multiples of `10 ^ p`. -/
def quarter (d : Dyadic) (p : Int) : Nat := tenTo (-p) <<< (d.exponent - 2).toNat

/-- The spacing of the grid of multiples of `10 ^ p`, in the measure of `quarter`. -/
def spacing (d : Dyadic) (p : Int) : Nat := tenTo p <<< (2 - d.exponent).toNat

/-- The double below is only half a unit away: the mantissa is the least of its binade. -/
def isNarrowBelow (d : Dyadic) : Bool := d.mantissa == 0x10000000000000 && d.exponent > -1074

/-- The `n`-th multiple of `10 ^ p` rounds to the magnitude of `d`. -/
def standsFor (d : Dyadic) (p : Int) (n : Nat) : Bool :=
  let quarter := d.quarter p
  let lower := (4 * d.mantissa - if d.isNarrowBelow then 1 else 2) * quarter
  let upper := (4 * d.mantissa + 2) * quarter
  let point := n * d.spacing p
  if d.mantissa % 2 == 0 then lower ≤ point && point ≤ upper else lower < point && point < upper

/-- The multiple of `10 ^ p` that stands for `d`, the nearer one if there are two around it. -/
def onGrid? (tie : Tie) (d : Dyadic) (p : Int) : Option Nat :=
  let value := 4 * d.mantissa * d.quarter p
  let below := value / d.spacing p
  match d.standsFor p below, d.standsFor p (below + 1) with
  | true, true =>
    some (if tie.takesUpper below (value % d.spacing p) (d.spacing p) then below + 1 else below)
  | true, false => some below
  | false, true => some (below + 1)
  | false, false => none

/-- The point on the coarsest grid that has one, trying `tries` grids downwards from `10 ^ p`. -/
def shortestFrom (tie : Tie) (d : Dyadic) : (tries : Nat) → (p : Int) → Decimal
  | 0, p => ⟨4 * d.mantissa * d.quarter p / d.spacing p, p⟩
  | tries + 1, p =>
    match d.onGrid? tie p with
    | some n => ⟨n, p⟩
    | none => shortestFrom tie d tries (p - 1)

/-- A power of ten that is above the magnitude, and less than a hundred times it. -/
def decimalCeiling (d : Dyadic) : Int := (d.mantissa.log2 + d.exponent + 1) * 30103 / 100000 + 1

/-- The shortest decimal that stands for the magnitude of a number. -/
def shortest (tie : Tie) (d : Dyadic) : Decimal :=
  if d.mantissa == 0 then ⟨0, 0⟩ else d.shortestFrom tie 24 d.decimalCeiling

end Dyadic

end DeadReckoning
