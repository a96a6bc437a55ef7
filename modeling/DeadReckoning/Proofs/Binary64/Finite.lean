import DeadReckoning.Dyadic
import DeadReckoning.Proofs.Binary64.Rounding

namespace DeadReckoning

/-!
# Finite doubles — each is one dyadic number

* `Unpacks` — the dyadic number that a finite double is
* `Dyadic.magnitude` — its value without the sign
* `withSign` — a magnitude with a sign in front of it
* `eq_of_magnitude` — sign and magnitude tell finite doubles apart
-/

open Binary64

/-- The value of a dyadic number without its sign. -/
def Dyadic.magnitude (d : Dyadic) : ℚ := d.mantissa * 2 ^ d.exponent

namespace Binary64

open Float.Model Float.Model.UnpackedFloat

variable {d : Dyadic} {q : ℚ} {x y : Float}

/-! ### Dyadic numbers of doubles -/

/-- A finite double and the dyadic number that it is. -/
inductive Unpacks (x : Float) : Dyadic → Prop
  | zero {s : Sign} (h : x.toModel.unpack = .zero s) : Unpacks x ⟨s == .negative, 0, 0⟩
  | finite {s : Sign} {m : ℕ} {e : ℤ} {pos : 0 < m} (h : x.toModel.unpack = .finite s m e pos) :
    Unpacks x ⟨s == .negative, m, e⟩

/-- What a double unpacks to is what the printer makes of it. -/
theorem unpacks_iff : Unpacks x d ↔ Dyadic.ofFloat? x = some d := by
  constructor
  · intro h
    cases h with
    | zero h => rw [Dyadic.ofFloat?, h]
    | finite h => rw [Dyadic.ofFloat?, h]
  · intro h
    unfold Dyadic.ofFloat? at h
    split at h
    · rename_i unpacked
      cases h
      exact .finite unpacked
    · rename_i unpacked
      cases h
      exact .zero unpacked
    · cases h
    · cases h

/-- A double is finite if it unpacks to a number. -/
theorem isFinite_iff : x.isFinite ↔ ∃ d, Unpacks x d := by
  have status : x.isFinite = x.toModel.unpack.isFinite := rfl
  rw [status]
  constructor
  · intro h
    -- the two that are not finite unpack to no number
    cases unpacked : x.toModel.unpack with
    | notANumber =>
      rw [unpacked] at h
      cases h
    | infinity s =>
      rw [unpacked] at h
      cases h
    | zero s => exact ⟨_, .zero unpacked⟩
    | finite s m e pos => exact ⟨_, .finite unpacked⟩
  · rintro ⟨d, h⟩
    cases h with
    | zero h => rw [h]; rfl
    | finite h => rw [h]; rfl

/-- A sign is known by whether it is negative. -/
theorem sign_eq {s t : Sign} (h : (s == .negative) = (t == .negative)) : s = t := by
  cases s <;> cases t <;> first | rfl | cases h

namespace Unpacks

/-- A double that is not null has a canonical mantissa and exponent. -/
theorem canonical (h : Unpacks x d) (pos : 0 < d.mantissa) : Canonical d.mantissa d.exponent := by
  cases h with
  | zero => exact absurd pos (lt_irrefl 0)
  | finite h => exact canonical_of_unpack h

/-- A double whose mantissa is not null is not zero. -/
theorem magnitude_pos (h : Unpacks x d) (pos : 0 < d.mantissa) : 0 < d.magnitude :=
  (h.canonical pos).value_pos

/-- The two zeros are the doubles of no magnitude. -/
theorem mantissa_eq_zero_iff (h : Unpacks x d) : d.mantissa = 0 ↔ d.magnitude = 0 := by
  constructor
  · intro zero
    rw [Dyadic.magnitude, zero, Nat.cast_zero, zero_mul]
  · intro zero
    by_contra pos
    exact (h.magnitude_pos (Nat.pos_of_ne_zero pos)).ne' zero

/-- Sign and magnitude tell finite doubles apart. -/
theorem eq_of_magnitude {d' : Dyadic} (hx : Unpacks x d) (hy : Unpacks y d')
    (sign : d.negative = d'.negative) (magnitude : d.magnitude = d'.magnitude) : x = y := by
  -- either both are zeros of one sign, or both have a mantissa, which is unique
  have zero := hx.mantissa_eq_zero_iff
  rw [magnitude, ← hy.mantissa_eq_zero_iff] at zero
  cases hx with
  | zero hx =>
    cases hy with
    | zero hy =>
      rw [← sign_eq sign] at hy
      exact eq_of_unpack (hx.trans hy.symm)
    | @finite _ _ _ pos hy => exact absurd (zero.mp rfl) pos.ne'
  | @finite _ _ _ pos hx =>
    cases hy with
    | zero hy => exact absurd (zero.mpr rfl) pos.ne'
    | finite hy =>
      have regular := (canonical_of_unpack hx).toRegular
      obtain ⟨rfl, rfl⟩ := regular.unique (canonical_of_unpack hy).toRegular magnitude
      rw [← sign_eq sign] at hy
      exact eq_of_unpack (hx.trans hy.symm)

/-- The opposite has the other sign and the same magnitude. -/
theorem neg (h : Unpacks x d) : Unpacks (-x) { d with negative := !d.negative } := by
  have made : (-x).toModel.unpack = (Float.Model.pack x.toModel.unpack.neg).unpack := rfl
  cases h with
  | @zero s h =>
    have flipped : (!(s == .negative)) = (-s == .negative) := by cases s <;> rfl
    rw [h] at made
    rw [flipped]
    exact .zero (made.trans (unpack_pack_zero (-s)))
  | @finite s m e pos h =>
    have flipped : (!(s == .negative)) = (-s == .negative) := by cases s <;> rfl
    rw [h] at made
    dsimp only
    rw [flipped]
    exact .finite (made.trans (unpack_pack_finite (-s) (canonical_of_unpack h)))

end Unpacks

/-- The sign in front of a magnitude. -/
def withSign (negative : Bool) (x : Float) : Float := if negative then -x else x

/-- A magnitude with a sign. -/
theorem IsMagnitude.unpacks_withSign (h : IsMagnitude x q) (negative : Bool) :
    ∃ d, Unpacks (withSign negative x) d ∧ d.negative = negative ∧ d.magnitude = q := by
  obtain ⟨d, unpacks, sign, magnitude⟩ :
      ∃ d, Unpacks x d ∧ d.negative = false ∧ d.magnitude = q := by
    cases h with
    | zero h => exact ⟨_, .zero h, rfl, by simp [Dyadic.magnitude]⟩
    | finite h => exact ⟨_, .finite h, rfl, rfl⟩
  cases negative with
  | false => exact ⟨d, unpacks, sign, magnitude⟩
  | true => exact ⟨_, unpacks.neg, by rw [sign]; rfl, magnitude⟩

/-! ### Comparisons with zero -/

theorem unpack_zero : (0.0 : Float).toModel.unpack = .zero .positive := by
  have made : (0.0 : Float) = .ofModel (Float.Model.pack (.zero .positive)) := by decide +kernel
  rw [made]
  exact unpack_pack_zero .positive

/-- A double that is not null does not equal zero. -/
theorem beq_zero (h : IsMagnitude x q) (pos : 0 < q) : (x == 0.0) = false := by
  show UnpackedFloat.beq x.toModel.unpack (0.0 : Float).toModel.unpack = false
  rw [unpack_zero]
  cases h with
  | zero h => exact absurd pos (lt_irrefl 0)
  | finite h => rw [h]; rfl

/-- A magnitude is not infinite. -/
theorem isInf_eq_false (h : IsMagnitude x q) : x.isInf = false := by
  show UnpackedFloat.isInf x.toModel.unpack = false
  cases h with
  | zero h => rw [h]; rfl
  | finite h => rw [h]; rfl

/-- Doubles are compared by what they unpack to. -/
theorem lt_iff (x y : Float) : x < y ↔ UnpackedFloat.lt x.toModel.unpack y.toModel.unpack := by
  show decide (UnpackedFloat.lt x.toModel.unpack y.toModel.unpack = true) = true ↔ _
  rw [decide_eq_true_iff]

theorem le_iff (x y : Float) : x ≤ y ↔ UnpackedFloat.le x.toModel.unpack y.toModel.unpack := by
  show decide (UnpackedFloat.le x.toModel.unpack y.toModel.unpack = true) = true ↔ _
  rw [decide_eq_true_iff]

/-- A finite double is above zero if it has a magnitude and no minus. -/
theorem zero_lt_iff (h : Unpacks x d) :
    (0.0 : Float) < x ↔ d.negative = false ∧ d.mantissa ≠ 0 := by
  rw [lt_iff, unpack_zero]
  cases h with
  | zero h =>
    rw [h]
    constructor
    · intro lt
      cases lt
    · rintro ⟨_, pos⟩
      exact absurd rfl pos
  | @finite s m e pos h =>
    rw [h]
    cases s with
    | positive => exact ⟨fun _ => ⟨rfl, pos.ne'⟩, fun _ => rfl⟩
    | negative =>
      constructor
      · intro lt
        cases lt
      · rintro ⟨sign, _⟩
        cases sign

/-- Finite doubles can be compared with zero. -/
theorem le_zero_iff (h : Unpacks x d) : x ≤ (0.0 : Float) ↔ ¬(0.0 : Float) < x := by
  rw [le_iff, lt_iff, unpack_zero]
  cases h with
  | zero h => simp [h, UnpackedFloat.le, UnpackedFloat.lt, UnpackedFloat.compare]
  | @finite s m e pos h =>
    cases s with
    | positive => simp [h, UnpackedFloat.le, UnpackedFloat.lt, UnpackedFloat.compare]
    | negative => simp [h, UnpackedFloat.le, UnpackedFloat.lt, UnpackedFloat.compare]

/-- A finite double that is not at most zero is above it; only of NaN this is false. -/
theorem not_le_zero_iff (finite : x.isFinite) : ¬x ≤ (0.0 : Float) ↔ (0.0 : Float) < x := by
  obtain ⟨d, hx⟩ := isFinite_iff.mp finite
  rw [le_zero_iff hx, not_not]

end Binary64

end DeadReckoning
