import DeadReckoning.View.Viewport
import Mathlib.Data.Rat.Floor
import Mathlib.Tactic.NormNum
import Mathlib.Tactic.NormNum.OfScientific

namespace DeadReckoning

/-!
# Exact numbers — the geometry without rounding and overflow

The library is written over any numbers with the operations of `Scalar`. Here these are rational
numbers, so that what the definitions say of the plane can be told apart from what rounding makes
of it.

* `Irrational` — roots and directions, which rational numbers do not always have
* `Exact` — the rational numbers as scalars
* `value_add` and its like — every operation is the one of the rational numbers
* `Vec2.add_def` and its like — vectors by their coordinates
* `Viewport.Proper` — a view whose scale is above zero
* `toGlobal_toLocal`, `toLocal_pan` — the maps of a proper view
-/

/-- Roots and directions of rational numbers. They need not be rational, so that nothing is asked
of the two functions. -/
structure Irrational where
  sqrt : ℚ → ℚ
  atan2 : ℚ → ℚ → ℚ

/-- A number without rounding and overflow. -/
@[ext] structure Exact (i : Irrational) where
  value : ℚ
  deriving DecidableEq

namespace Exact

variable {i : Irrational}

/-- The exact value of a double; one that is not finite has none and is never asked for. -/
def ofDouble (x : Float) : ℚ :=
  match Dyadic.ofFloat? x with
  | some d => (if d.negative then -1 else 1) * (d.numerator / d.denominator)
  | none => 0

/-- The operations are those of the rational numbers. -/
instance : Scalar (Exact i) where
  add a b := ⟨a.value + b.value⟩
  sub a b := ⟨a.value - b.value⟩
  mul a b := ⟨a.value * b.value⟩
  div a b := ⟨a.value / b.value⟩
  neg a := ⟨-a.value⟩
  lt a b := a.value < b.value
  le a b := a.value ≤ b.value
  beq a b := a.value == b.value
  ofScientific mantissa down exponent := ⟨OfScientific.ofScientific mantissa down exponent⟩
  decidableLT a b := inferInstanceAs (Decidable (a.value < b.value))
  decidableLE a b := inferInstanceAs (Decidable (a.value ≤ b.value))
  ofFloat x := ⟨ofDouble x⟩
  ofMicros n := ⟨n.toNat⟩
  toMicros a := UInt64.ofNatClamp ⌊a.value + 1 / 2⌋₊
  isFinite _ := true
  sqrt a := ⟨i.sqrt a.value⟩
  atan2 y x := ⟨i.atan2 y.value x.value⟩

variable (a b : Exact i)

/-- The value of a sum. -/
@[simp] theorem value_add : (a + b).value = a.value + b.value := rfl

/-- The value of a difference. -/
@[simp] theorem value_sub : (a - b).value = a.value - b.value := rfl

/-- The value of a product. -/
@[simp] theorem value_mul : (a * b).value = a.value * b.value := rfl

/-- The value of a quotient, which is zero if the divisor is. -/
@[simp] theorem value_div : (a / b).value = a.value / b.value := rfl

/-- The value of the opposite. -/
@[simp] theorem value_neg : (-a).value = -a.value := rfl

/-- Numbers are ordered by their values. -/
theorem lt_iff : a < b ↔ a.value < b.value := Iff.rfl

theorem le_iff : a ≤ b ↔ a.value ≤ b.value := Iff.rfl

/-- All exact numbers are finite. -/
@[simp] theorem isFinite_eq : Scalar.isFinite a = true := rfl

@[simp] theorem value_zero : (0.0 : Exact i).value = 0 := by
  show (0.0 : ℚ) = 0
  norm_num

@[simp] theorem value_one : (1.0 : Exact i).value = 1 := by
  show (1.0 : ℚ) = 1
  norm_num

@[simp] theorem value_half : (0.5 : Exact i).value = 1 / 2 := by
  show (0.5 : ℚ) = 1 / 2
  norm_num

@[simp] theorem value_two : (2.0 : Exact i).value = 2 := by
  show (2.0 : ℚ) = 2
  norm_num

/-- A second has a million microseconds. -/
@[simp] theorem value_microsPerSecond : (microsPerSecond : Exact i).value = 10 ^ 6 := by
  show (1e6 : ℚ) = 10 ^ 6
  norm_num

/-- Times are exact, however late they are. -/
@[simp] theorem value_ofMicros (time : UInt64) :
    (Scalar.ofMicros time : Exact i).value = time.toNat := rfl

instance : LawfulBEq (Exact i) where
  eq_of_beq {a b} h := by
    have h : (a.value == b.value) = true := h
    exact Exact.ext (eq_of_beq h)
  rfl {a} := by
    show (a.value == a.value) = true
    exact beq_self_eq_true _

/-- The magnitude is the absolute value. -/
@[simp] theorem value_magnitude : (Scalar.magnitude a).value = |a.value| := by
  unfold Scalar.magnitude
  split
  next h =>
    rw [lt_iff, value_zero] at h
    rw [value_neg, abs_of_neg h]
  next h =>
    rw [lt_iff, value_zero, not_lt] at h
    rw [abs_of_nonneg h]

/-- Without NaN the greater of two numbers is their maximum. -/
@[simp] theorem value_larger : (Scalar.larger a b).value = max a.value b.value := by
  unfold Scalar.larger
  simp only [beq_self_eq_true, if_true]
  split
  next h => rw [max_eq_left ((le_iff b a).mp h)]
  next h => rw [max_eq_right (not_le.mp fun k => h ((le_iff b a).mpr k)).le]

/-- Without NaN the lesser of two numbers is their minimum. -/
@[simp] theorem value_smaller : (Scalar.smaller a b).value = min a.value b.value := by
  unfold Scalar.smaller
  simp only [beq_self_eq_true, if_true]
  split
  next h => rw [min_eq_left ((le_iff a b).mp h)]
  next h => rw [min_eq_right (not_le.mp fun k => h ((le_iff a b).mpr k)).le]

end Exact

/-! ### Vectors by their coordinates -/

namespace Vec2

section

variable {α : Type} [Scalar α] (v w : Vec2 α)

/-- Vectors are added axis by axis. -/
theorem add_def : v + w = ⟨v.x + w.x, v.y + w.y⟩ := rfl

/-- They are subtracted axis by axis. -/
theorem sub_def : v - w = ⟨v.x - w.x, v.y - w.y⟩ := rfl

/-- They are multiplied axis by axis. -/
theorem mul_def : v * w = ⟨v.x * w.x, v.y * w.y⟩ := rfl

/-- They are divided axis by axis. -/
theorem div_def : v / w = ⟨v.x / w.x, v.y / w.y⟩ := rfl

end

variable {i : Irrational}

/-- Two vectors are the same if their coordinates have the same values. -/
theorem ext_value {v w : Vec2 (Exact i)} (x : v.x.value = w.x.value) (y : v.y.value = w.y.value) :
    v = w := by
  obtain ⟨⟨vx⟩, ⟨vy⟩⟩ := v
  obtain ⟨⟨wx⟩, ⟨wy⟩⟩ := w
  simp only at x y
  rw [x, y]

instance : LawfulBEq (Vec2 (Exact i)) where
  eq_of_beq {v w} h := by
    have h : (v.x == w.x && v.y == w.y) = true := h
    rw [Bool.and_eq_true, beq_iff_eq, beq_iff_eq] at h
    exact ext_value (congrArg _ h.1) (congrArg _ h.2)
  rfl {v} := by
    show (v.x == v.x && v.y == v.y) = true
    rw [beq_self_eq_true, beq_self_eq_true]
    rfl

/-- All vectors with exact coordinates are finite. -/
@[simp] theorem isFinite_exact (v : Vec2 (Exact i)) : v.isFinite = true := rfl

end Vec2

/-! ### Views whose scale is above zero -/

namespace Viewport

variable {i : Irrational}

/-- The scale of the view is above zero on both axes. -/
structure Proper (view : Viewport (Exact i)) : Prop where
  x : 0 < view.scale.x.value
  y : 0 < view.scale.y.value

/-- The view at the start has no scale of zero. -/
theorem proper_start : (start : Viewport (Exact i)).Proper where
  x := by
    show 0 < (1.0 : Exact i).value
    rw [Exact.value_one]
    exact one_pos
  y := by
    show 0 < (1.0 : Exact i).value
    rw [Exact.value_one]
    exact one_pos

/-- A scale is accepted if it is above zero. -/
theorem isGoodScale_iff (scale : Vec2 (Exact i)) :
    isGoodScale scale ↔ 0 < scale.x.value ∧ 0 < scale.y.value := by
  rw [isGoodScale, Vec2.isFinite_exact, Bool.true_and, Bool.not_eq_true', decide_eq_false_iff_not,
    Exact.le_iff, Exact.value_zero, Vec2.smallest, Exact.value_smaller, not_le, lt_min_iff]

variable {view : Viewport (Exact i)}

namespace Proper

/-- Panning does not touch the scale. -/
protected theorem pan (proper : view.Proper) (displacement : Vec2 (Exact i)) :
    (view.pan displacement).Proper := ⟨proper.x, proper.y⟩

/-- A zoom that is not refused leads to a proper view. -/
protected theorem zoomAbout {pivot : Vec2 (Exact i)} {factor : Exact i}
    {zoomed : Viewport (Exact i)} (ok : view.zoomAbout pivot factor = .ok zoomed) :
    zoomed.Proper := by
  unfold Viewport.zoomAbout at ok
  split at ok
  · cases ok
  · split at ok
    · cases ok
    · dsimp only at ok
      split at ok
      · cases ok
      · rename_i good
        cases ok
        rw [Bool.not_eq_true', Bool.not_eq_false] at good
        obtain ⟨x, y⟩ := (isGoodScale_iff _).mp good
        exact ⟨x, y⟩

/-- What is found under a point of the screen appears there. -/
theorem toGlobal_toLocal (proper : view.Proper) (point : Vec2 (Exact i)) :
    view.toGlobal (view.toLocal point) = point := by
  simp only [toGlobal, toLocal, Vec2.add_def, Vec2.sub_def, Vec2.mul_def, Vec2.div_def]
  refine Vec2.ext_value ?_ ?_
  · simp [proper.x.ne']
  · simp [proper.y.ne']

/-- After panning, what is under a point of the screen has gone back by as much. -/
theorem toLocal_pan (proper : view.Proper) (displacement point : Vec2 (Exact i)) :
    (view.pan displacement).toLocal point = view.toLocal point - displacement := by
  have axis (p o s d : ℚ) (pos : 0 < s) : (p - (o + s * d)) / s = (p - o) / s - d := by
    rw [← sub_sub, sub_div, mul_div_cancel_left₀ d pos.ne']
  exact Vec2.ext_value (axis _ _ _ _ proper.x) (axis _ _ _ _ proper.y)

/-- Panning by what a point of the screen is off a point of the world brings the two together. -/
theorem toLocal_pan_sub (proper : view.Proper) (point anchor : Vec2 (Exact i)) :
    (view.pan (view.toLocal point - anchor)).toLocal point = anchor := by
  rw [proper.toLocal_pan]
  exact Vec2.ext_value (sub_sub_cancel _ _) (sub_sub_cancel _ _)

end Proper

/-- Panning by nothing leaves the view where it is. -/
theorem pan_zero (view : Viewport (Exact i)) : view.pan .zero = view := by
  have offset : view.offset + view.scale * .zero = view.offset := by
    refine Vec2.ext_value ?_ ?_
    · simp [Vec2.add_def, Vec2.mul_def, Vec2.zero]
    · simp [Vec2.add_def, Vec2.mul_def, Vec2.zero]
  rw [pan, offset]

end Viewport

end DeadReckoning
