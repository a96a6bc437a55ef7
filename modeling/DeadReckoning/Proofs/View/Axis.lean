import DeadReckoning.Proofs.Binary64.Errors

namespace DeadReckoning.Axis

/-!
# One axis of the view — what rounding makes of a movement and of a notch

The point of the world under the pointer is a quotient by the scale, and it is multiplied by the
scale again. On the way a movement takes the offset away and adds it once more, and so does a notch.
Without rounding that cancels: a movement leads to an offset that does not depend on the one before,
a notch to one that is at most as many times as great as the zoom factor. With rounding it cancels
but for a small part, so that offsets grow hardly faster.

Here `p` is the pointer, `o` the offset, `s` the scale, `a` the point held and `k` the factor of a
notch. The pointer is within `reach` pixels, the offset and the point held within `bound`.

* `local_err`, `drag_le`, `zoom_le` — the errors of rounding, added up
* `IsShown` — a point of the world that the scale maps to some pixels
* `isShown_toLocal` — the point under the pointer
* `hasBound_drag`, `hasBound_zoom` — the offset after a movement and a notch
* `isShown_zoom` — the point held after a notch
-/

open Binary64

variable {reach bound most : ℚ}

/-! ### Errors of rounding, added up -/

section Errors

variable {p o a d l m δ n f x o₁ : ℚ}

/-- How far off is what is found under the pointer, `l`, in pixels. -/
theorem local_err (hp : |p| ≤ reach) (ho : |o| ≤ bound) (one_le : 1 ≤ reach)
    (hd : IsNear (p - o) d) (hl : IsNear d l) : |l - (p - o)| ≤ (reach + bound) / 2 ^ 48 := by
  have nonneg : 0 ≤ bound := (abs_nonneg o).trans ho
  have exact_le : |p - o| ≤ reach + bound := (abs_sub p o).trans (add_le_add hp ho)
  have d_err := hd.abs_sub_le exact_le
  have d_le : |d| ≤ 2 * (reach + bound) := (hd.abs_le exact_le).trans (by linarith)
  have l_err := hl.abs_sub_le d_le
  calc |l - (p - o)| ≤ |l - d| + |d - (p - o)| := abs_sub_le _ _ _
    _ ≤ (reach + bound) / 2 ^ 48 := by linarith

/-- What is found under the pointer is bounded by pointer and offset. -/
theorem local_le (hp : |p| ≤ reach) (ho : |o| ≤ bound)
    (hl : |l - (p - o)| ≤ (reach + bound) / 2 ^ 48) :
    |l| ≤ (1 + 1 / 2 ^ 48) * (reach + bound) :=
  calc |l| = |p - o + (l - (p - o))| := by rw [add_sub_cancel]
    _ ≤ |p| + |o| + |l - (p - o)| := (abs_add_le _ _).trans (add_le_add_left (abs_sub p o) _)
    _ ≤ (1 + 1 / 2 ^ 48) * (reach + bound) := by linarith

/-- The displacement `δ` of a movement, and the offset that it leads to. -/
theorem drag_le (hp : |p| ≤ reach) (ho : |o| ≤ bound) (ha : |a| ≤ bound) (one_le : 1 ≤ reach)
    (hl : |l - (p - o)| ≤ (reach + bound) / 2 ^ 48) (hδ : IsNear (l - a) δ) (hm : IsNear δ m) :
    |δ| ≤ 4 * (reach + bound) ∧ |o + m| ≤ (1 + 1 / 2 ^ 47) * (reach + bound) := by
  have nonneg : 0 ≤ bound := (abs_nonneg a).trans ha
  have l_le := local_le hp ho hl
  have exact_le : |l - a| ≤ 3 * (reach + bound) := (abs_sub l a).trans (by linarith)
  have δ_err := hδ.abs_sub_le exact_le
  have δ_le : |δ| ≤ 4 * (reach + bound) := (hδ.abs_le exact_le).trans (by linarith)
  have m_err := hm.abs_sub_le δ_le
  refine ⟨δ_le, ?_⟩
  -- the offset cancels, and the pointer less the point held is left
  have cancels : o + m = p - a + (m - δ + (δ - (l - a)) + (l - (p - o))) := by ring
  calc |o + m| ≤ |p - a| + |m - δ + (δ - (l - a)) + (l - (p - o))| := by
        rw [cancels]
        exact abs_add_le _ _
    _ ≤ |p| + |a| + (|m - δ| + |δ - (l - a)| + |l - (p - o)|) :=
        add_le_add (abs_sub p a) (abs_add_three _ _ _)
    _ ≤ (1 + 1 / 2 ^ 47) * (reach + bound) := by linarith

/-- The two sums of a notch with a factor `f`, and the product between them. -/
theorem zoom_le (hp : |p| ≤ reach) (ho : |o| ≤ bound) (one_le : 1 ≤ reach) (hf : |f| ≤ most)
    (one_le_most : 1 ≤ most) (hl : |l - (p - o)| ≤ (reach + bound) / 2 ^ 48) (hm : IsNear l m)
    (ho₁ : IsNear (o + m) o₁) (hx : IsNear (f * l) x) (hn : IsNear (-x) n) :
    |o + m| ≤ 2 * (reach + bound) ∧ |x| ≤ 3 * (most * (reach + bound)) ∧
      |o₁ + n| ≤ (1 + 1 / 2 ^ 46) * (most * (2 * reach + bound)) := by
  have nonneg : 0 ≤ bound := (abs_nonneg o).trans ho
  have most_nonneg : 0 ≤ most := zero_le_one.trans one_le_most
  have reach_le : reach ≤ most * reach := le_mul_of_one_le_left (by linarith) one_le_most
  have bound_le : bound ≤ most * bound := le_mul_of_one_le_left nonneg one_le_most
  have l_le := local_le hp ho hl
  have m_err := hm.abs_sub_le l_le
  -- the first sum brings the origin of the world under the pointer
  have cancels : o + m = p + (m - l + (l - (p - o))) := by ring
  have sum_err : |m - l + (l - (p - o))| ≤ (reach + bound) / 2 ^ 47 :=
    (abs_add_le _ _).trans (by linarith)
  have sum_le : |o + m| ≤ 2 * (reach + bound) := by
    rw [cancels]
    exact (abs_add_le _ _).trans (by linarith)
  have o₁_err := ho₁.abs_sub_le sum_le
  have product_le : |f * l| ≤ 2 * (most * (reach + bound)) :=
    calc |f * l| = |f| * |l| := abs_mul f l
      _ ≤ most * (2 * (reach + bound)) :=
        mul_le_mul hf (l_le.trans (by linarith)) (abs_nonneg l) most_nonneg
      _ = 2 * (most * (reach + bound)) := by ring
  have product_err : |f * (l - (p - o))| ≤ most * (reach + bound) / 2 ^ 48 :=
    calc |f * (l - (p - o))| = |f| * |l - (p - o)| := abs_mul _ _
      _ ≤ most * ((reach + bound) / 2 ^ 48) := mul_le_mul hf hl (abs_nonneg _) most_nonneg
      _ = most * (reach + bound) / 2 ^ 48 := by ring
  have x_err := hx.abs_sub_le product_le
  have x_le : |x| ≤ 3 * (most * (reach + bound)) := (hx.abs_le product_le).trans (by linarith)
  have n_err := hn.abs_sub_le ((abs_neg x).trans_le x_le)
  refine ⟨sum_le, x_le, ?_⟩
  -- the second one brings the pivot there again, in the new scale
  have moved : o₁ + n = p - f * p + f * o + (o₁ - (o + m) + (m - l + (l - (p - o))) +
      (n - -x - (x - f * l) - f * (l - (p - o)))) := by ring
  have exact_le : |p - f * p + f * o| ≤ most * (2 * reach + bound) :=
    calc |p - f * p + f * o| ≤ |p| + |f| * |p| + |f| * |o| := by
          rw [← abs_mul, ← abs_mul]
          exact (abs_add_le _ _).trans (add_le_add_left (abs_sub _ _) _)
      _ ≤ most * reach + most * reach + most * bound :=
        add_le_add (add_le_add (hp.trans reach_le) (mul_le_mul hf hp (abs_nonneg p) most_nonneg))
          (mul_le_mul hf ho (abs_nonneg o) most_nonneg)
      _ = most * (2 * reach + bound) := by ring
  have rest_err : |n - -x - (x - f * l) - f * (l - (p - o))| ≤
      |n - -x| + |x - f * l| + |f * (l - (p - o))| :=
    (abs_sub _ _).trans (add_le_add_left (abs_sub _ _) _)
  calc |o₁ + n| ≤ |p - f * p + f * o| + (|o₁ - (o + m)| + |m - l + (l - (p - o))| +
        |n - -x - (x - f * l) - f * (l - (p - o))|) := by
        rw [moved]
        exact (abs_add_le _ _).trans (add_le_add_right (abs_add_three _ _ _) _)
    _ ≤ (1 + 1 / 2 ^ 46) * (most * (2 * reach + bound)) := by linarith

end Errors

/-! ### Movements and notches -/

variable {p o s a k : Float} {q v w : ℚ}

/-- A finite number of the world that the scale maps to at most `bound` pixels. -/
def IsShown (bound : ℚ) (s a : Float) : Prop := ∃ q v, IsValue s q ∧ IsValue a v ∧ |q * v| ≤ bound

theorem IsShown.mono {other : ℚ} (h : IsShown bound s a) (le : bound ≤ other) :
    IsShown other s a := by
  obtain ⟨q, v, hs, ha, shown⟩ := h
  exact ⟨q, v, hs, ha, shown.trans le⟩

/-- What is found under the pointer, if it is finite. -/
theorem exists_toLocal (hs : IsMagnitude s q) (pos : 0 < q) (hp : IsValue p v) (near : |v| ≤ reach)
    (ho : IsValue o w) (small : |w| ≤ bound) (one_le : 1 ≤ reach)
    (room : 2 * (reach + bound) ≤ overflow) (finite : ((p - o) / s).isFinite) :
    ∃ l, IsValue ((p - o) / s) l ∧ |q * l - (v - w)| ≤ (reach + bound) / 2 ^ 48 := by
  have exact_le : |v - w| ≤ reach + bound := (abs_sub v w).trans (add_le_add near small)
  have hd := hp.sub ho (nearest_lt_overflow_of_abs_le (by linarith))
  refine ⟨_, hd.div_of_isFinite hs pos finite, ?_⟩
  have hl := isNear_mul_rounded (rounded (v - w) / q) hs.isValue.abs_lt_overflow
  rw [mul_div_cancel₀ _ pos.ne'] at hl
  exact local_err near small one_le (isNear_rounded _) hl

/-- A point that is taken hold of is shown within pointer and offset, with hardly more for the
errors. -/
theorem isShown_toLocal (hs : IsMagnitude s q) (pos : 0 < q) (hp : HasBound reach p)
    (ho : HasBound bound o) (one_le : 1 ≤ reach) (room : 2 * (reach + bound) ≤ overflow)
    (finite : ((p - o) / s).isFinite) :
    IsShown ((1 + 1 / 2 ^ 48) * (reach + bound)) s ((p - o) / s) := by
  obtain ⟨v, hp, near⟩ := hp
  obtain ⟨w, ho, small⟩ := ho
  obtain ⟨l, hl, err⟩ := exists_toLocal hs pos hp near ho small one_le room finite
  exact ⟨q, l, hs.isValue, hl, local_le near small err⟩

/-- A movement pans by what the pointer is off the point held. -/
theorem hasBound_drag (hs : IsMagnitude s q) (pos : 0 < q) (hp : HasBound reach p)
    (ho : HasBound bound o) (ha : IsShown bound s a) (one_le : 1 ≤ reach)
    (room : 8 * (reach + bound) ≤ overflow) (finite : ((p - o) / s - a).isFinite) :
    HasBound ((1 + 1 / 2 ^ 46) * (reach + bound)) (o + s * ((p - o) / s - a)) := by
  obtain ⟨v, hp, near⟩ := hp
  obtain ⟨w, ho, small⟩ := ho
  obtain ⟨q', u, hs', ha, shown⟩ := ha
  obtain rfl := hs'.unique hs.isValue
  have nonneg : 0 ≤ bound := (abs_nonneg w).trans small
  obtain ⟨l, hl, err⟩ := exists_toLocal hs pos hp near ho small one_le (by linarith)
    (isFinite_sub finite).1
  have hδ := hl.sub_of_isFinite ha finite
  have near_δ := isNear_mul_rounded (l - u) hs.isValue.abs_lt_overflow
  rw [mul_sub] at near_δ
  -- the roundings of the quotient, the difference, the product and the sum, one on top of another
  obtain ⟨δ_le, sum_le⟩ := drag_le near small shown one_le err near_δ (isNear_rounded _)
  have hm := hs.isValue.mul hδ (nearest_lt_overflow_of_abs_le (by linarith))
  have sum := ho.add hm (nearest_lt_overflow_of_abs_le (by linarith))
  refine ⟨_, sum, ((isNear_rounded _).abs_le sum_le).trans (by linarith)⟩

/-- A notch pans to the pivot, zooms and pans back. -/
theorem hasBound_zoom (hs : IsMagnitude s q) (pos : 0 < q) (hp : HasBound reach p)
    (ho : HasBound bound o) (hk : HasBound most k) (one_le : 1 ≤ reach) (one_le_most : 1 ≤ most)
    (room : 8 * (most * (2 * reach + bound)) ≤ overflow) (pivot : ((p - o) / s).isFinite)
    (scale : (s * k).isFinite) :
    HasBound ((1 + 1 / 2 ^ 45) * (most * (2 * reach + bound)))
      (o + s * ((p - o) / s) + s * k * -((p - o) / s)) := by
  obtain ⟨v, hp, near⟩ := hp
  obtain ⟨w, ho, small⟩ := ho
  obtain ⟨f, hk, factor⟩ := hk
  have nonneg : 0 ≤ bound := (abs_nonneg w).trans small
  -- how far the offset came bounds all that is added to it on the way
  have wider : 2 * reach + bound ≤ most * (2 * reach + bound) :=
    le_mul_of_one_le_left (by linarith) one_le_most
  have narrower : most * (reach + bound) ≤ most * (2 * reach + bound) :=
    mul_le_mul_of_nonneg_left (by linarith) (by linarith)
  obtain ⟨l, hl, err⟩ := exists_toLocal hs pos hp near ho small one_le (by linarith) pivot
  have hs' := hs.isValue.mul_of_isFinite hk scale
  have near_x := isNear_mul_rounded (q * f) hl.abs_lt_overflow
  rw [show l * (q * f) = f * (q * l) by ring] at near_x
  obtain ⟨first_le, x_le, second_le⟩ := zoom_le near small one_le factor one_le_most err
    (isNear_rounded _) (isNear_rounded _) near_x (isNear_rounded _)
  have l_le := local_le near small err
  have hm := hs.isValue.mul hl (nearest_lt_overflow_of_abs_le (by linarith))
  have first := ho.add hm (nearest_lt_overflow_of_abs_le (by linarith))
  -- panning back takes away as many times the place as panning there added
  have product : rounded (q * f) * -l = -(l * rounded (q * f)) := by ring
  have hn := hs'.mul hl.neg (nearest_lt_overflow_of_abs_le (by
    rw [product, abs_neg]
    linarith))
  rw [product] at hn
  have second := first.add hn (nearest_lt_overflow_of_abs_le (by linarith))
  exact ⟨_, second, ((isNear_rounded _).abs_le second_le).trans (by linarith)⟩

/-- The point held lies as many times further off after a notch. -/
theorem isShown_zoom (ha : IsShown bound s a) (hk : HasBound most k) (one_le : 1 ≤ reach)
    (one_le_most : 1 ≤ most) (scale : (s * k).isFinite) :
    IsShown ((1 + 1 / 2 ^ 45) * (most * (2 * reach + bound))) (s * k) a := by
  obtain ⟨q, v, hs, ha, shown⟩ := ha
  obtain ⟨f, hk, factor⟩ := hk
  have nonneg : 0 ≤ bound := (abs_nonneg _).trans shown
  have reach_le : reach ≤ most * reach := le_mul_of_one_le_left (by linarith) one_le_most
  have near := isNear_mul_rounded (q * f) ha.abs_lt_overflow
  -- without rounding the point held would lie at most `most` times as far off
  have exact_le : |v * (q * f)| ≤ most * bound :=
    calc |v * (q * f)| = |f| * |q * v| := by
          rw [← abs_mul]
          congr 1
          ring
      _ ≤ most * bound := mul_le_mul factor shown (abs_nonneg _) (by linarith)
  have held := near.abs_le exact_le
  refine ⟨_, v, hs.mul_of_isFinite hk scale, ha, ?_⟩
  rw [mul_comm]
  have wide : 0 ≤ most * bound := mul_nonneg (by linarith) nonneg
  exact held.trans (by linarith)

end DeadReckoning.Axis
