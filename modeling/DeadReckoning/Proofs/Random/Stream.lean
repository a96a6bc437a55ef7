import DeadReckoning.Proofs.Feed.Draws

namespace DeadReckoning

open Binary64 Float.Model Float.Model.UnpackedFloat

/-!
# Streams — numbers drawn from a stream of random words are in their range

Rounding may bring a point of an interval to its upper end, but never below its lower one. What
reaches the upper end, or is beyond the doubles, does not count as drawn.

* `always_firstSuccess` — draws that are tried again
* `ChaCha.always_unit` — the random bits make a number from zero to one
* `ChaCha.always_tryReal` — a point of an interval; with it a `ChaCha` stream is lawful
-/

/-- What holds of every success, and of what is held ready, holds of the first success. -/
theorem always_firstSuccess {σ α : Type} {attempt : StateM σ (Option α)} {otherwise : α}
    {P : α → Prop} (tried : Always attempt fun x? => ∀ x, x? = some x → P x) (ready : P otherwise)
    (attempts : ℕ) : Always (firstSuccess attempt otherwise attempts) P := by
  induction attempts with
  | zero => exact .pure ready
  | succ attempts ih =>
    refine tried.bind fun x? good => ?_
    cases x? with
    | none => exact ih
    | some x => exact .pure (good x rfl)

/-! ### Doubles near one -/

namespace Binary64

/-- The upper bits of a word behind the exponent of one. -/
theorem toBitVec_unit (w : UInt64) : (w >>> 12 ||| 0x3ff0000000000000).toBitVec =
    packComponents Format.binary64 .positive 1023#11 (BitVec.ofNat 52 (w.toNat / 2 ^ 12)) := by
  have bits : w.toNat / 2 ^ 12 < 2 ^ 52 := by
    have := w.toNat_lt
    omega
  apply BitVec.eq_of_toNat_eq
  show (w >>> 12 ||| 0x3ff0000000000000).toNat =
    (0#1 ++ 1023#11 ++ BitVec.ofNat 52 (w.toNat / 2 ^ 12)).toNat
  rw [UInt64.toNat_or, UInt64.toNat_shiftRight, BitVec.toNat_append, BitVec.toNat_ofNat,
    Nat.mod_eq_of_lt bits, Nat.or_comm]
  show 1023 <<< 52 ||| w.toNat >>> 12 = 1023 <<< 52 ||| w.toNat / 2 ^ 12
  rw [Nat.shiftRight_eq_div_pow]

/-- They make a number from one to below two. -/
theorem exists_isMagnitude_unit (w : UInt64) : ∃ k < 2 ^ 52,
    IsMagnitude (Float.ofBits (w >>> 12 ||| 0x3ff0000000000000))
      ((2 ^ 52 + k : ℕ) * 2 ^ (-52 : ℤ)) := by
  obtain ⟨k, isBits⟩ : ∃ k, w.toNat / 2 ^ 12 = k := ⟨_, rfl⟩
  have small : k < 2 ^ 52 := by
    have := w.toNat_lt
    omega
  -- the leading one is not stored, and the exponent is that of the numbers from one to two
  have canonical : Canonical (2 ^ 52 + k) (-52) :=
    ⟨⟨by omega, by omega, by norm_num, .inl (by omega)⟩, by norm_num⟩
  have unpacked : UnpackedFloat.unpack Format.binary64 (w >>> 12 ||| 0x3ff0000000000000).toBitVec =
      .finite .positive (2 ^ 52 + k) (-52) canonical.pos := by
    rw [toBitVec_unit, unpack_components, if_neg (by decide), if_neg (by decide), isBits]
    apply finite_congr
    · rw [BitVec.toNat_ofNat, Nat.mod_eq_of_lt small]
    · rfl
  have packed : (Float.ofBits (w >>> 12 ||| 0x3ff0000000000000)).toModel.unpack =
      .finite .positive (2 ^ 52 + k) (-52) canonical.pos := by
    show (Float.Model.pack (UnpackedFloat.unpack Format.binary64 _)).unpack = _
    rw [unpacked]
    exact unpack_pack_finite .positive canonical
  exact ⟨k, small, .finite packed⟩

end Binary64

namespace ChaCha

/-- The random bits make a number from zero to one. -/
theorem always_unit : Always unit fun u => ∃ v, IsValue u v ∧ 0 ≤ v ∧ v ≤ 1 := by
  have step := two_zpow_pos (-52)
  have whole : (2 : ℚ) ^ 52 * 2 ^ (-52 : ℤ) = 1 := by
    rw [two_pow_mul_two_zpow]
    norm_num
  refine (Always.any word).bind fun w _ => .pure ?_
  obtain ⟨k, small, above⟩ := exists_isMagnitude_unit w
  have difference : ((2 ^ 52 + k : ℕ) : ℚ) * 2 ^ (-52 : ℤ) - 1 = k * 2 ^ (-52 : ℤ) := by
    rw [Nat.cast_add, Nat.cast_pow, Nat.cast_ofNat, add_mul, whole, add_sub_cancel_left]
  have nonneg : 0 ≤ (k : ℚ) * 2 ^ (-52 : ℤ) := mul_nonneg k.cast_nonneg step.le
  have le : (k : ℚ) * 2 ^ (-52 : ℤ) ≤ 1 := by
    rw [← whole]
    exact mul_le_mul_of_nonneg_right (by exact_mod_cast small.le) step.le
  -- all bits of the difference fit into a double
  have same : rounded ((k : ℚ) * 2 ^ (-52 : ℤ)) = k * 2 ^ (-52 : ℤ) := by
    rw [rounded, if_neg (not_lt.mpr nonneg)]
    exact nearest_of_lt (by omega) (by norm_num)
  have value := above.isValue.sub isMagnitude_one.isValue
  rw [difference, same] at value
  refine ⟨_, value (isMagnitude_one.isValue.nearest_lt_overflow ?_), nonneg, le⟩
  rwa [abs_one, abs_of_nonneg nonneg]

/-- The length of an interval, if it is finite, is not negative. -/
theorem exists_isValue_length {low high : Float} {p q : ℚ} (hl : IsValue low p)
    (hh : IsValue high q) (length : (high - low).isFinite) (apart : p < q) :
    ∃ v, IsValue (high - low) v ∧ 0 ≤ v := by
  by_cases fits : nearest |q - p| < overflow
  · exact ⟨_, hh.sub hl fits, isValue_zero.le_rounded (sub_nonneg.mpr apart.le)⟩
  · have positive : 0 < q + -p := by rwa [← sub_eq_add_neg, sub_pos]
    rw [sub_eq_add_neg, abs_of_pos positive, not_lt] at fits
    have infinite := hh.unpack_add_infinite hl.neg positive fits
    have finite : (high + -low).toModel.unpack.isFinite = true := hh.sub_eq_add hl ▸ length
    rw [infinite] at finite
    cases finite

/-- A point of an interval that counts as drawn. -/
theorem always_tryReal {low high : Float} (finite : low.isFinite ∧ high.isFinite)
    (length : (high - low).isFinite) (apart : low < high) :
    Always (tryReal low high) fun x? => ∀ x, x? = some x → low ≤ x ∧ x < high := by
  obtain ⟨p, hl⟩ := isFinite_iff_exists_isValue.mp finite.1
  obtain ⟨q, hh⟩ := isFinite_iff_exists_isValue.mp finite.2
  obtain ⟨span, hs, span_nonneg⟩ :=
    exists_isValue_length hl hh length ((hl.lt_iff hh).mp apart)
  refine always_unit.bind fun u ⟨part, hu, part_nonneg, part_le⟩ => .pure ?_
  intro x drawn
  obtain ⟨below, isPoint⟩ := Option.ite_none_right_eq_some.mp drawn
  obtain rfl := Option.some.inj isPoint
  refine ⟨?_, below⟩
  have offset_nonneg : 0 ≤ part * span := mul_nonneg part_nonneg span_nonneg
  have inside : |part * span| ≤ |span| := by
    rw [abs_of_nonneg offset_nonneg, abs_of_nonneg span_nonneg]
    exact mul_le_of_le_one_left span_nonneg part_le
  have offset := hu.mul hs (hs.nearest_lt_overflow inside)
  have rounded_nonneg : 0 ≤ rounded (part * span) := isValue_zero.le_rounded offset_nonneg
  by_cases fits : nearest |rounded (part * span) + p| < overflow
  · exact (hl.le_iff (offset.add hl fits)).mpr
      (hl.le_rounded (le_add_of_nonneg_left rounded_nonneg))
  · -- what is beyond the doubles is above the upper end
    have positive : 0 < rounded (part * span) + p := by
      by_contra negative
      refine fits (hl.nearest_lt_overflow ?_)
      rw [abs_of_nonpos (not_lt.mp negative), abs_of_nonpos (by linarith)]
      linarith
    rw [abs_of_pos positive, not_lt] at fits
    exact absurd below (hh.not_lt_of_infinite (offset.unpack_add_infinite hl positive fits))

instance : LawfulChance ChaCha where
  real finite length apart := by
    refine always_firstSuccess (always_tryReal finite length apart) ⟨?_, apart⟩ patience
    obtain ⟨v, value⟩ := isFinite_iff_exists_isValue.mp finite.1
    exact (value.le_iff value).mpr le_rfl

end ChaCha

end DeadReckoning
