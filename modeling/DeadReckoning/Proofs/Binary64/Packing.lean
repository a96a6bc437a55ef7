import Mathlib
import DeadReckoning.Proofs.Binary64.Nearest

namespace DeadReckoning.Binary64

/-!
# Binary64 — doubles and their bits

* `canonical_of_unpack` — the mantissas and exponents that are found in doubles
* `unpack_pack_finite` — a double made of a mantissa and an exponent
* `unpack_pack_infinite` — no double is left for an exponent that is too great
* `eq_of_unpack` — sign, mantissa and exponent tell finite doubles apart
-/

open Float.Model Float.Model.UnpackedFloat

/-! ### Components -/

/-- A pattern of bits is made of components. -/
theorem exists_components (b : BitVec Format.binary64.numBits) :
    ∃ (s : Sign) (exponent : BitVec 11) (mantissa : BitVec 52),
      packComponents Format.binary64 s exponent mantissa = b :=
  ⟨_, _, _, packComponents_unpackSign_unpackExponent_unpackMantissa b⟩

/-- The leading one stands in front of the 52 bits that are stored. -/
theorem toNat_append_mantissa (mantissa : BitVec 52) :
    (1#1 ++ mantissa).toNat = 2 ^ 52 + mantissa.toNat := by
  rw [BitVec.toNat_append, ← Nat.shiftLeft_add_eq_or_of_lt mantissa.isLt]
  rfl

/-! ### What doubles unpack to -/

/-- What a pattern of bits unpacks to, from its components. -/
theorem unpack_components (s : Sign) (exponent : BitVec 11) (mantissa : BitVec 52) :
    UnpackedFloat.unpack Format.binary64 (packComponents Format.binary64 s exponent mantissa) =
      if exponent = -1#_ then (if mantissa = 0#_ then .infinity s else .notANumber)
      else if exponent = 0#_ then
        if h : mantissa = 0#_ then .zero s
        else .finite s mantissa.toNat (-1074)
          (Nat.pos_of_ne_zero fun zero => h (BitVec.eq_of_toNat_eq zero))
      else .finite s (2 ^ 52 + mantissa.toNat) (exponent.toNat - 1075)
        (Nat.add_pos_left (Nat.two_pow_pos 52) _) := by
  unfold UnpackedFloat.unpack
  simp only [unpackMantissa_packComponents, unpackExponent_packComponents,
    unpackSign_packComponents, Sign.ofBitVec_toBitVec, toNat_append_mantissa]
  split
  · rfl
  · split
    · rename_i zero
      subst zero
      rfl
    · rfl

/-- What is found in a double other than zero. -/
theorem canonical_of_unpack {x : Float} {s : Sign} {m : ℕ} {e : ℤ} {pos : 0 < m}
    (h : x.toModel.unpack = .finite s m e pos) : Canonical m e := by
  have h : UnpackedFloat.unpack Format.binary64 x.toModel.toBits.toBitVec = .finite s m e pos := h
  obtain ⟨sign, exponent, mantissa, bits⟩ := exists_components x.toModel.toBits.toBitVec
  rw [← bits, unpack_components] at h
  -- all ones are no finite double, all zeros are the doubles near zero
  have mantissa_lt := mantissa.isLt
  have exponent_lt := exponent.isLt
  split at h
  · split at h <;> cases h
  · rename_i finite
    split at h
    · split at h
      · cases h
      · cases h
        exact ⟨⟨pos, by omega, by omega, .inr rfl⟩, by omega⟩
    · rename_i normal
      have exponent_pos : exponent.toNat ≠ 0 := fun zero => normal (BitVec.eq_of_toNat_eq zero)
      have exponent_ne : exponent.toNat ≠ 2047 := fun all => finite (BitVec.eq_of_toNat_eq all)
      cases h
      exact ⟨⟨pos, by omega, by omega, .inl (by omega)⟩, by omega⟩

/-! ### Making a double -/

variable {m : ℕ} {e : ℤ}

/-- The least of 53 binary digits counts the digits. -/
theorem log2_eq (full : 2 ^ 52 ≤ m) (lt : m < 2 ^ 53) : m.log2 = 52 := by
  have low := (Nat.le_log2 (by omega)).mpr full
  have high := (Nat.log2_lt (by omega)).mpr lt
  omega

/-- A finite number is its sign, its mantissa and its exponent. -/
theorem finite_congr (s : Sign) {m n : ℕ} {e f : ℤ} {hm : 0 < m} (mantissa : m = n)
    (exponent : e = f) : UnpackedFloat.finite s m e hm = .finite s n f (mantissa ▸ hm) := by
  subst mantissa
  subst exponent
  rfl

/-- A double made of the mantissa and exponent of a double has them. -/
theorem unpack_pack_finite (s : Sign) (h : Canonical m e) :
    (Float.Model.pack (.finite s m e h.pos)).unpack = .finite s m e h.pos := by
  show UnpackedFloat.unpack Format.binary64 (UnpackedFloat.pack Format.binary64 _) = _
  have low := h.exponent_ge
  have high := h.exponent_le
  have lt := h.lt
  obtain ⟨biased, isBiased⟩ : ∃ b : ℕ, (e + 1023 + 52).toNat = b := ⟨_, rfl⟩
  unfold UnpackedFloat.pack
  show UnpackedFloat.unpack Format.binary64
    (if 2 ^ 11 ≤ (e + 1023 + 52).toNat + 1 then packedInfinity Format.binary64 s
      else if m.log2 + 1 = 53 then packComponents Format.binary64 s
        (BitVec.ofNat 11 (e + 1023 + 52).toNat) (BitVec.ofNat 52 m)
      else packComponents Format.binary64 s 0#11 (BitVec.ofNat 52 m)) = _
  -- a full mantissa leaves its first digit out, one that is not has the exponent zero
  rw [isBiased, if_neg (by omega)]
  by_cases full : 2 ^ 52 ≤ m
  · have exponent : (BitVec.ofNat 11 biased).toNat = biased := by
      rw [BitVec.toNat_ofNat, Nat.mod_eq_of_lt (by omega)]
    have ne_infinite : BitVec.ofNat 11 biased ≠ -1#_ := by
      intro all
      have all : biased = 2047 := exponent.symm.trans (congrArg BitVec.toNat all)
      omega
    have ne_zero : BitVec.ofNat 11 biased ≠ 0#_ := by
      intro zero
      have zero : biased = 0 := exponent.symm.trans (congrArg BitVec.toNat zero)
      omega
    rw [if_pos (by rw [log2_eq full lt]), unpack_components, if_neg ne_infinite, if_neg ne_zero]
    apply finite_congr
    · rw [BitVec.toNat_ofNat]
      omega
    · rw [exponent]
      omega
  · have least := h.full.resolve_left full
    have log : m.log2 < 52 := (Nat.log2_lt h.pos.ne').mpr (by omega)
    have mantissa : (BitVec.ofNat 52 m).toNat = m := by
      rw [BitVec.toNat_ofNat, Nat.mod_eq_of_lt (by omega)]
    have ne_zero : BitVec.ofNat 52 m ≠ 0#_ := by
      intro zero
      have zero : m = 0 := mantissa.symm.trans (congrArg BitVec.toNat zero)
      exact h.pos.ne' zero
    rw [if_neg (by omega), unpack_components, if_neg (by decide), if_pos rfl, dif_neg ne_zero]
    exact finite_congr s mantissa least.symm

/-- Above the greatest exponent there are no doubles left. -/
theorem unpack_pack_infinite (s : Sign) (pos : 0 < m) (great : 971 < e) :
    (Float.Model.pack (.finite s m e pos)).unpack = .infinity s := by
  show UnpackedFloat.unpack Format.binary64 (UnpackedFloat.pack Format.binary64 _) = _
  unfold UnpackedFloat.pack
  show UnpackedFloat.unpack Format.binary64
    (if 2 ^ 11 ≤ (e + 1023 + 52).toNat + 1 then packedInfinity Format.binary64 s
      else if m.log2 + 1 = 53 then packComponents Format.binary64 s
        (BitVec.ofNat 11 (e + 1023 + 52).toNat) (BitVec.ofNat 52 m)
      else packComponents Format.binary64 s 0#11 (BitVec.ofNat 52 m)) = _
  rw [if_pos (by omega), packedInfinity]
  refine (unpack_components s (-1#11) 0#52).trans ?_
  rw [if_pos rfl, if_pos rfl]

/-- Zeros keep their sign. -/
theorem unpack_pack_zero (s : Sign) : (Float.Model.pack (.zero s)).unpack = .zero s :=
  unpack_packedZero

/-- What is found in a double tells it apart from all others. -/
theorem eq_of_unpack {x y : Float} (h : x.toModel.unpack = y.toModel.unpack) : x = y :=
  Float.toBits_inj.mp (UInt64.toBitVec_inj.mp
    ((unpack_inj_of_valid x.toModel.valid y.toModel.valid).mp h))

end DeadReckoning.Binary64
