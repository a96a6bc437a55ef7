import DeadReckoning.Proofs.Binary64.Values
import DeadReckoning.Random.Draw

namespace DeadReckoning

/-!
# Draws — what holds whatever is drawn

* `Always` — a property that what is drawn has in every state of the source; `Always.bind`,
  `Always.mapM`, `Always.filterM` — draws one after the other
* `LawfulChance` — sources whose real numbers are in the range that was asked for
* `always_real_isWithin`, `always_real_pos` — bounds of real numbers
* `Lowest` — the source that always draws the lowest number
-/

open Binary64

variable {σ α β : Type}

/-- What is drawn has a property, whatever the state of the source. -/
def Always (draw : StateM σ α) (P : α → Prop) : Prop := ∀ source, P (draw source).1

namespace Always

variable {draw : StateM σ α} {P Q : α → Prop}

theorem any (draw : StateM σ α) : Always draw fun _ => True := fun _ => trivial

theorem mono (h : Always draw P) (weaker : ∀ x, P x → Q x) : Always draw Q :=
  fun source => weaker _ (h source)

protected theorem pure {x : α} (h : P x) : Always (pure x : StateM σ α) P := fun _ => h

/-- Draws one after the other: the next one may rely on what holds of the first. -/
protected theorem bind {next : α → StateM σ β} {R : β → Prop} (first : Always draw P)
    (then_ : ∀ x, P x → Always (next x) R) : Always (draw >>= next) R :=
  fun source => then_ _ (first source) _

/-- What is drawn for each element of a list. -/
protected theorem mapM {f : α → StateM σ β} {R : α → β → Prop} {xs : List α}
    (h : ∀ x ∈ xs, Always (f x) (R x)) : Always (xs.mapM f) (List.Forall₂ R xs) := by
  induction xs with
  | nil => exact .pure .nil
  | cons x xs ih =>
    rw [List.mapM_cons]
    refine (h x List.mem_cons_self).bind fun y first => ?_
    refine (ih fun x' mem => h x' (List.mem_cons_of_mem x mem)).bind fun ys others => ?_
    exact .pure (.cons first others)

/-- What chance selects is a part of what it selects from, in order. -/
protected theorem filterM (keep : α → StateM σ Bool) (xs : List α) :
    Always (xs.filterM keep) (·.Sublist xs) := by
  -- those kept so far are held in reverse
  have from_ (kept : List α) (xs : List α) :
      Always (xs.filterAuxM keep kept) fun all => all.reverse.Sublist (kept.reverse ++ xs) := by
    induction xs generalizing kept with
    | nil =>
      rw [List.append_nil]
      exact .pure (.refl _)
    | cons x xs ih =>
      rw [List.filterAuxM]
      refine (any (keep x)).bind fun yes _ => ?_
      cases yes with
      | true =>
        refine (ih (x :: kept)).mono fun all part => ?_
        rwa [List.reverse_cons, List.append_assoc] at part
      | false =>
        refine (ih kept).mono fun all part => part.trans ?_
        exact (List.sublist_cons_self x xs).append_left kept.reverse
  rw [List.filterM]
  exact (from_ [] xs).bind fun all part => .pure part

end Always

/-- A source whose real numbers are in the range that is asked for, where this has two ends and a
length. Nothing is asked of its other draws. -/
class LawfulChance (σ : Type) [Chance σ] : Prop where
  real {low high : Float} (finite : low.isFinite ∧ high.isFinite) (length : (high - low).isFinite)
    (apart : low < high) :
    Always (Chance.real low high : StateM σ Float) fun x => low ≤ x ∧ x < high

/-- A real number that is drawn is within the bounds of its range. -/
theorem always_real_isWithin [Chance σ] [LawfulChance σ] {low high : Float} {k : ℕ}
    (hl : IsWithin k low) (hh : IsWithin k high) (length : (high - low).isFinite)
    (apart : low < high) : Always (Chance.real low high : StateM σ Float) (IsWithin k) :=
  (LawfulChance.real ⟨hl.isFinite, hh.isFinite⟩ length apart).mono fun _ ⟨above, below⟩ =>
    hl.between hh above (le_of_lt below)

/-- A range above zero gives numbers above zero. -/
theorem always_real_pos [Chance σ] [LawfulChance σ] {low high : Float}
    (finite : low.isFinite ∧ high.isFinite) (length : (high - low).isFinite) (apart : low < high)
    (pos : (0.0 : Float) < low) :
    Always (Chance.real low high : StateM σ Float) fun x => x.isFinite ∧ (0.0 : Float) < x := by
  obtain ⟨p, hl⟩ := isFinite_iff_exists_isValue.mp finite.1
  obtain ⟨q, hh⟩ := isFinite_iff_exists_isValue.mp finite.2
  have zero : IsValue 0.0 0 := .zero unpack_zero
  refine (LawfulChance.real finite length apart).mono fun x ⟨above, below⟩ => ?_
  obtain ⟨v, value, le, -⟩ := exists_isValue_of_between hl hh above (le_of_lt below)
  exact ⟨isFinite_iff_exists_isValue.mpr ⟨v, value⟩,
    (zero.lt_iff value).mpr (((zero.lt_iff hl).mp pos).trans_le le)⟩

/-- The source of the lowest numbers. -/
inductive Lowest where
  | source

instance : Chance Lowest where
  real low _ := pure low
  natural low _ := pure low
  yes _ := pure true

instance : LawfulChance Lowest where
  real {low high} finite _ apart := by
    obtain ⟨v, value⟩ := isFinite_iff_exists_isValue.mp finite.1
    exact .pure ⟨(value.le_iff value).mpr le_rfl, apart⟩

end DeadReckoning
