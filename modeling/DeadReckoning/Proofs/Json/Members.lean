import DeadReckoning.Json.Value
import Mathlib.Data.List.Induction
import Mathlib.Data.List.Nodup

namespace DeadReckoning.Json

/-!
# Members — an object as a map from names to values

The members of an object are kept in the order of the text, but only the last one of a name counts.
So their order is of no account if their names differ, and a member is of no account to the others.

* `lastMember?_append` — the later members come first
* `lastMember?_extra`, `lastMember?_perm` — other members, and other orders
* `onlyMember?_eq_some_iff` — objects with one name
* `Value.Mentions` — the numbers that are somewhere in a value
-/

variable {name key : String} {v : Value} {members others : List (String × Value)}

/-! ### The last member of a name -/

/-- A member at the end takes the place of those of its name before it. -/
theorem lastMember?_concat (name : String) (members : List (String × Value)) (key : String)
    (v : Value) : lastMember? name (members ++ [(key, v)]) =
      if key = name then some v else lastMember? name members := by
  rw [lastMember?, List.foldl_append]
  rfl

/-- Members are looked for at the end first. -/
theorem lastMember?_append (name : String) (members others : List (String × Value)) :
    lastMember? name (members ++ others) =
      (lastMember? name others).or (lastMember? name members) := by
  induction others using List.reverseRecOn with
  | nil =>
    rw [List.append_nil]
    rfl
  | append_singleton others m ih =>
    rw [← List.append_assoc, lastMember?_concat, lastMember?_concat, ih]
    split
    · rfl
    · rfl

/-- A member at the front counts if none of its name follows. -/
theorem lastMember?_cons (name key : String) (v : Value) (members : List (String × Value)) :
    lastMember? name ((key, v) :: members) =
      (lastMember? name members).or (if key = name then some v else none) :=
  lastMember?_append name [(key, v)] members

/-- A member is of no account to other names. -/
theorem lastMember?_extra (name : String) (before after : List (String × Value)) (v : Value)
    (other : key ≠ name) :
    lastMember? name (before ++ (key, v) :: after) = lastMember? name (before ++ after) := by
  rw [lastMember?_append, lastMember?_append, lastMember?_cons, if_neg other, Option.or_none]

/-- What is found is one of the members. -/
theorem mem_of_lastMember? (found : lastMember? name members = some v) : (name, v) ∈ members := by
  induction members using List.reverseRecOn with
  | nil => cases found
  | append_singleton members m ih =>
    rw [lastMember?_concat] at found
    split at found
    next same =>
      obtain rfl := Option.some.inj found
      rw [← same]
      exact List.mem_append_right _ List.mem_cons_self
    next => exact List.mem_append_left _ (ih found)

/-- Nothing is found if and only if no member has the name. -/
theorem lastMember?_eq_none_iff : lastMember? name members = none ↔ ∀ m ∈ members, m.1 ≠ name := by
  induction members using List.reverseRecOn with
  | nil => simp [lastMember?]
  | append_singleton members m ih =>
    rw [lastMember?_concat, List.forall_mem_append, List.forall_mem_singleton, ← ih]
    split
    next same => simp [same]
    next other => simp [other]

/-- If the names differ, each is that of its value. -/
theorem lastMember?_eq_some_iff (nodup : (members.map Prod.fst).Nodup) :
    lastMember? name members = some v ↔ (name, v) ∈ members := by
  refine ⟨mem_of_lastMember?, fun mem => ?_⟩
  cases found : lastMember? name members with
  | none => exact absurd rfl (lastMember?_eq_none_iff.mp found _ mem)
  | some w =>
    have same := List.inj_on_of_nodup_map nodup mem (mem_of_lastMember? found) rfl
    exact congrArg some (congrArg Prod.snd same).symm

/-- If the names differ, their order is of no account. -/
theorem lastMember?_perm (name : String) (nodup : (members.map Prod.fst).Nodup)
    (perm : members.Perm others) : lastMember? name members = lastMember? name others := by
  have nodup' := (perm.map Prod.fst).nodup_iff.mp nodup
  ext v
  rw [lastMember?_eq_some_iff nodup, lastMember?_eq_some_iff nodup', perm.mem_iff]

/-! ### Objects with one name -/

/-- The only name in an object is the one that has a value. -/
theorem onlyMember?_eq_some_iff : Value.onlyMember? members = some (key, v) ↔
    ∀ name, lastMember? name members = if name = key then some v else none := by
  cases members with
  | nil =>
    refine iff_of_false nofun fun all => ?_
    have missing := all key
    rw [if_pos rfl] at missing
    cases missing
  | cons m rest =>
    obtain ⟨first, w⟩ := m
    have last (name : String) := lastMember?_cons name first w rest
    rw [Value.onlyMember?]
    constructor
    · intro only
      obtain ⟨same, isValue⟩ := Option.ite_none_right_eq_some.mp only
      obtain ⟨rfl, rfl⟩ := Prod.mk.inj (Option.some.inj isValue)
      intro name
      rw [last]
      by_cases isFirst : first = name
      · rw [if_pos isFirst, if_pos isFirst.symm, ← isFirst, Option.or_some]
      · rw [if_neg isFirst, if_neg (Ne.symm isFirst), Option.or_none, lastMember?_eq_none_iff]
        intro m mem isName
        have sameName := List.all_eq_true.mp same m mem
        exact isFirst ((of_decide_eq_true sameName).symm.trans isName)
    · intro all
      -- a name without a value is not the name of a member
      have names : ∀ m ∈ (first, w) :: rest, m.1 = key := by
        intro m mem
        by_contra isOther
        have none := all m.1
        rw [if_neg isOther] at none
        exact lastMember?_eq_none_iff.mp none m mem rfl
      obtain rfl := names (first, w) List.mem_cons_self
      have same : rest.all (fun m => decide (m.1 = first)) = true :=
        List.all_eq_true.mpr fun m mem =>
          decide_eq_true (names m (List.mem_cons_of_mem _ mem))
      have value := all first
      rw [last, if_pos rfl, if_pos rfl, Option.or_some] at value
      rw [if_pos same, Option.some.inj value]

/-! ### Numbers in a value -/

/-- A number is somewhere in a value. -/
inductive Value.Mentions (n : Number) : Value → Prop where
  | number : Mentions n (.number n)
  | array {items : List Value} {v : Value} (mem : v ∈ items) (inside : Mentions n v) :
    Mentions n (.array items)
  | object {members : List (String × Value)} {name : String} {v : Value}
    (mem : (name, v) ∈ members) (inside : Mentions n v) : Mentions n (.object members)

namespace Value

variable {n : Number}

/-- A number mentions itself and no other. -/
@[simp] theorem mentions_number_iff {m : Number} : (number m).Mentions n ↔ m = n := by
  constructor
  · rintro ⟨⟩
    rfl
  · rintro rfl
    exact .number

/-- An array mentions what its elements mention. -/
@[simp] theorem mentions_array_iff {items : List Value} :
    (array items).Mentions n ↔ ∃ v ∈ items, v.Mentions n := by
  constructor
  · rintro (_ | ⟨mem, inside⟩)
    exact ⟨_, mem, inside⟩
  · rintro ⟨v, mem, inside⟩
    exact .array mem inside

/-- An object mentions what the values of its members mention. -/
@[simp] theorem mentions_object_iff :
    (object members).Mentions n ↔ ∃ m ∈ members, m.2.Mentions n := by
  constructor
  · rintro (_ | _ | ⟨mem, inside⟩)
    exact ⟨_, mem, inside⟩
  · rintro ⟨m, mem, inside⟩
    exact .object mem inside

@[simp] theorem not_mentions_null : ¬null.Mentions n := nofun

@[simp] theorem not_mentions_bool (b : Bool) : ¬(bool b).Mentions n := nofun

@[simp] theorem not_mentions_text (s : String) : ¬(text s).Mentions n := nofun

end Value

end DeadReckoning.Json
