import DeadReckoning.Proofs.Binary64.Special
import DeadReckoning.Proofs.Json.Members
import DeadReckoning.Wire.Item

namespace DeadReckoning

open Json Binary64

/-!
# Items — which objects are items

An item is told by five of its members. Whether an object has their form can be said without the
reader: each member has one form, and two of them may be missing or `null`. Everything else in the
object is of no account.

* `Item.Written` — objects of the form, and what is written in them
* `Item.ofMembers_eq_ok_iff` — the reader reads these and no others
* `Sighting.ofValue_of_written`, `Sighting.isMalformed_of_not_written` — what becomes of an object
  that is of the form, and of one that is not
* `Sighting.object_is_judged_by_form` — every object, with what does not matter in it
-/

/-! ### Numbers -/

namespace Json.Number

variable {n : Number}

/-- The number is above zero. -/
def IsPositive : Number → Prop
  | .natural n => 0 < n
  | .negative _ => False
  | .real x => (0.0 : Float) < x

/-- A number is finite as a double unless it is an infinite one. -/
theorem isFinite_toFloat (finite : ∀ x, n = .real x → x.isFinite) : n.toFloat.isFinite := by
  cases n with
  | natural n => exact isFinite_iff_exists_isValue.mpr ⟨_, (isMagnitude_toFloat n).isValue⟩
  | negative n => exact isFinite_iff_exists_isValue.mpr ⟨_, (isMagnitude_toFloat n).isValue.neg⟩
  | real x => exact finite x rfl

/-- The nearest double is on the same side of zero. -/
theorem zero_lt_toFloat_iff (n : Number) : (0.0 : Float) < n.toFloat ↔ n.IsPositive := by
  cases n with
  | natural n =>
    show _ ↔ 0 < n
    rw [Number.toFloat, isValue_zero.lt_iff (isMagnitude_toFloat n).isValue, UInt64.lt_iff_toNat_lt]
    constructor
    · intro pos
      by_contra zero
      have null : n.toNat = 0 := Nat.le_zero.mp (not_lt.mp zero)
      rw [null, Nat.cast_zero, nearest_zero] at pos
      exact lt_irrefl 0 pos
    · intro pos
      exact zero_lt_one.trans_le (one_le_nearest (show (1 : ℚ) ≤ n.toNat by exact_mod_cast pos))
  | negative n =>
    rw [Number.toFloat, isValue_zero.lt_iff (isMagnitude_toFloat n).isValue.neg]
    exact iff_of_false (not_lt.mpr (neg_nonpos.mpr (nearest_nonneg _))) id
  | real x => exact Iff.rfl

end Json.Number

/-! ### Forms of members -/

/-- A computation of two steps. -/
theorem bind_eq_ok_iff {ε α β : Type} {step : Except ε α} {f : α → Except ε β} {b : β} :
    (step >>= f) = .ok b ↔ ∃ a, step = .ok a ∧ f a = .ok b := by
  cases step with
  | error e => exact ⟨nofun, nofun⟩
  | ok a => exact ⟨fun h => ⟨a, rfl, h⟩, fun ⟨_, isStep, h⟩ => Except.ok.inj isStep ▸ h⟩

namespace Json.Value

variable {v : Value}

/-- The value is a tag, or an object with the tag as its one name and `null` as value. -/
inductive Names : Value → String → Prop where
  | text (tag : String) : Names (.text tag) tag
  | object {members : List (String × Value)} {tag : String}
    (only : ∀ name, lastMember? name members = if name = tag then some .null else none) :
    Names (.object members) tag

/-- A kind is read from a value that names a tag, whichever it is. -/
theorem toKind_eq_ok_iff {kind : Kind} :
    v.toKind = .ok kind ↔ ∃ tag, v.Names tag ∧ kind = .ofTag tag := by
  constructor
  · intro read
    cases v with
    | text tag => exact ⟨tag, .text tag, (Except.ok.inj read).symm⟩
    | object members =>
      rw [toKind] at read
      -- an object names a kind if it has one member only
      split at read
      next tag only => exact ⟨tag, .object (onlyMember?_eq_some_iff.mp only),
        (Except.ok.inj read).symm⟩
      next => cases read
      next => cases read
    | null | bool | number | array => cases read
  · rintro ⟨tag, names, rfl⟩
    cases names with
    | text => rfl
    | object only => rw [toKind, onlyMember?_eq_some_iff.mpr only]

/-- A natural number is read only from one that is written as such. -/
theorem toNatural_eq_ok_iff {n : UInt64} : v.toNatural = .ok n ↔ v = .number (.natural n) := by
  constructor
  · intro read
    cases v with
    | number m =>
      cases m with
      | natural m => rw [Except.ok.inj read]
      | negative | real => cases read
    | null | bool | text | array | object => cases read
  · rintro rfl
    rfl

/-- A double is read from any number. -/
theorem toReal_eq_ok_iff {x : Float} :
    v.toReal = .ok x ↔ ∃ n : Number, v = .number n ∧ x = n.toFloat := by
  constructor
  · intro read
    cases v with
    | number n => exact ⟨n, rfl, (Except.ok.inj read).symm⟩
    | null | bool | text | array | object => cases read
  · rintro ⟨n, rfl, rfl⟩
    rfl

/-- Doubles are read from a list that holds numbers only. -/
theorem mapM_toReal_eq_ok_iff {items : List Value} {xs : List Float} :
    items.mapM toReal = .ok xs ↔
      ∃ ns : List Number, items = ns.map .number ∧ xs = ns.map Number.toFloat := by
  induction items generalizing xs with
  | nil =>
    constructor
    · intro read
      exact ⟨[], rfl, (Except.ok.inj read).symm⟩
    · rintro ⟨ns, none, rfl⟩
      rw [List.map_eq_nil_iff.mp none.symm]
      rfl
  | cons v items ih =>
    rw [List.mapM_cons]
    simp only [bind_eq_ok_iff, toReal_eq_ok_iff, ih]
    constructor
    · rintro ⟨_, ⟨n, rfl, rfl⟩, _, ⟨ns, rfl, rfl⟩, all⟩
      exact ⟨n :: ns, rfl, (Except.ok.inj all).symm⟩
    · rintro ⟨ns, all, rfl⟩
      obtain ⟨n, ns, rfl, rfl, rfl⟩ := List.map_eq_cons_iff.mp all.symm
      exact ⟨_, ⟨n, rfl, rfl⟩, _, ⟨ns, rfl, rfl⟩, rfl⟩

/-- Doubles are read from an array of numbers only. -/
theorem toReals_eq_ok_iff {xs : List Float} : v.toReals = .ok xs ↔
    ∃ ns : List Number, v = .array (ns.map .number) ∧ xs = ns.map Number.toFloat := by
  cases v with
  | array items =>
    rw [toReals, mapM_toReal_eq_ok_iff]
    simp only [Value.array.injEq]
  | null | bool | number | text | object =>
    exact ⟨nofun, fun ⟨_, isArray, _⟩ => nomatch isArray⟩

end Json.Value

namespace Item

/-- A member that may be missing or `null`, and what is written in it. -/
inductive IsOptional {β : Type} (write : β → Value) : Option Value → Option β → Prop where
  | missing : IsOptional write none none
  | null : IsOptional write (some .null) none
  | given (b : β) : IsOptional write (some (write b)) (some b)

/-- What is not null is read as it would be if it had to be there. -/
theorem toOptional_eq_ok_iff {γ : Type} {read : Value → Except Fault γ} {v : Value}
    (notNull : v ≠ .null) {c? : Option γ} :
    Value.toOptional read v = .ok c? ↔ ∃ c, read v = .ok c ∧ c? = some c := by
  have same : Value.toOptional read v = some <$> read v := by
    cases v with
    | null => exact absurd rfl notNull
    | bool | number | text | array | object => rfl
  rw [same]
  cases read v with
  | error => exact ⟨nofun, fun ⟨_, isRead, _⟩ => nomatch isRead⟩
  | ok c =>
    constructor
    · intro isRead
      exact ⟨c, rfl, (Except.ok.inj isRead).symm⟩
    · rintro ⟨_, isRead, rfl⟩
      rw [Except.ok.inj isRead]
      rfl

/-- What is read of a member that may be missing or `null`. -/
theorem isOptional_iff {β γ : Type} {write : β → Value} {read : Value → Except Fault γ} {f : β → γ}
    (reads : ∀ v c, read v = .ok c ↔ ∃ b, v = write b ∧ c = f b) (notNull : ∀ b, write b ≠ .null)
    {v? : Option Value} {c? : Option γ} :
    (∃ r, v?.mapM (Value.toOptional read) = .ok r ∧ r.join = c?) ↔
      ∃ b?, IsOptional write v? b? ∧ c? = b?.map f := by
  constructor
  · rintro ⟨r, isRead, rfl⟩
    cases v? with
    | none =>
      obtain rfl := Except.ok.inj isRead
      exact ⟨none, .missing, rfl⟩
    | some v =>
      rw [Option.mapM_some, map_eq_pure_bind, bind_eq_ok_iff] at isRead
      obtain ⟨d?, isRead, isSome⟩ := isRead
      obtain rfl := Except.ok.inj isSome
      -- a `null` is given, and yet counts as nothing given
      by_cases null : v = .null
      · subst null
        obtain rfl := Except.ok.inj isRead
        exact ⟨none, .null, rfl⟩
      · obtain ⟨c, isValue, rfl⟩ := (toOptional_eq_ok_iff null).mp isRead
        obtain ⟨b, rfl, rfl⟩ := (reads v c).mp isValue
        exact ⟨some b, .given b, rfl⟩
  · rintro ⟨b?, optional, rfl⟩
    cases optional with
    | missing => exact ⟨none, rfl, rfl⟩
    | null => exact ⟨some none, rfl, rfl⟩
    | given b =>
      refine ⟨some (some (f b)), ?_, rfl⟩
      have isRead := (toOptional_eq_ok_iff (notNull b)).mpr ⟨_, (reads _ _).mpr ⟨b, rfl, rfl⟩, rfl⟩
      rw [Option.mapM_some, isRead]
      rfl

/-- A member that has to be there. -/
theorem require_eq_ok_iff {β : Type} {name : String} {x? : Option β} {x : β} :
    require name x? = .ok x ↔ x? = some x := by
  cases x? with
  | none => exact ⟨nofun, nofun⟩
  | some y =>
    exact ⟨fun h => congrArg some (Except.ok.inj h),
      fun h => congrArg Except.ok (Option.some.inj h)⟩

/-- What is read for a name is the last member of that name. -/
theorem memberAs_eq_some_iff {β : Type} {name : String} {read : Value → Except Fault β}
    {members : List (String × Value)} {x : β} :
    memberAs name read members = .ok (some x) ↔
      ∃ v, lastMember? name members = some v ∧ read v = .ok x := by
  unfold memberAs
  cases lastMember? name members with
  | none => exact ⟨nofun, fun ⟨_, isSome, _⟩ => nomatch isSome⟩
  | some v =>
    rw [Option.mapM_some, map_eq_pure_bind, bind_eq_ok_iff]
    constructor
    · rintro ⟨y, isRead, isSome⟩
      obtain rfl := Option.some.inj (Except.ok.inj isSome)
      exact ⟨v, rfl, isRead⟩
    · rintro ⟨w, isSome, isRead⟩
      obtain rfl := Option.some.inj isSome
      exact ⟨x, isRead, rfl⟩

/-! ### The form of an item -/

/-- An object has the form of an item, and this is written in it. -/
structure Written (members : List (String × Value)) (tag : String) (id : UInt64)
    (numbers : List Number) (radius? : Option Number) : Prop where
  type : ∃ v, lastMember? "type" members = some v ∧ v.Names tag
  id : lastMember? "id" members = some (.number (.natural id))
  pos : lastMember? "pos" members = some (.array (numbers.map .number))
  radius : IsOptional .number (lastMember? "radius" members) radius?
  ts : ∃ time?, IsOptional (fun time => .number (.natural time)) (lastMember? "ts" members) time?

/-- The item that is written in an object. -/
def written (tag : String) (id : UInt64) (numbers : List Number) (radius? : Option Number) : Item :=
  ⟨.ofTag tag, id, numbers.map Number.toFloat, radius?.map Number.toFloat⟩

variable {members : List (String × Value)} {item : Item}

/-- The members are read one by one. -/
theorem ofMembers_eq_ok_iff_reads : ofMembers members = .ok item ↔
    (∃ v, lastMember? "type" members = some v ∧ v.toKind = .ok item.kind) ∧
      (∃ v, lastMember? "id" members = some v ∧ v.toNatural = .ok item.id) ∧
      (∃ v, lastMember? "pos" members = some v ∧ v.toReals = .ok item.components) ∧
      (∃ r, (lastMember? "radius" members).mapM (Value.toOptional Value.toReal) = .ok r ∧
        r.join = item.radius) ∧
      ∃ r, (lastMember? "ts" members).mapM (Value.toOptional Value.toNatural) = .ok r := by
  simp only [← memberAs_eq_some_iff]
  constructor
  · intro read
    -- all five are read first, and only then is one that is missing complained of
    simp only [ofMembers, bind_eq_ok_iff, require_eq_ok_iff] at read
    obtain ⟨_, id, _, pos, radius?, radius, ts?, ts, _, type, _, rfl, _, rfl, _, rfl, all⟩ := read
    obtain rfl := Except.ok.inj all
    exact ⟨type, id, pos, ⟨radius?, radius, rfl⟩, ts?, ts⟩
  · rintro ⟨type, id, pos, ⟨radius?, radius, isRadius⟩, ts?, ts⟩
    simp only [ofMembers, bind_eq_ok_iff, require_eq_ok_iff]
    refine ⟨_, id, _, pos, radius?, radius, ts?, ts, _, type, _, rfl, _, rfl, _, rfl, ?_⟩
    rw [isRadius]
    rfl

/-- A time is read if it is of the form. -/
theorem exists_read_time_iff {v? : Option Value} :
    (∃ r, v?.mapM (Value.toOptional Value.toNatural) = .ok r) ↔
      ∃ time?, IsOptional (fun time => .number (.natural time)) v? time? := by
  have reads (v : Value) (n : UInt64) :
      v.toNatural = .ok n ↔ ∃ m : UInt64, v = .number (.natural m) ∧ n = m := by
    simp [Value.toNatural_eq_ok_iff]
  constructor
  · rintro ⟨r, read⟩
    obtain ⟨time?, optional, -⟩ := (isOptional_iff reads fun _ => nofun).mp ⟨r, read, rfl⟩
    exact ⟨time?, optional⟩
  · rintro ⟨time?, optional⟩
    obtain ⟨r, read, -⟩ := (isOptional_iff reads fun _ => nofun).mpr ⟨time?, optional, rfl⟩
    exact ⟨r, read⟩

/-- The reader reads the objects of the form and no others. -/
theorem ofMembers_eq_ok_iff : ofMembers members = .ok item ↔
    ∃ tag id numbers radius?, Written members tag id numbers radius? ∧
      item = written tag id numbers radius? := by
  have radius : (∃ r, (lastMember? "radius" members).mapM (Value.toOptional Value.toReal) = .ok r ∧
      r.join = item.radius) ↔ ∃ n?, IsOptional .number (lastMember? "radius" members) n? ∧
        item.radius = n?.map Number.toFloat :=
    isOptional_iff (fun _ _ => Value.toReal_eq_ok_iff) (fun _ => nofun)
  rw [ofMembers_eq_ok_iff_reads, radius, exists_read_time_iff]
  simp only [Value.toKind_eq_ok_iff, Value.toNatural_eq_ok_iff, Value.toReals_eq_ok_iff]
  constructor
  · rintro ⟨⟨v, type, tag, names, kind⟩, ⟨_, id, rfl⟩, ⟨_, pos, numbers, rfl, components⟩,
      ⟨radius?, radius, isRadius⟩, ts⟩
    refine ⟨tag, item.id, numbers, radius?, ⟨⟨v, type, names⟩, id, pos, radius, ts⟩, ?_⟩
    rw [written, ← kind, ← components, ← isRadius]
  · rintro ⟨tag, id, numbers, radius?, form, rfl⟩
    obtain ⟨v, type, names⟩ := form.type
    exact ⟨⟨v, type, tag, names, rfl⟩, ⟨_, form.id, rfl⟩, ⟨_, form.pos, numbers, rfl, rfl⟩,
      ⟨radius?, form.radius, rfl⟩, form.ts⟩

/-- All that is written is somewhere in the object. -/
theorem Written.mentions {tag : String} {id : UInt64} {numbers : List Number}
    {radius? : Option Number} (form : Written members tag id numbers radius?) :
    (∀ n ∈ numbers, (Value.object members).Mentions n) ∧
      ∀ n ∈ radius?, (Value.object members).Mentions n := by
  constructor
  · intro n mem
    exact .object (mem_of_lastMember? form.pos) (.array (List.mem_map_of_mem mem) .number)
  · rintro n rfl
    have radius := form.radius
    generalize isMember : lastMember? "radius" members = v? at radius
    cases radius
    exact .object (mem_of_lastMember? isMember) .number

/-- The judgement on four finite numbers depends on the radius. -/
theorem toSighting_of_four {kind : Kind} {id : UInt64} {x y vx vy : Float}
    (finite : ∀ n ∈ [x, y, vx, vy], n.isFinite) (radius? : Option Float) :
    toSighting ⟨kind, id, [x, y, vx, vy], radius?⟩ =
      match radius? with
      | some r => if !r.isFinite || r ≤ 0.0 then .error (.badRadius ⟨kind, id⟩ r)
        else .ok ⟨kind, id, ⟨x, y⟩, ⟨vx, vy⟩, some r⟩
      | none => .ok ⟨kind, id, ⟨x, y⟩, ⟨vx, vy⟩, none⟩ := by
  simp only [List.forall_mem_cons] at finite
  obtain ⟨hx, hy, hvx, hvy, -⟩ := finite
  have position : (⟨x, y⟩ : Vec2 Float).isFinite = true := by
    show (x.isFinite && y.isFinite) = true
    rw [hx, hy, Bool.true_and]
  have velocity : (⟨vx, vy⟩ : Vec2 Float).isFinite = true := by
    show (vx.isFinite && vy.isFinite) = true
    rw [hvx, hvy, Bool.true_and]
  rw [toSighting]
  simp only [position, velocity, Bool.not_true, Bool.or_self, Bool.false_eq_true, if_false]
  rfl

end Item

/-- Two tags have kinds of their own. -/
theorem Kind.ofTag_eq_iff (tag : String) : (Kind.ofTag tag = .ship ↔ tag = "ship") ∧
    (Kind.ofTag tag = .asteroid ↔ tag = "asteroid") ∧
    (Kind.ofTag tag = .unknown ↔ tag ≠ "ship" ∧ tag ≠ "asteroid") := by
  unfold ofTag
  by_cases asteroid : tag = "asteroid"
  · simp [asteroid]
  · by_cases ship : tag = "ship" <;> simp [asteroid, ship]

/-- The error says that a value is missing, of the wrong form or of the wrong length. -/
def ItemError.IsMalformed : ItemError → Prop
  | .malformed _ | .componentCount _ _ => True
  | .notFinite _ | .badRadius _ _ => False

namespace Sighting

variable {members : List (String × Value)} {tag : String} {id : UInt64} {x y vx vy : Number}
  {radius? : Option Number}

/-- The sighting that is written in an object. -/
def written (tag : String) (id : UInt64) (x y vx vy : Number) (radius? : Option Number) :
    Sighting Float :=
  ⟨.ofTag tag, id, ⟨x.toFloat, y.toFloat⟩, ⟨vx.toFloat, vy.toFloat⟩, radius?.map Number.toFloat⟩

/-- What becomes of an object that is of the form. -/
theorem ofValue_of_written (form : Item.Written members tag id [x, y, vx, vy] radius?)
    (finite : ∀ x, (Value.object members).Mentions (.real x) → x.isFinite) :
    ((∀ r ∈ radius?, r.IsPositive) → Sighting.ofValue (.object members) =
        .ok (written tag id x y vx vy radius?)) ∧
      ∀ r ∈ radius?, ¬r.IsPositive → Sighting.ofValue (.object members) =
        .error (.badRadius ⟨.ofTag tag, id⟩ r.toFloat) := by
  have isFinite {n : Number} (mentions : (Value.object members).Mentions n) : n.toFloat.isFinite :=
    Number.isFinite_toFloat fun x isReal => finite x (isReal ▸ mentions)
  obtain ⟨numbers, radius⟩ := form.mentions
  have four : ∀ a ∈ [x, y, vx, vy].map Number.toFloat, a.isFinite :=
    List.forall_mem_map.mpr fun n mem => isFinite (numbers n mem)
  have judged : Sighting.ofValue (.object members) =
      (Item.written tag id [x, y, vx, vy] radius?).toSighting := by
    rw [ofValue, Item.ofValue, Item.ofMembers_eq_ok_iff.mpr ⟨tag, id, _, radius?, form, rfl⟩]
  rw [judged.trans (Item.toSighting_of_four four (radius?.map Number.toFloat))]
  cases radius? with
  | none => exact ⟨fun _ => rfl, nofun⟩
  | some r =>
    have finite' := isFinite (radius r rfl)
    -- not above zero is at most zero, since NaN is excluded
    have side : (!r.toFloat.isFinite || decide (r.toFloat ≤ 0.0)) = true ↔ ¬r.IsPositive := by
      rw [finite', Bool.not_true, Bool.false_or, decide_eq_true_iff, ← r.zero_lt_toFloat_iff,
        ← not_le_zero_iff finite', not_not]
    constructor
    · exact fun fair => if_neg (side.not_left.mpr (fair r rfl))
    · rintro _ ⟨⟩ bad
      exact if_pos (side.mpr bad)

/-- An object in the form of an item, with finite numbers, is accepted unless its radius is not
positive. -/
theorem ofValue_cases_of_written (form : Item.Written members tag id [x, y, vx, vy] radius?)
    (finite : ∀ x, (Value.object members).Mentions (.real x) → x.isFinite) :
    ((∀ r ∈ radius?, r.IsPositive) ∧
        Sighting.ofValue (.object members) = .ok (written tag id x y vx vy radius?)) ∨
      ∃ r, radius? = some r ∧ ¬r.IsPositive ∧ Sighting.ofValue (.object members) =
        .error (.badRadius ⟨.ofTag tag, id⟩ r.toFloat) := by
  obtain ⟨accepted, refused⟩ := ofValue_of_written form finite
  by_cases fair : ∀ r ∈ radius?, r.IsPositive
  · exact .inl ⟨fair, accepted fair⟩
  · push Not at fair
    obtain ⟨r, isRadius, bad⟩ := fair
    exact .inr ⟨r, isRadius, bad, refused r isRadius bad⟩

/-- An object that is not of the form is malformed. -/
theorem isMalformed_of_not_written (other : ¬∃ tag id x y vx vy radius?,
    Item.Written members tag id [x, y, vx, vy] radius?) :
    ∃ e, Sighting.ofValue (.object members) = .error e ∧ e.IsMalformed := by
  rw [ofValue, Item.ofValue]
  cases read : Item.ofMembers members with
  | error fault => exact ⟨_, rfl, trivial⟩
  | ok item =>
    -- the members are of the form, so there are not four numbers
    obtain ⟨tag, id, numbers, radius?, form, rfl⟩ := Item.ofMembers_eq_ok_iff.mp read
    refine ⟨.componentCount ⟨.ofTag tag, id⟩ numbers.length, ?_, trivial⟩
    match numbers, form with
    | [], _ | [_], _ | [_, _], _ | [_, _, _], _ => rfl
    | [x, y, vx, vy], form => exact absurd ⟨tag, id, x, y, vx, vy, radius?, form⟩ other
    | _ :: _ :: _ :: _ :: _ :: _, _ => simp [Item.written, Item.toSighting, Item.key]

/-- There is no other verdict. -/
theorem ofValue_cases (finite : ∀ x, (Value.object members).Mentions (.real x) → x.isFinite) :
    (∃ tag id x y vx vy radius?, Item.Written members tag id [x, y, vx, vy] radius? ∧
        (∀ r ∈ radius?, r.IsPositive) ∧
        Sighting.ofValue (.object members) = .ok (written tag id x y vx vy radius?)) ∨
      (∃ tag id x y vx vy r, Item.Written members tag id [x, y, vx, vy] (some r) ∧ ¬r.IsPositive ∧
        Sighting.ofValue (.object members) =
          .error (.badRadius ⟨.ofTag tag, id⟩ r.toFloat)) ∨
      ∃ e, Sighting.ofValue (.object members) = .error e ∧ e.IsMalformed := by
  by_cases ofForm : ∃ tag id x y vx vy radius?,
      Item.Written members tag id [x, y, vx, vy] radius?
  · obtain ⟨tag, id, x, y, vx, vy, radius?, form⟩ := ofForm
    rcases ofValue_cases_of_written form finite with ⟨fair, accepted⟩ | ⟨r, rfl, bad, refused⟩
    · exact .inl ⟨tag, id, x, y, vx, vy, radius?, form, fair, accepted⟩
    · exact .inr (.inl ⟨tag, id, x, y, vx, vy, r, form, bad, refused⟩)
  · exact .inr (.inr (isMalformed_of_not_written ofForm))

/-- Objects that agree on what an item is made of, and whose times are of the form, are judged
alike. -/
theorem ofValue_congr {others : List (String × Value)}
    (agree : ∀ name ∈ ["id", "pos", "radius", "type"],
      lastMember? name others = lastMember? name members)
    {time? time?' : Option UInt64}
    (time : Item.IsOptional (fun n => .number (.natural n)) (lastMember? "ts" members) time?)
    (time' : Item.IsOptional (fun n => .number (.natural n)) (lastMember? "ts" others) time?') :
    Sighting.ofValue (.object others) = Sighting.ofValue (.object members) := by
  obtain ⟨r, read⟩ := Item.exists_read_time_iff.mpr ⟨_, time⟩
  obtain ⟨r', read'⟩ := Item.exists_read_time_iff.mpr ⟨_, time'⟩
  have same : Item.ofMembers others = Item.ofMembers members := by
    simp only [List.forall_mem_cons] at agree
    obtain ⟨id, pos, radius, type, -⟩ := agree
    simp only [Item.ofMembers, Item.memberAs, id, pos, radius, type, read, read']
    rfl
  rw [ofValue, ofValue, Item.ofValue, Item.ofValue, same]

/-- Objects whose members of each name have the same value are judged alike. -/
theorem ofValue_congr_members {others : List (String × Value)}
    (agree : ∀ name ∈ ["id", "pos", "radius", "ts", "type"],
      lastMember? name others = lastMember? name members) :
    Sighting.ofValue (.object others) = Sighting.ofValue (.object members) := by
  simp only [List.forall_mem_cons] at agree
  obtain ⟨id, pos, radius, time, type, -⟩ := agree
  have same : Item.ofMembers others = Item.ofMembers members := by
    simp only [Item.ofMembers, Item.memberAs, id, pos, radius, time, type]
  rw [ofValue, ofValue, Item.ofValue, Item.ofValue, same]

/-- Every object is judged by its form. One of the form becomes the sighting that is written in it,
if the radius is above zero or not given, and is refused for its radius else; any other is
malformed. The order of the members, other members and the time are of no account. -/
theorem object_is_judged_by_form (members : List (String × Value))
    (finite : ∀ x, (Value.object members).Mentions (.real x) → x.isFinite) :
    let verdict := Sighting.ofValue (.object members)
    (∀ s, verdict = .ok s ↔ ∃ tag id x y vx vy radius?,
        Item.Written members tag id [x, y, vx, vy] radius? ∧ (∀ r ∈ radius?, r.IsPositive) ∧
        s = ⟨.ofTag tag, id, ⟨x.toFloat, y.toFloat⟩, ⟨vx.toFloat, vy.toFloat⟩,
          radius?.map Number.toFloat⟩) ∧
      (∀ key radius, verdict = .error (.badRadius key radius) ↔ ∃ tag id x y vx vy r,
        Item.Written members tag id [x, y, vx, vy] (some r) ∧ ¬r.IsPositive ∧
        key = ⟨.ofTag tag, id⟩ ∧ radius = r.toFloat) ∧
      ((∃ e, verdict = .error e ∧ e.IsMalformed) ↔ ¬∃ tag id x y vx vy radius?,
        Item.Written members tag id [x, y, vx, vy] radius?) ∧
      (∀ tag, (Kind.ofTag tag = .ship ↔ tag = "ship") ∧
        (Kind.ofTag tag = .asteroid ↔ tag = "asteroid") ∧
        (Kind.ofTag tag = .unknown ↔ tag ≠ "ship" ∧ tag ≠ "asteroid")) ∧
      (∀ others, (members.map Prod.fst).Nodup → members.Perm others →
        Sighting.ofValue (.object others) = verdict) ∧
      (∀ before after name v, members = before ++ after →
        name ∉ ["id", "pos", "radius", "ts", "type"] →
        Sighting.ofValue (.object (before ++ (name, v) :: after)) = verdict) ∧
      ∀ others time? time?', (∀ name ∈ ["id", "pos", "radius", "type"],
          lastMember? name others = lastMember? name members) →
        Item.IsOptional (fun n => .number (.natural n)) (lastMember? "ts" members) time? →
        Item.IsOptional (fun n => .number (.natural n)) (lastMember? "ts" others) time?' →
        Sighting.ofValue (.object others) = verdict := by
  intro verdict
  have verdicts := ofValue_cases finite
  refine ⟨fun s => ⟨fun isOk => ?_, ?_⟩, fun key radius => ⟨fun isError => ?_, ?_⟩,
    ⟨?_, isMalformed_of_not_written⟩, Kind.ofTag_eq_iff, ?_, ?_,
    fun others _ _ agree time time' => ofValue_congr agree time time'⟩
  · -- the three verdicts exclude each other, so that the one at hand tells of the form
    rcases verdicts with ⟨tag, id, x, y, vx, vy, radius?, form, fair, accepted⟩ |
      ⟨_, _, _, _, _, _, _, _, _, refused⟩ | ⟨_, refused, _⟩
    · exact ⟨tag, id, x, y, vx, vy, radius?, form, fair, Except.ok.inj (isOk.symm.trans accepted)⟩
    · exact nomatch isOk.symm.trans refused
    · exact nomatch isOk.symm.trans refused
  · rintro ⟨tag, id, x, y, vx, vy, radius?, form, fair, rfl⟩
    exact (ofValue_of_written form finite).1 fair
  · rcases verdicts with ⟨_, _, _, _, _, _, _, _, _, accepted⟩ |
      ⟨tag, id, x, y, vx, vy, r, form, bad, refused⟩ | ⟨e, refused, malformed⟩
    · exact nomatch isError.symm.trans accepted
    · obtain ⟨rfl, rfl⟩ := ItemError.badRadius.inj (Except.error.inj (isError.symm.trans refused))
      exact ⟨tag, id, x, y, vx, vy, r, form, bad, rfl, rfl⟩
    · obtain rfl := Except.error.inj (isError.symm.trans refused)
      exact malformed.elim
  · rintro ⟨tag, id, x, y, vx, vy, r, form, bad, rfl, rfl⟩
    exact (ofValue_of_written form finite).2 r rfl bad
  · rintro ⟨e, isError, malformed⟩ ⟨tag, id, x, y, vx, vy, radius?, form⟩
    rcases ofValue_cases_of_written form finite with ⟨-, accepted⟩ | ⟨r, -, -, refused⟩
    · exact nomatch isError.symm.trans accepted
    · obtain rfl := Except.error.inj (isError.symm.trans refused)
      exact malformed
  · intro others nodup perm
    exact ofValue_congr_members fun name _ => (lastMember?_perm name nodup perm).symm
  · rintro before after name v rfl other
    refine ofValue_congr_members fun known mem => lastMember?_extra known before after v ?_
    -- a member that nobody asks for is none of those asked for
    rintro rfl
    exact other mem

/-- A ship that is named by an object, with `null` for its time and a member that nobody asks for: a
radius of half a unit is accepted, and one of zero is refused. -/
theorem ship_is_judged_by_its_radius :
    let members (radius : Number) : List (String × Value) :=
      [("hull", .array [.bool true]), ("type", .object [("ship", .null)]), ("ts", .null),
        ("pos", .array [.number (.natural 1), .number (.negative 2), .number (.natural 0),
          .number (.natural 0)]),
        ("radius", .number radius), ("id", .number (.natural 7))]
    Sighting.ofValue (.object (members (.real 0.5))) =
        .ok ⟨.ship, 7, ⟨(1 : UInt64).toFloat, -(2 : UInt64).toFloat⟩,
          ⟨(0 : UInt64).toFloat, (0 : UInt64).toFloat⟩, some 0.5⟩ ∧
      Sighting.ofValue (.object (members (.natural 0))) =
        .error (.badRadius ⟨.ship, 7⟩ (0 : UInt64).toFloat) := by
  intro members
  have finite {radius : Number} (isFinite : ∀ x, radius = .real x → x.isFinite) :
      ∀ x, (Value.object (members radius)).Mentions (.real x) → x.isFinite := by
    intro x mentions
    exact isFinite x (by simpa [members] using mentions)
  have form (radius : Number) : Item.Written (members radius) "ship" 7
      [.natural 1, .negative 2, .natural 0, .natural 0] (some radius) := by
    constructor
    · refine ⟨.object [("ship", .null)], by simp [members, lastMember?], .object fun name => ?_⟩
      rw [lastMember?_cons]
      simp [lastMember?, eq_comm]
    · simp [members, lastMember?]
    · simp [members, lastMember?]
    · simpa [members, lastMember?] using Item.IsOptional.given radius
    · exact ⟨none, by simpa [members, lastMember?] using Item.IsOptional.null⟩
  constructor
  · refine ((object_is_judged_by_form (members (.real 0.5)) (finite ?_)).1 _).mpr
      ⟨_, _, _, _, _, _, _, form (.real 0.5), ?_, rfl⟩
    · rintro x ⟨⟩
      decide +kernel
    · rintro r ⟨⟩
      show (0.0 : Float) < 0.5
      decide +kernel
  · have whole : ∀ x, Number.natural 0 = .real x → x.isFinite := by
      intro x isReal
      cases isReal
    refine ((object_is_judged_by_form (members (.natural 0)) (finite whole)).2.1 _ _).mpr
      ⟨_, _, _, _, _, _, _, form (.natural 0), ?_, rfl, rfl⟩
    exact UInt64.lt_irrefl 0

end Sighting

end DeadReckoning
