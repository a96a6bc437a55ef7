import DeadReckoning.Feed.Plan
import DeadReckoning.Proofs.Feed.Draws
import DeadReckoning.Proofs.Wire.RoundTrip

namespace DeadReckoning

open Binary64

/-!
# Bodies — what is seen of them is sound

Bodies start near the origin and move slowly, so that over the longest time that can be counted
their coordinates stay far below the greatest doubles.

* `LawfulTrigonometry` — cosine and sine between minus one and one; `straightAhead`: those of one
  course
* `Body.IsSteady` — a body that starts near and moves slowly; `IsSteady.isSound`: what is seen of it
  is sound at all times
* `IsSwarm` — steady bodies with keys of their own; `always_spawnAll`: such are those that are drawn
-/

/-- Cosine and sine of finite angles are between minus one and one. -/
class LawfulTrigonometry [Trigonometry] : Prop where
  cos {angle : Float} (finite : angle.isFinite) :
    -1.0 ≤ Trigonometry.cos angle ∧ Trigonometry.cos angle ≤ 1.0
  sin {angle : Float} (finite : angle.isFinite) :
    -1.0 ≤ Trigonometry.sin angle ∧ Trigonometry.sin angle ≤ 1.0

/-- Cosine and sine of courses along the first axis. -/
@[reducible] def straightAhead : Trigonometry := ⟨fun _ => 1.0, fun _ => 0.0⟩

/-- Sine and cosine are within one where all angles are taken for zero. -/
theorem lawful_straightAhead : @LawfulTrigonometry straightAhead := by
  have one : (-1.0 : Float) ≤ 1.0 ∧ (1.0 : Float) ≤ 1.0 := by decide +kernel
  have zero : (-1.0 : Float) ≤ 0.0 ∧ (0.0 : Float) ≤ 1.0 := by decide +kernel
  exact @LawfulTrigonometry.mk straightAhead (fun _ => one) fun _ => zero

/-- Both coordinates are within a power of two. -/
def Vec2.IsWithin (k : ℕ) (v : Vec2 Float) : Prop :=
  Binary64.IsWithin k v.x ∧ Binary64.IsWithin k v.y

namespace Body

/-! ### Motion -/

/-- A body that starts near the origin, moves slowly and has a size. -/
structure IsSteady (body : Body Float) : Prop where
  origin : body.origin.IsWithin 11
  velocity : body.velocity.IsWithin 6
  acceleration : body.acceleration.IsWithin 1
  radius : body.radius.isFinite ∧ (0.0 : Float) < body.radius

section
variable {a v r t : Float}

/-- A coordinate after some seconds of accelerated motion. -/
theorem isWithin_position (origin : IsWithin 11 r) (velocity : IsWithin 6 v)
    (acceleration : IsWithin 1 a) (seconds : IsWithin 64 t) :
    IsWithin 130 (r + v * t + 0.5 * a * t * t) := by
  -- the bend grows fastest, by the square of the time, and is still far from the greatest doubles
  have half : IsWithin 0 (0.5 : Float) := .of_check (by decide +kernel)
  have path : IsWithin 70 (v * t) := velocity.mul seconds (by norm_num)
  have change : IsWithin 1 (0.5 * a) := half.mul acceleration (by norm_num)
  have bend : IsWithin 129 (0.5 * a * t * t) :=
    (change.mul seconds (by norm_num)).mul seconds (by norm_num)
  have straight : IsWithin 71 (r + v * t) :=
    (origin.mono (by norm_num)).add path (by norm_num)
  exact (straight.mono (by norm_num)).add bend (by norm_num)

/-- A velocity that grew for all of time is still finite. -/
theorem isWithin_velocity (velocity : IsWithin 6 v) (acceleration : IsWithin 1 a)
    (seconds : IsWithin 64 t) : IsWithin 66 (v + a * t) :=
  (velocity.mono (by norm_num)).add (acceleration.mul seconds (by norm_num)) (by norm_num)

end

/-- What is seen of a steady body is sound. -/
theorem IsSteady.isSound {body : Body Float} (steady : body.IsSteady) {seconds : Float}
    (bound : IsWithin 64 seconds) : (body.sightingAt seconds).IsSound where
  position := by
    refine ⟨(isWithin_position ?_ ?_ ?_ bound).isFinite,
      (isWithin_position ?_ ?_ ?_ bound).isFinite⟩
    · exact steady.origin.1
    · exact steady.velocity.1
    · exact steady.acceleration.1
    · exact steady.origin.2
    · exact steady.velocity.2
    · exact steady.acceleration.2
  velocity := by
    refine ⟨(isWithin_velocity ?_ ?_ bound).isFinite, (isWithin_velocity ?_ ?_ bound).isFinite⟩
    · exact steady.velocity.1
    · exact steady.acceleration.1
    · exact steady.velocity.2
    · exact steady.acceleration.2
  radius := by
    intro radius isRadius
    obtain rfl := Option.some.inj isRadius
    exact steady.radius

/-! ### Drawing bodies -/

section
variable [Trigonometry] [LawfulTrigonometry] {length direction : Float} {k : ℕ}

/-- A vector of some length does not reach further than the length. -/
theorem isWithin_polar (bound : IsWithin k length) (finite : direction.isFinite)
    (small : k < 1024) : (polar length direction).IsWithin k := by
  have one : IsWithin 0 (1.0 : Float) := .of_check (by decide +kernel)
  have minusOne : IsWithin 0 (-1.0 : Float) := .of_check (by decide +kernel)
  obtain ⟨cosAbove, cosBelow⟩ := LawfulTrigonometry.cos finite
  obtain ⟨sinAbove, sinBelow⟩ := LawfulTrigonometry.sin finite
  exact ⟨bound.mul (minusOne.between one cosAbove cosBelow) small,
    bound.mul (minusOne.between one sinAbove sinBelow) small⟩

end

variable {σ : Type} [Chance σ] [LawfulChance σ]

/-- A point is drawn within reach, whatever is drawn. -/
theorem always_pointWithin {reach : Float} {k : ℕ} (bound : IsWithin k reach)
    (length : (reach - -reach).isFinite) (apart : -reach < reach) :
    Always (pointWithin reach : StateM σ (Vec2 Float)) (Vec2.IsWithin k) := by
  have coordinate := always_real_isWithin (σ := σ) bound.neg bound length apart
  exact coordinate.bind fun x first => coordinate.bind fun y second => .pure ⟨first, second⟩

/-- Whatever is drawn, a ship is steady and known by its number. -/
theorem always_spawnShip [Trigonometry] [LawfulTrigonometry] (id : UInt64) :
    Always (spawnShip id : StateM σ (Body Float)) fun body =>
      body.IsSteady ∧ body.key = ⟨.ship, id⟩ := by
  -- course, speed and thrust, in the order in which they are drawn
  refine (always_real_isWithin (k := 3) (.of_check (by decide +kernel))
    (.of_check (by decide +kernel)) (by decide +kernel) (by decide +kernel)).bind
    fun course direction => ?_
  refine (always_real_isWithin (k := 6) (.of_check (by decide +kernel))
    (.of_check (by decide +kernel)) (by decide +kernel) (by decide +kernel)).bind
    fun speed slow => ?_
  refine (always_real_isWithin (k := 1) (.of_check (by decide +kernel))
    (.of_check (by decide +kernel)) (by decide +kernel) (by decide +kernel)).bind
    fun thrust weak => ?_
  refine (always_pointWithin (k := 11) (.of_check (by decide +kernel)) (by decide +kernel)
    (by decide +kernel)).bind fun origin near => ?_
  have size : (10.0 : Float).isFinite ∧ (0.0 : Float) < 10.0 := by decide +kernel
  refine .pure ⟨⟨near, ?_, ?_, size⟩, rfl⟩
  · exact isWithin_polar slow direction.isFinite (by norm_num)
  · exact isWithin_polar weak direction.isFinite (by norm_num)

/-- Whatever is drawn, an asteroid is steady and known by its number. -/
theorem always_spawnAsteroid (id : UInt64) :
    Always (spawnAsteroid id : StateM σ (Body Float)) fun body =>
      body.IsSteady ∧ body.key = ⟨.asteroid, id⟩ := by
  refine (always_pointWithin (k := 11) (.of_check (by decide +kernel)) (by decide +kernel)
    (by decide +kernel)).bind fun origin near => ?_
  refine (always_pointWithin (k := 6) (.of_check (by decide +kernel)) (by decide +kernel)
    (by decide +kernel)).bind fun velocity slow => ?_
  have zero : IsWithin 1 (0.0 : Float) := .of_check (by decide +kernel)
  have size : Always (Chance.real 8.0 60.0 : StateM σ Float) fun radius =>
      radius.isFinite ∧ (0.0 : Float) < radius :=
    always_real_pos (by decide +kernel) (by decide +kernel) (by decide +kernel)
      (by decide +kernel)
  exact size.bind fun radius positive => .pure ⟨⟨near, slow, ⟨zero, zero⟩, positive⟩, rfl⟩

/-- Steady bodies with keys of their own. -/
structure IsSwarm (bodies : List (Body Float)) : Prop where
  steady : ∀ body ∈ bodies, body.IsSteady
  distinct : (bodies.map key).Nodup

/-- What is known of bodies that were made one by one. -/
theorem parts_of_forall₂ {kind : Kind} {numbers : List ℕ} {bodies : List (Body Float)}
    (made : List.Forall₂ (fun n body => body.IsSteady ∧ body.key = ⟨kind, .ofNat n⟩) numbers
      bodies) :
    (∀ body ∈ bodies, body.IsSteady ∧ body.kind = kind) ∧
      bodies.map key = numbers.map fun n => ⟨kind, .ofNat n⟩ := by
  induction made with
  | nil => exact ⟨fun body mem => absurd mem List.not_mem_nil, rfl⟩
  | @cons n body numbers bodies first _ ih =>
    obtain ⟨steady, isKey⟩ := first
    exact ⟨List.forall_mem_cons.mpr ⟨⟨steady, congrArg TrackKey.kind isKey⟩, ih.1⟩,
      List.cons_eq_cons.mpr ⟨isKey, ih.2⟩⟩

omit [Chance σ] [LawfulChance σ] in
/-- Bodies of one kind that are made one after the other have numbers of their own. -/
theorem always_numbered {kind : Kind} {make : UInt64 → StateM σ (Body Float)} (count : UInt64)
    (made : ∀ id, Always (make id) fun body => body.IsSteady ∧ body.key = ⟨kind, id⟩) :
    Always (numbered count make) fun bodies =>
      IsSwarm bodies ∧ ∀ body ∈ bodies, body.kind = kind := by
  refine (Always.mapM fun n _ => made (.ofNat n)).mono fun bodies all => ?_
  obtain ⟨each, keys⟩ := parts_of_forall₂ all
  refine ⟨⟨fun body mem => (each body mem).1, ?_⟩, fun body mem => (each body mem).2⟩
  rw [keys]
  refine List.nodup_range.map_on fun n small m small' same => ?_
  -- the numbers are counts of 64 bits, so that none comes twice
  have size := count.toNat_lt
  have same := congrArg (UInt64.toNat ∘ TrackKey.id) same
  rw [List.mem_range] at small small'
  simp only [Function.comp_apply, UInt64.toNat_ofNat'] at same
  rwa [Nat.mod_eq_of_lt (small.trans size), Nat.mod_eq_of_lt (small'.trans size)] at same

/-- The bodies of a feed are steady and have keys of their own. -/
theorem always_spawnAll [Trigonometry] [LawfulTrigonometry] (ships asteroids : UInt64) :
    Always (spawnAll ships asteroids : StateM σ (List (Body Float))) IsSwarm := by
  refine (always_numbered ships always_spawnShip).bind fun fleet ⟨ready, allShips⟩ => ?_
  refine (always_numbered asteroids always_spawnAsteroid).bind fun belt ⟨drifting, allRocks⟩ => ?_
  refine .pure ⟨fun body mem => ?_, ?_⟩
  · rcases List.mem_append.mp mem with ship | rock
    · exact ready.steady body ship
    · exact drifting.steady body rock
  · rw [List.map_append]
    -- ships and asteroids may have the same numbers, but they differ in kind
    refine ready.distinct.append drifting.distinct fun key ship rock => ?_
    obtain ⟨body, isShip, rfl⟩ := List.mem_map.mp ship
    obtain ⟨other, isRock, same⟩ := List.mem_map.mp rock
    have kinds := congrArg TrackKey.kind same
    have kinds : other.kind = body.kind := kinds
    rw [allShips body isShip, allRocks other isRock] at kinds
    cases kinds

end Body

end DeadReckoning
