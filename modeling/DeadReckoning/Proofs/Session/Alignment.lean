import DeadReckoning.Proofs.Exact
import DeadReckoning.Proofs.Session.Independence
import DeadReckoning.Proofs.View.Steps
import Mathlib.Tactic.Linarith

namespace DeadReckoning

/-!
# The session — the layers of the world follow the view

The view is pushed to the layers of the world after the gestures that act on it, the offset as a
difference, the scale as a whole, and only what differs by more than the tolerance. Without
rounding, what is not pushed never adds up, and the layer over the drawing stays in place.

* `Vec2.Within` — two vectors are near each other on both axes
* `pushes_eq_nil_iff` — when nothing is left to push
* `pushes_pushAll` — after the pushes nothing is left
* `poses_apply_world` — the poses after the layers of the world were brought in line
* `Session.Aligned` — what holds of view and layers at all times; `Aligned.step`, `Aligned.run`
* `world_layers_follow_view` — all of it for a session from its start
-/

/-- Two vectors differ by at most a bound on each axis. -/
structure Vec2.Within {i : Irrational} (bound : ℚ) (v w : Vec2 (Exact i)) : Prop where
  x : |v.x.value - w.x.value| ≤ bound
  y : |v.y.value - w.y.value| ≤ bound

namespace Viewport

/-! ### What is left to push -/

section Pushes

variable {α : Type} [Scalar α] (view : Viewport α) (pose : Pose α)

/-- A pose after it was brought in line: offset and scale are those of the view or differ too little
from them. -/
theorem pushAll_pushes :
    pose.pushAll (view.pushes pose) =
      { offset :=
          if differs view.offset pose.offset then pose.offset + (view.offset - pose.offset)
          else pose.offset
        scale := if differs view.scale pose.scale then view.scale else pose.scale } := by
  unfold pushes
  split
  · split
    · rfl
    · rfl
  · split
    · rfl
    · rfl

/-- Nothing is pushed to a layer if neither its offset nor its scale differs. -/
theorem pushes_eq_nil :
    view.pushes pose = [] ↔
      differs view.offset pose.offset = false ∧ differs view.scale pose.scale = false := by
  unfold pushes
  cases differs view.offset pose.offset <;> cases differs view.scale pose.scale <;> simp

end Pushes

variable {i : Irrational} {view : Viewport (Exact i)} {pose : Pose (Exact i)} {v w : Vec2 (Exact i)}

/-- The tolerance as a rational number. -/
theorem value_tolerance : (tolerance : Exact i).value = 1 / 10 ^ 9 := by
  show (1e-9 : ℚ) = 1 / 10 ^ 9
  norm_num

/-- Vectors that do not differ are within the tolerance on each axis. -/
theorem not_differs_iff : differs v w = false ↔ Vec2.Within (1 / 10 ^ 9) v w := by
  have x : (v - w).magnitudes.x.value = |v.x.value - w.x.value| := Exact.value_magnitude _
  have y : (v - w).magnitudes.y.value = |v.y.value - w.y.value| := Exact.value_magnitude _
  rw [differs, decide_eq_false_iff_not, Exact.lt_iff, value_tolerance, Vec2.largest,
    Exact.value_larger, not_lt, max_le_iff, x, y]
  constructor
  · rintro ⟨near_x, near_y⟩
    exact ⟨near_x, near_y⟩
  · rintro ⟨near_x, near_y⟩
    exact ⟨near_x, near_y⟩

/-- Nothing is left to push to a pose that is near the view. -/
theorem pushes_eq_nil_iff :
    view.pushes pose = [] ↔
      Vec2.Within (1 / 10 ^ 9) view.offset pose.offset ∧
        Vec2.Within (1 / 10 ^ 9) view.scale pose.scale := by
  rw [pushes_eq_nil, not_differs_iff, not_differs_iff]

/-- No vector differs from itself. -/
theorem differs_self (v : Vec2 (Exact i)) : differs v v = false := by
  rw [not_differs_iff]
  constructor
  · rw [sub_self, abs_zero]
    norm_num
  · rw [sub_self, abs_zero]
    norm_num

/-- A difference that is pushed leads to the offset of the view. -/
theorem pushes_pushAll (view : Viewport (Exact i)) (pose : Pose (Exact i)) :
    view.pushes (pose.pushAll (view.pushes pose)) = [] := by
  have moved : pose.offset + (view.offset - pose.offset) = view.offset :=
    Vec2.ext_value (add_sub_cancel _ _) (add_sub_cancel _ _)
  rw [pushes_eq_nil, pushAll_pushes, moved]
  constructor
  · dsimp only
    split
    next => exact differs_self _
    next near => exact Bool.eq_false_of_not_eq_true near
  · dsimp only
    split
    next => exact differs_self _
    next near => exact Bool.eq_false_of_not_eq_true near

/-- Where nothing is left to push, a point of the world appears near its place in the view. -/
theorem toScreen_within (settled : view.pushes pose = []) (point : Vec2 (Exact i)) :
    |(pose.toScreen point).x.value - (view.toGlobal point).x.value| ≤
        1 / 10 ^ 9 * (1 + |point.x.value|) ∧
      |(pose.toScreen point).y.value - (view.toGlobal point).y.value| ≤
        1 / 10 ^ 9 * (1 + |point.y.value|) := by
  obtain ⟨offset, scale⟩ := pushes_eq_nil_iff.mp settled
  have axis (p s t o u : ℚ) (near_offset : |o - u| ≤ 1 / 10 ^ 9)
      (near_scale : |s - t| ≤ 1 / 10 ^ 9) :
      |p * t + u - (p * s + o)| ≤ 1 / 10 ^ 9 * (1 + |p|) :=
    calc |p * t + u - (p * s + o)| = |p * (s - t) + (o - u)| := by rw [← abs_neg]; congr 1; ring
      _ ≤ |p * (s - t)| + |o - u| := abs_add_le _ _
      _ = |p| * |s - t| + |o - u| := by rw [abs_mul]
      _ ≤ |p| * (1 / 10 ^ 9) + 1 / 10 ^ 9 :=
        add_le_add (mul_le_mul_of_nonneg_left near_scale (abs_nonneg p)) near_offset
      _ = 1 / 10 ^ 9 * (1 + |p|) := by ring
  exact ⟨axis _ _ _ _ _ offset.x scale.x, axis _ _ _ _ _ offset.y scale.y⟩

end Viewport

/-! ### Poses of layers that were brought in line -/

namespace Scene

variable {α : Type} [Scalar α]

/-- Bringing one layer in line bears on its pose only. -/
theorem poses_apply_eq (view : Viewport α) (scene : Scene α) (id other : LayerId) :
    (view.apply scene id).1.poses other =
      if other = id then (scene.poses other).pushAll (view.pushes (scene.poses other))
      else scene.poses other := by
  unfold Viewport.apply
  dsimp only [TargetSet.pose?]
  cases pushed : view.pushes (scene.layers.get id).pose with
  | nil =>
    dsimp only
    split
    next same =>
      subst same
      have none_left : view.pushes (scene.poses other) = [] := pushed
      rw [none_left]
      rfl
    next => rfl
  | cons change changes =>
    dsimp only
    rw [poses_push]
    split
    next same =>
      subst same
      rw [← pushed]
      rfl
    next => rfl

/-- The poses after the layers of the world were brought in line. -/
theorem poses_apply_world (view : Viewport α) (scene : Scene α) :
    let poses := (Navigator.applyEach view LayerId.world scene).1.poses
    poses .ships = (scene.poses .ships).pushAll (view.pushes (scene.poses .ships)) ∧
      poses .asteroids = (scene.poses .asteroids).pushAll (view.pushes (scene.poses .asteroids)) ∧
      poses .gui = scene.poses .gui := by
  have unfolded : (Navigator.applyEach view LayerId.world scene).1 =
      (view.apply (view.apply scene .ships).1 .asteroids).1 := rfl
  refine ⟨?_, ?_, ?_⟩
  · rw [unfolded, poses_apply_eq, if_neg (by decide), poses_apply_eq, if_pos rfl]
  · rw [unfolded, poses_apply_eq, if_pos rfl, poses_apply_eq, if_neg (by decide)]
  · rw [unfolded, poses_apply_eq, if_neg (by decide), poses_apply_eq, if_neg (by decide)]

/-- Where nothing is left to push, nothing is pushed. -/
theorem apply_of_settled {view : Viewport α} {scene : Scene α} {id : LayerId}
    (settled : view.pushes (scene.poses id) = []) : view.apply scene id = (scene, false) := by
  have settled : view.pushes (scene.layers.get id).pose = [] := settled
  unfold Viewport.apply
  dsimp only [TargetSet.pose?]
  rw [settled]

end Scene

namespace Session

variable {i : Irrational} {session : Session (Exact i)}

/-! ### View and layers at all times -/

/-- What holds at all times of the view and the poses of the layers. -/
structure Aligned (session : Session (Exact i)) : Prop where
  targets : session.navigator.targets = LayerId.world
  settled : session.navigator.view.pushes (session.scene.poses .ships) = []
  alike : session.scene.poses .asteroids = session.scene.poses .ships
  overlay : session.scene.poses .gui = .rest

namespace Aligned

/-- At the start view and layers are at rest. -/
theorem start (settings : Settings (Exact i)) (shapes : ShapeBook (Exact i)) :
    (Session.start settings shapes).Aligned where
  targets := by
    obtain ⟨_, same⟩ := (Navigator.start LayerId.world).withZoomStep_cases settings.zoomStep
    exact congrArg Navigator.targets same
  settled := by
    obtain ⟨_, same⟩ := (Navigator.start LayerId.world).withZoomStep_cases settings.zoomStep
    have view : (Session.start settings shapes).navigator.view = .start :=
      congrArg Navigator.view same
    rw [view, Viewport.pushes_eq_nil]
    exact ⟨Viewport.differs_self _, Viewport.differs_self _⟩
  alike := rfl
  overlay := rfl

/-- What leaves view and poses alone keeps them aligned. -/
theorem of_viewed {s t : Session (Exact i)} (aligned : t.Aligned) (same : s.viewed = t.viewed) :
    s.Aligned := by
  have navigator : s.navigator = t.navigator := congrArg Viewing.navigator same
  have poses : s.scene.poses = t.scene.poses := congrArg Viewing.poses same
  constructor
  · rw [navigator]
    exact aligned.targets
  · rw [navigator, poses]
    exact aligned.settled
  · rw [poses]
    exact aligned.alike
  · rw [poses]
    exact aligned.overlay

/-- After a gesture that acted on the view, all that differs has been pushed. -/
protected theorem gesture (aligned : session.Aligned) (g : Gesture (Exact i)) :
    (session.gesture g).1.Aligned := by
  have targets : (session.navigator.step g).1.targets = LayerId.world :=
    (session.navigator.targets_step g).trans aligned.targets
  unfold Session.gesture Navigator.handle
  dsimp only
  cases changed : (session.navigator.step g).2 with
  | false =>
    refine ⟨targets, ?_, aligned.alike, aligned.overlay⟩
    show (session.navigator.step g).1.view.pushes _ = []
    rw [session.navigator.view_step g changed]
    exact aligned.settled
  | true =>
    rw [if_pos rfl, Navigator.applyAll, targets]
    obtain ⟨ships, asteroids, gui⟩ :=
      Scene.poses_apply_world (session.navigator.step g).1.view session.scene
    constructor
    · exact targets
    · show (session.navigator.step g).1.view.pushes
        ((Navigator.applyEach _ LayerId.world session.scene).1.poses .ships) = []
      rw [ships]
      exact Viewport.pushes_pushAll _ _
    · refine asteroids.trans ?_
      rw [aligned.alike]
      exact ships.symm
    · exact gui.trans aligned.overlay

/-- No event breaks the alignment. -/
protected theorem step (aligned : session.Aligned) (event : Event (Exact i)) :
    (session.step event).1.Aligned := by
  cases concerned : event.isGesture with
  | false => exact aligned.of_viewed (viewing.unconcerned session event concerned).1
  | true =>
    cases event with
    | gesture g => exact aligned.gesture g
    | _ => cases concerned

protected theorem run (aligned : session.Aligned) (events : List (Event (Exact i))) :
    (session.run events).1.Aligned := by
  induction events generalizing session with
  | nil => exact aligned
  | cons event rest ih => exact ih (aligned.step event)

/-- No layer of the world differs from the view. -/
theorem settled_world (aligned : session.Aligned) {id : LayerId} (world : id ∈ LayerId.world) :
    session.navigator.view.pushes (session.scene.poses id) = [] := by
  simp only [LayerId.world, List.mem_cons, List.not_mem_nil, or_false] at world
  rcases world with rfl | rfl
  · exact aligned.settled
  · rw [aligned.alike]
    exact aligned.settled

/-- Pushing the view once more does nothing. -/
theorem applyAll_eq (aligned : session.Aligned) :
    session.navigator.applyAll session.scene = (session.scene, 0) := by
  have isWorld : LayerId.asteroids ∈ LayerId.world := by decide
  have asteroids := Scene.apply_of_settled (aligned.settled_world isWorld)
  rw [Navigator.applyAll, aligned.targets]
  simp only [LayerId.world, Navigator.applyEach, Scene.apply_of_settled aligned.settled, asteroids]
  rfl

end Aligned

/-- The layers of the world follow the view. After every run of a session from its start, offset and
scale of both layers of the world are within the tolerance of those of the view, so that every point
of the world appears near its place in the view; the two layers lie alike, the layer over the
drawing has not moved, and pushing the view once more would do nothing. -/
theorem world_layers_follow_view (settings : Settings (Exact i)) (shapes : ShapeBook (Exact i))
    (events : List (Event (Exact i))) :
    let session := ((start settings shapes).run events).1
    let view := session.navigator.view
    (∀ id ∈ LayerId.world,
      Vec2.Within (1 / 10 ^ 9) view.offset (session.scene.layers.get id).pose.offset ∧
      Vec2.Within (1 / 10 ^ 9) view.scale (session.scene.layers.get id).pose.scale ∧
      ∀ point,
        |((session.scene.layers.get id).pose.toScreen point).x.value -
            (view.toGlobal point).x.value| ≤ 1 / 10 ^ 9 * (1 + |point.x.value|) ∧
        |((session.scene.layers.get id).pose.toScreen point).y.value -
            (view.toGlobal point).y.value| ≤ 1 / 10 ^ 9 * (1 + |point.y.value|)) ∧
    session.scene.layers.ships.pose = session.scene.layers.asteroids.pose ∧
    session.scene.layers.gui.pose = .rest ∧
    session.navigator.applyAll session.scene = (session.scene, 0) := by
  intro session view
  have aligned : session.Aligned := (Aligned.start settings shapes).run events
  refine ⟨?_, aligned.alike.symm, aligned.overlay, aligned.applyAll_eq⟩
  intro id world
  have settled := aligned.settled_world world
  obtain ⟨offset, scale⟩ := Viewport.pushes_eq_nil_iff.mp settled
  exact ⟨offset, scale, Viewport.toScreen_within settled⟩

end Session

end DeadReckoning
