import DeadReckoning.Proofs.Session.Alignment
import DeadReckoning.Proofs.View.Notches

namespace DeadReckoning

/-!
# The session — the layers of the world from far out

The scale of a layer is set anew where it differs from that of the view by more than the tolerance,
which is the same for all scales. What is off on the screen by it grows with the distance from the
origin of the world. So the layers show what the view shows as long as the screen does not reach
far from there. Two scales below the tolerance never differ by more: from far enough out the layers
keep the scale they have, and what the view shows close to a corner of the screen they show at any
distance from there.

* `Vec2.gapSquared` — how far two points are apart, squared
* `Viewport.gapSquared_le`, `Viewport.near_of_shown` — points that the layers show in their place
* `Session.zoomedOut` — the session after notches outwards; `view_zoomedOut` for its view
* `Session.drawnScale` — the scale of a layer; `drawnScale_succ`, `drawnScale_frozen`
* `exists_left_behind` — the layers keep a scale that is many times that of the view
* `layers_match_view_unless_far_out` — where the layers agree with the view and where not
-/

/-- The square of the distance of two points. -/
def Vec2.gapSquared {i : Irrational} (v w : Vec2 (Exact i)) : ℚ :=
  (v.x.value - w.x.value) ^ 2 + (v.y.value - w.y.value) ^ 2

/-- The same number on both axes. -/
def Vec2.uniform {i : Irrational} (s : ℚ) : Vec2 (Exact i) := ⟨⟨s⟩, ⟨s⟩⟩

/-- The zoom factor of settings that are accepted is above one. -/
theorem Settings.above_one_of_validate {i : Irrational} {settings : Settings (Exact i)}
    (valid : settings.validate = .ok ()) : 1 < settings.zoomStep.value := by
  unfold validate at valid
  split at valid
  · cases valid
  next accepted =>
    rw [Exact.isFinite_eq, Bool.not_true, Bool.false_or, decide_eq_true_eq, Exact.le_iff,
      Exact.value_one, not_le] at accepted
    exact accepted

namespace Viewport

variable {i : Irrational} {view : Viewport (Exact i)} {pose : Pose (Exact i)}
  {point : Vec2 (Exact i)}

/-! ### Points that are shown in their place -/

/-- Where nothing is left to push, a point near the origin of the world is shown within a pixel of
its place in the view. -/
theorem gapSquared_le (settled : view.pushes pose = []) (x : |point.x.value| ≤ 5 * 10 ^ 8)
    (y : |point.y.value| ≤ 5 * 10 ^ 8) :
    (pose.toScreen point).gapSquared (view.toGlobal point) ≤ 1 := by
  have axis (d p : ℚ) (off : |d| ≤ 1 / 10 ^ 9 * (1 + |p|)) (near : |p| ≤ 5 * 10 ^ 8) :
      d ^ 2 ≤ 1 / 2 := by
    have small : |d| ≤ 7 / 10 := off.trans (by linarith)
    calc d ^ 2 = |d| ^ 2 := (sq_abs d).symm
      _ ≤ (7 / 10) ^ 2 := pow_le_pow_left₀ (abs_nonneg d) small 2
      _ ≤ 1 / 2 := by norm_num
  obtain ⟨off_x, off_y⟩ := toScreen_within settled point
  calc (pose.toScreen point).gapSquared (view.toGlobal point)
      ≤ 1 / 2 + 1 / 2 := add_le_add (axis _ _ off_x x) (axis _ _ off_y y)
    _ = 1 := by norm_num

/-- A coordinate that is shown on the screen is near the origin of the world if the screen does not
reach far from there. -/
theorem near_of_shown {p s o : ℚ} (shown : |p * s + o| ≤ 10 ^ 4)
    (wide : 10 ^ 4 + |o| ≤ 5 * 10 ^ 8 * s) : |p| ≤ 5 * 10 ^ 8 := by
  have pos : 0 < s := by
    have := abs_nonneg o
    linarith
  refine le_of_mul_le_mul_right ?_ pos
  calc |p| * s = |p * s + o - o| := by rw [add_sub_cancel_right, abs_mul, abs_of_pos pos]
    _ ≤ |p * s + o| + |o| := abs_sub _ _
    _ ≤ 10 ^ 4 + |o| := add_le_add_left shown _
    _ ≤ 5 * 10 ^ 8 * s := wide

/-- A stretch about the corner of the screen leaves the origin of the world there. -/
theorem stretch_zero (s k : ℚ) :
    (⟨.uniform s, .uniform 0⟩ : Viewport (Exact i)).stretch .zero ⟨k⟩ =
      ⟨.uniform (s * k), .uniform 0⟩ := by
  have axis : (0.0 : Exact i).value + (0 - (0.0 : Exact i).value) * k = 0 := by
    rw [Exact.value_zero, sub_self, zero_mul, add_zero]
  rw [stretch, Viewport.mk.injEq]
  exact ⟨rfl, Vec2.ext_value axis axis⟩

/-- Two scales that are both at most the tolerance do not differ by more. -/
theorem not_differs_of_small {s t : ℚ} (s_pos : 0 < s) (s_small : s ≤ 1 / 10 ^ 9) (t_pos : 0 < t)
    (t_small : t ≤ 1 / 10 ^ 9) : differs (.uniform s : Vec2 (Exact i)) (.uniform t) = false := by
  have near : |s - t| ≤ 1 / 10 ^ 9 := by
    rw [abs_le]
    constructor
    · linarith
    · linarith
  exact not_differs_iff.mpr ⟨near, near⟩

end Viewport

namespace Session

variable {i : Irrational} {session : Session (Exact i)}

/-! ### Notches outwards at the origin of the screen -/

/-- The session after notches outwards at the origin of the screen. -/
def zoomedOut (settings : Settings (Exact i)) (shapes : ShapeBook (Exact i)) (n : ℕ) :
    Session (Exact i) :=
  ((start settings shapes).run (List.replicate n (.gesture (.wheel .zero 1.0)))).1

/-- The scale of the layer of the ships. -/
def drawnScale (session : Session (Exact i)) : Vec2 (Exact i) := (session.scene.poses .ships).scale

/-- Every layer of the world lies like that of the ships. -/
theorem Aligned.poses_world (aligned : session.Aligned) {id : LayerId}
    (world : id ∈ LayerId.world) : session.scene.poses id = session.scene.poses .ships := by
  simp only [LayerId.world, List.mem_cons, List.not_mem_nil, or_false] at world
  rcases world with rfl | rfl
  · rfl
  · exact aligned.alike

/-- After a gesture a layer has the scale of the view, unless it differs too little from what the
layer had before. -/
theorem Aligned.drawnScale_gesture (aligned : session.Aligned) (g : Gesture (Exact i)) :
    let scale := (session.gesture g).1.navigator.view.scale
    (session.gesture g).1.drawnScale =
      if Viewport.differs scale session.drawnScale then scale else session.drawnScale := by
  unfold Session.gesture Navigator.handle
  dsimp only
  cases changed : (session.navigator.step g).2 with
  | false =>
    -- nothing was pushed, and nothing was left to push before
    have alike : Viewport.differs session.navigator.view.scale session.drawnScale = false :=
      ((Viewport.pushes_eq_nil _ _).mp aligned.settled).2
    rw [session.navigator.view_step g changed, alike]
    rfl
  | true =>
    have targets := (session.navigator.targets_step g).trans aligned.targets
    rw [if_pos rfl, Navigator.applyAll, targets]
    have ships := (Scene.poses_apply_world (session.navigator.step g).1.view session.scene).1
    rw [Viewport.pushAll_pushes] at ships
    exact congrArg Pose.scale ships

variable {settings : Settings (Exact i)} {shapes : ShapeBook (Exact i)}

theorem zoomedOut_succ (n : ℕ) :
    zoomedOut settings shapes (n + 1) =
      ((zoomedOut settings shapes n).gesture (.wheel .zero 1.0)).1 := by
  rw [zoomedOut, List.replicate_succ', run_snoc]
  rfl

/-- Each notch divides the scale of the view by the zoom factor, and the origin of the world stays
in the corner of the screen. -/
theorem navigator_zoomedOut (above : 1 < settings.zoomStep.value) (n : ℕ) :
    (zoomedOut settings shapes n).navigator =
      { (start settings shapes).navigator with
        view := ⟨.uniform (settings.zoomStep.value ^ n)⁻¹, .uniform 0⟩ } := by
  have pos : 0 < settings.zoomStep.value := one_pos.trans above
  induction n with
  | zero =>
    obtain ⟨_, same⟩ := (Navigator.start LayerId.world).withZoomStep_cases settings.zoomStep
    have view : (start settings shapes).navigator.view = ⟨.uniform 1, .uniform 0⟩ := by
      refine (congrArg Navigator.view same).trans ?_
      show Viewport.start = _
      rw [Viewport.start, Viewport.mk.injEq]
      exact ⟨Vec2.ext_value Exact.value_one Exact.value_one,
        Vec2.ext_value Exact.value_zero Exact.value_zero⟩
    rw [pow_zero, inv_one, ← view]
    rfl
  | succ n ih =>
    have proper : (zoomedOut settings shapes n).navigator.view.Proper := by
      rw [ih]
      exact ⟨inv_pos.mpr (pow_pos pos n), inv_pos.mpr (pow_pos pos n)⟩
    have zoomStep : (zoomedOut settings shapes n).navigator.zoomStep.value =
        settings.zoomStep.value := by
      rw [ih]
      exact (Navigator.zoomStep_withZoomStep LayerId.world settings.zoomStep).trans (if_pos above)
    have outwards : Navigator.balance [(1.0 : Exact i)] = -1 := by
      simp [Navigator.balance, Exact.lt_iff]
    have step : (zoomedOut settings shapes (n + 1)).navigator =
        ((zoomedOut settings shapes n).navigator.zoomAt .zero 1.0).1 := by
      rw [zoomedOut_succ]
      rfl
    have shrunk : (settings.zoomStep.value ^ n)⁻¹ * settings.zoomStep.value ^ (-1 : ℤ) =
        (settings.zoomStep.value ^ (n + 1))⁻¹ := by
      rw [zpow_neg_one, pow_succ, mul_inv]
    rw [step, Navigator.zoomAt_eq proper (pos.trans_eq zoomStep.symm), outwards, zoomStep, ih,
      Viewport.stretch_zero, shrunk]

/-- The scale of the view after some notches outward. -/
theorem view_zoomedOut (above : 1 < settings.zoomStep.value) (n : ℕ) :
    (zoomedOut settings shapes n).navigator.view =
      ⟨.uniform (settings.zoomStep.value ^ n)⁻¹, .uniform 0⟩ :=
  congrArg Navigator.view (navigator_zoomedOut above n)

/-! ### The scale of a layer from far out -/

/-- A notch reaches the layers if the scale that they have differs from the new one. -/
theorem drawnScale_succ (above : 1 < settings.zoomStep.value) (n : ℕ) :
    (zoomedOut settings shapes (n + 1)).drawnScale =
      if Viewport.differs (.uniform (settings.zoomStep.value ^ (n + 1))⁻¹)
          (zoomedOut settings shapes n).drawnScale
      then .uniform (settings.zoomStep.value ^ (n + 1))⁻¹
      else (zoomedOut settings shapes n).drawnScale := by
  have aligned : (zoomedOut settings shapes n).Aligned := (Aligned.start settings shapes).run _
  have pushed := aligned.drawnScale_gesture (.wheel .zero 1.0)
  rw [← zoomedOut_succ, view_zoomedOut above] at pushed
  exact pushed

/-- The scale of a layer is one that the view once had, so it is above zero. -/
theorem exists_drawnScale (shapes : ShapeBook (Exact i)) (above : 1 < settings.zoomStep.value)
    (n : ℕ) :
    ∃ s, 0 < s ∧ (zoomedOut settings shapes n).drawnScale = .uniform s := by
  induction n with
  | zero => exact ⟨1, one_pos, Vec2.ext_value Exact.value_one Exact.value_one⟩
  | succ n ih =>
    rw [drawnScale_succ above]
    split
    · exact ⟨_, inv_pos.mpr (pow_pos (one_pos.trans above) _), rfl⟩
    · exact ih

/-- Once view and layer both have a scale that is at most the tolerance, the layer keeps its own
however much further out the view goes. -/
theorem drawnScale_frozen (above : 1 < settings.zoomStep.value) {n : ℕ} {s : ℚ} (pos : 0 < s)
    (drawn : (zoomedOut settings shapes n).drawnScale = .uniform s) (small : s ≤ 1 / 10 ^ 9)
    (out : (settings.zoomStep.value ^ n)⁻¹ ≤ 1 / 10 ^ 9) (m : ℕ) :
    (zoomedOut settings shapes (n + m)).drawnScale = .uniform s := by
  induction m with
  | zero => exact drawn
  | succ m ih =>
    have power_pos (k : ℕ) : 0 < settings.zoomStep.value ^ k := pow_pos (one_pos.trans above) k
    have further : (settings.zoomStep.value ^ (n + m + 1))⁻¹ ≤ (settings.zoomStep.value ^ n)⁻¹ :=
      inv_anti₀ (power_pos n) (pow_le_pow_right₀ above.le (by omega))
    rw [← Nat.add_assoc, drawnScale_succ above, ih,
      Viewport.not_differs_of_small (inv_pos.mpr (power_pos _)) (further.trans out) pos small]
    rfl

/-- Powers of a number above one come to have an inverse below any bound. -/
theorem exists_inv_pow_lt {z bound : ℚ} (above : 1 < z) (pos : 0 < bound) :
    ∃ n : ℕ, (z ^ n)⁻¹ < bound := by
  obtain ⟨n, small⟩ := exists_pow_lt_of_lt_one pos (inv_lt_one_of_one_lt₀ above)
  exact ⟨n, inv_pow z n ▸ small⟩

/-- From far enough out the scale of a layer is as many times that of the view as one likes. -/
theorem exists_left_behind (shapes : ShapeBook (Exact i)) (above : 1 < settings.zoomStep.value)
    {times : ℚ} (more : 1 ≤ times) :
    ∃ n s, (zoomedOut settings shapes n).drawnScale = .uniform s ∧
      times * (settings.zoomStep.value ^ n)⁻¹ < s := by
  have times_pos : 0 < times := one_pos.trans_le more
  have power_pos (k : ℕ) : 0 < settings.zoomStep.value ^ k := pow_pos (one_pos.trans above) k
  obtain ⟨n, out⟩ : ∃ n : ℕ, (settings.zoomStep.value ^ n)⁻¹ < 1 / 10 ^ 9 / times :=
    exists_inv_pow_lt above (div_pos (by norm_num) times_pos)
  have out : times * (settings.zoomStep.value ^ n)⁻¹ < 1 / 10 ^ 9 := by
    rwa [lt_div_iff₀' times_pos] at out
  obtain ⟨s, pos, drawn⟩ := exists_drawnScale shapes above n
  by_cases behind : times * (settings.zoomStep.value ^ n)⁻¹ < s
  · exact ⟨n, s, drawn, behind⟩
  · -- the layer has come along so far, but stays where it is from here on
    have small : s ≤ 1 / 10 ^ 9 := (not_lt.mp behind).trans out.le
    have view_small : (settings.zoomStep.value ^ n)⁻¹ ≤ 1 / 10 ^ 9 :=
      (le_mul_of_one_le_left (inv_pos.mpr (power_pos n)).le more).trans out.le
    obtain ⟨m, further⟩ : ∃ m : ℕ, (settings.zoomStep.value ^ m)⁻¹ < s / times :=
      exists_inv_pow_lt above (div_pos pos times_pos)
    refine ⟨n + m, s, drawnScale_frozen above pos drawn small view_small m, ?_⟩
    calc times * (settings.zoomStep.value ^ (n + m))⁻¹
        ≤ times * (settings.zoomStep.value ^ m)⁻¹ :=
          mul_le_mul_of_nonneg_left
            (inv_anti₀ (power_pos m) (pow_le_pow_right₀ above.le (Nat.le_add_left m n)))
            times_pos.le
      _ < s := by rwa [lt_div_iff₀' times_pos] at further

/-- A layer with a scale that is many times that of the view shows a point on the edge of the screen
far outside. -/
theorem gap_of_left_behind {z s o : ℚ} {bound : ℕ} (pos : 0 < z)
    (behind : (1 + (bound + 1) / 10 ^ 4) * z⁻¹ < s) (near : |0 - o| ≤ 1 / 10 ^ 9) :
    (bound : ℚ) < 10 ^ 4 * z * s + o - 10 ^ 4 := by
  have reach : 10 ^ 4 + (bound + 1) < 10 ^ 4 * z * s :=
    calc (10 ^ 4 + (bound + 1) : ℚ)
        = 10 ^ 4 * z * ((1 + (bound + 1) / 10 ^ 4) * z⁻¹) := by
          field_simp
      _ < 10 ^ 4 * z * s := mul_lt_mul_of_pos_left behind (by positivity)
  rw [zero_sub, abs_neg, abs_le] at near
  linarith [near.1]

/-- The layers of the world show what the view shows, unless it is far out. After every run of a
session from its start, each layer of the world shows a point within one pixel of its place in the
view if it lies within `5 * 10 ^ 8` of the origin of the world on each axis; so it does with every
point shown within `10 ^ 4` pixels of the corner of the screen on each axis, if the screen does not
reach further than that from the origin of the world. But whatever zoom factor was accepted, after
enough notches outwards there is a point shown within `10 ^ 4` pixels that all layers of the world
show as many pixels away from there as one likes. -/
theorem layers_match_view_unless_far_out (settings : Settings (Exact i))
    (shapes : ShapeBook (Exact i)) :
    (∀ events : List (Event (Exact i)),
      let session := ((start settings shapes).run events).1
      let view := session.navigator.view
      ∀ id ∈ LayerId.world, ∀ point,
        let gap :=
          ((session.scene.layers.get id).pose.toScreen point).gapSquared (view.toGlobal point)
        (|point.x.value| ≤ 5 * 10 ^ 8 → |point.y.value| ≤ 5 * 10 ^ 8 → gap ≤ 1) ∧
        (|(view.toGlobal point).x.value| ≤ 10 ^ 4 → |(view.toGlobal point).y.value| ≤ 10 ^ 4 →
          10 ^ 4 + |view.offset.x.value| ≤ 5 * 10 ^ 8 * view.scale.x.value →
          10 ^ 4 + |view.offset.y.value| ≤ 5 * 10 ^ 8 * view.scale.y.value → gap ≤ 1)) ∧
    (settings.validate = .ok () → ∀ bound : ℕ, ∃ n point,
      let session := zoomedOut settings shapes n
      let view := session.navigator.view
      (|(view.toGlobal point).x.value| ≤ 10 ^ 4 ∧ |(view.toGlobal point).y.value| ≤ 10 ^ 4) ∧
      ∀ id ∈ LayerId.world,
        (bound : ℚ) ^ 2 <
          ((session.scene.layers.get id).pose.toScreen point).gapSquared
            (view.toGlobal point)) := by
  constructor
  · intro events session view id world point gap
    have aligned : session.Aligned := (Aligned.start settings shapes).run events
    have settled := aligned.settled_world world
    refine ⟨Viewport.gapSquared_le settled, ?_⟩
    intro shown_x shown_y wide_x wide_y
    exact Viewport.gapSquared_le settled (Viewport.near_of_shown shown_x wide_x)
      (Viewport.near_of_shown shown_y wide_y)
  · intro valid bound
    have above := Settings.above_one_of_validate valid
    have more : (1 : ℚ) ≤ 1 + (bound + 1) / 10 ^ 4 := le_add_of_nonneg_right (by positivity)
    obtain ⟨n, s, drawn, behind⟩ := exists_left_behind shapes above more
    have pos : 0 < settings.zoomStep.value ^ n := pow_pos (one_pos.trans above) n
    refine ⟨n, ⟨⟨10 ^ 4 * settings.zoomStep.value ^ n⟩, ⟨0⟩⟩, ?_⟩
    intro session view
    have aligned : session.Aligned := (Aligned.start settings shapes).run _
    have view_eq : view = ⟨.uniform (settings.zoomStep.value ^ n)⁻¹, .uniform 0⟩ :=
      view_zoomedOut above n
    have shown : view.toGlobal ⟨⟨10 ^ 4 * settings.zoomStep.value ^ n⟩, ⟨0⟩⟩ =
        ⟨⟨10 ^ 4⟩, ⟨0⟩⟩ := by
      have x : 10 ^ 4 * settings.zoomStep.value ^ n * (settings.zoomStep.value ^ n)⁻¹ + 0 =
          10 ^ 4 := by
        rw [add_zero, mul_inv_cancel_right₀ pos.ne']
      have y : 0 * (settings.zoomStep.value ^ n)⁻¹ + 0 = 0 := by rw [zero_mul, add_zero]
      rw [view_eq]
      exact Vec2.ext_value x y
    rw [shown]
    refine ⟨⟨by norm_num, by norm_num⟩, ?_⟩
    intro id world
    have lies : (session.scene.layers.get id).pose = session.scene.poses .ships :=
      aligned.poses_world world
    have near : |0 - (session.scene.poses .ships).offset.x.value| ≤ 1 / 10 ^ 9 := by
      have offset := (Viewport.pushes_eq_nil_iff.mp aligned.settled).1
      rw [show session.navigator.view = _ from view_eq] at offset
      exact offset.x
    have scale : (session.scene.poses .ships).scale.x.value = s :=
      congrArg (fun v => v.x.value) drawn
    have gap := gap_of_left_behind pos behind near
    rw [← scale] at gap
    rw [lies]
    calc (bound : ℚ) ^ 2
        < (10 ^ 4 * settings.zoomStep.value ^ n * (session.scene.poses .ships).scale.x.value +
            (session.scene.poses .ships).offset.x.value - 10 ^ 4) ^ 2 :=
          pow_lt_pow_left₀ gap (Nat.cast_nonneg bound) two_ne_zero
      _ ≤ _ := le_add_of_nonneg_right (sq_nonneg _)

/-- With the standard settings there are points that the layers show more than a thousand pixels off
their place on the screen. -/
theorem standard_layers_are_left_behind :
    let settings : Settings (Exact ⟨fun x => x, fun y _ => y⟩) := .standard
    settings.validate = .ok () ∧ ∃ n point,
      let session := zoomedOut settings .standard n
      let view := session.navigator.view
      (|(view.toGlobal point).x.value| ≤ 10 ^ 4 ∧ |(view.toGlobal point).y.value| ≤ 10 ^ 4) ∧
      ∀ id ∈ LayerId.world,
        (1000 : ℕ) ^ 2 <
          ((session.scene.layers.get id).pose.toScreen point).gapSquared (view.toGlobal point) := by
  intro settings
  have valid : settings.validate = .ok () := by
    rw [Settings.validate, if_neg (by decide +kernel)]
    rfl
  exact ⟨valid, (layers_match_view_unless_far_out settings .standard).2 valid 1000⟩

/-- Two notches outwards with a zoom factor of `10 ^ 10`, and a third one where the view shows a
ship. The view still shows it there; the layer of the ships is left behind and shows it about
`10 ^ 10` pixels away. -/
theorem ship_leaves_pointer :
    let i : Irrational := ⟨fun x => x, fun y _ => y⟩
    let at_ (x y : ℚ) : Vec2 (Exact i) := ⟨⟨x⟩, ⟨y⟩⟩
    let settings : Settings (Exact i) := ⟨⟨10 ^ 10⟩, none⟩
    let outwards (point : Vec2 (Exact i)) : Event (Exact i) := .gesture (.wheel point ⟨1⟩)
    let session := ((start settings .standard).run
      [outwards (at_ 0 0), outwards (at_ 0 0), outwards (at_ 1 0)]).1
    let ship := at_ (10 ^ 20) 0
    settings.validate = .ok () ∧ session.navigator.view.toGlobal ship = at_ 1 0 ∧
      session.scene.layers.ships.pose.toScreen ship = at_ (10 ^ 10 + 1 - 1 / 10 ^ 10) 0 := by
  intro i at_ settings outwards session ship
  refine ⟨?_, by decide +kernel, by decide +kernel⟩
  rw [Settings.validate, if_neg (by decide +kernel)]

end Session

end DeadReckoning
