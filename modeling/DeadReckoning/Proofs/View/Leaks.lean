import DeadReckoning.Proofs.View.Notches

namespace DeadReckoning

/-!
# Gestures — none of them acts beyond its end

Presses, touches and releases decide whether a point is held, movements and the wheel never do. A
movement acts on the view only while a point is held, so that a gesture which came to its end cannot
go on by itself. Whatever is said not to have acted on the view left the targets alone as well, and
targets that are not bound are never pushed to.

* `Gesture.holding` — whether a point is held after a gesture; `isDragging_handleAll`: after a run
* `Navigator.MayAct` — the gestures that can act on the view; `mayAct_of_changed`
* `Navigator.LetsGo`, `handleAll_of_idle` — a gesture that ends a hold, and what comes after it
* `TargetSet.PushedOnly` — targets after pushes to some of their keys; `pushedOnly_handle`
* `Boards.getElem?_of_pushedOnly` — boards that are not bound
* `changed_iff` — without rounding a gesture acts on the view if and only if this is another one
* `gestures_do_not_leak` — all of it for a navigator from its start
-/

namespace Gesture

variable {α : Type}

/-- Whether a point is held after a gesture, from whether one was held before. -/
def holding (held : Bool) : Gesture α → Bool
  | press _ => true
  | touch _ => !held
  | release | touchEnd | cancel => false
  | move _ | touchMove _ | wheel .. => held

/-- A press, or a touch. -/
def isPress : Gesture α → Bool
  | press _ | touch _ => true
  | _ => false

/-- Movements and turns of the wheel neither take hold of a point nor let go of it. -/
theorem holding_of_keepsHold {gesture : Gesture α} (keeps : gesture.keepsHold) (held : Bool) :
    gesture.holding held = held := by
  cases gesture with
  | move _ | touchMove _ | wheel _ _ => rfl
  | press _ | touch _ | release | touchEnd | cancel => cases keeps

/-- Without a press nothing is held that was not held before. -/
theorem holding_false {gesture : Gesture α} (noPress : gesture.isPress = false) :
    gesture.holding false = false := by
  cases gesture with
  | press _ | touch _ => cases noPress
  | _ => rfl

end Gesture

/-! ### Targets that were pushed to -/

/-- The targets `after` come of the targets `before` by pushes to the given keys. -/
inductive TargetSet.PushedOnly {σ κ α : Type} [TargetSet σ κ α] (keys : List κ) (before : σ) :
    σ → Prop
  | none : PushedOnly keys before before
  | push {after : σ} {key : κ} (pushed : PushedOnly keys before after) (bound : key ∈ keys)
    (changes : List (Push α)) : PushedOnly keys before (TargetSet.push after key changes)

namespace TargetSet.PushedOnly

variable {σ κ α : Type} [TargetSet σ κ α] {keys : List κ} {s t u : σ}

/-- Pushes may be made one after the other. -/
theorem trans (first : PushedOnly keys s t) (second : PushedOnly keys t u) :
    PushedOnly keys s u := by
  induction second with
  | none => exact first
  | push _ bound changes ih => exact ih.push bound changes

/-- More targets may be allowed than were pushed to. -/
theorem mono {others : List κ} (pushed : PushedOnly keys s t) (subset : keys ⊆ others) :
    PushedOnly others s t := by
  induction pushed with
  | none => exact .none
  | push _ bound changes ih => exact ih.push (subset bound) changes

end TargetSet.PushedOnly

open TargetSet (PushedOnly)

/-- A board under a name that was not pushed to is the one that it was, with its counts. -/
theorem Boards.getElem?_of_pushedOnly {α : Type} [Scalar α] {names : List String}
    {before after : Boards α} (pushed : PushedOnly names before after) {name : String}
    (unbound : name ∉ names) : after[name]? = before[name]? := by
  induction pushed with
  | none => rfl
  | @push after key _ bound changes ih =>
    have other : ¬key = name := fun same => unbound (same ▸ bound)
    rw [← ih]
    simp only [TargetSet.push]
    split
    next => simp [Std.ExtTreeMap.getElem?_insert, Std.LawfulEqCmp.compare_eq_iff_eq, other]
    next => rfl

namespace Navigator

section Grips

variable {κ α : Type} {navigator : Navigator κ α} {gesture : Gesture α}

@[simp] theorem isDragging_letGo (navigator : Navigator κ α) :
    navigator.letGo.isDragging = false := rfl

/-- A point that is held is dragged. -/
theorem isDragging_of_grip {anchor : Vec2 α} (held : navigator.grip = .dragging anchor) :
    navigator.isDragging = true := by
  rw [isDragging, held]
  rfl

/-- A gesture that ends a hold: a release or an interruption, or another touch while a point is
held. -/
def LetsGo (navigator : Navigator κ α) : Gesture α → Prop
  | .release | .touchEnd | .cancel => True
  | .touch _ => navigator.isDragging
  | _ => False

/-- A gesture that ends a hold leaves nothing held. -/
theorem holding_of_letsGo (letsGo : navigator.LetsGo gesture) :
    gesture.holding navigator.isDragging = false := by
  cases gesture with
  | touch _ =>
    have held : navigator.isDragging = true := letsGo
    rw [Gesture.holding, held, Bool.not_true]
  | release | touchEnd | cancel => rfl
  | press _ | move _ | touchMove _ | wheel _ _ => cases letsGo

end Grips

variable {κ σ α : Type} [Scalar α] [TargetSet σ κ α] {navigator : Navigator κ α} {targets : σ}
  {gesture : Gesture α}

/-! ### What is held -/

@[simp] theorem isDragging_take (navigator : Navigator κ α) (point : Vec2 α) :
    (navigator.take point).isDragging = true := rfl

/-- Whether a point is held after a gesture is known from the gesture and whether one was held
before. -/
theorem isDragging_step (navigator : Navigator κ α) (gesture : Gesture α) :
    (navigator.step gesture).1.isDragging = gesture.holding navigator.isDragging := by
  cases gesture with
  | move goal | touchMove goal =>
    rw [step]
    -- a movement moves what is held or does nothing, and the hold is kept either way
    rcases navigator.dragTo_cases goal with still | ⟨anchor, held, moved⟩
    · rw [still]
      rfl
    · rw [moved, Gesture.holding, isDragging_of_grip held]
      rfl
  | wheel point amount => exact congrArg Grip.isDragging (navigator.grip_zoomAt point amount)
  | touch point =>
    rw [step, Gesture.holding]
    split
    next held => simp [held]
    next free => simp [free]
  | press _ | release | touchEnd | cancel => rfl

/-- What keeps a hold has no part in whether there is one. -/
theorem isDragging_handleAll (navigator : Navigator κ α) (targets : σ)
    (gestures : List (Gesture α)) :
    (navigator.handleAll targets gestures).1.isDragging =
      (gestures.filter (!·.keepsHold)).foldl Gesture.holding navigator.isDragging := by
  induction gestures generalizing navigator targets with
  | nil => rfl
  | cons gesture rest ih =>
    rw [handleAll_cons, ih, isDragging_step]
    by_cases keeps : gesture.keepsHold
    · rw [Gesture.holding_of_keepsHold keeps, List.filter_cons_of_neg (by simp [keeps])]
    · rw [List.filter_cons_of_pos (by simp [keeps]), List.foldl_cons]

/-! ### What acts on the view -/

/-- The gestures that can act on the view: a turn of the wheel one way or the other, and a movement
while a point is held. -/
def MayAct (navigator : Navigator κ α) : Gesture α → Prop
  | .wheel _ amount => amount < 0.0 ∨ 0.0 < amount
  | .move _ | .touchMove _ => navigator.isDragging
  | _ => False

/-- Only gestures that can act on the view change anything. -/
theorem mayAct_of_changed (changed : (navigator.step gesture).2) : navigator.MayAct gesture := by
  cases gesture with
  | move goal | touchMove goal =>
    rcases navigator.dragTo_cases goal with still | ⟨anchor, held, -⟩
    · cases (congrArg Prod.snd still).symm.trans changed
    · exact isDragging_of_grip held
  | wheel point amount =>
    by_contra still
    rw [MayAct, not_or] at still
    -- an amount that is neither below nor above zero has no factor
    have none : navigator.zoomFactor? amount = none := by
      rw [zoomFactor?, if_neg still.1, if_neg still.2]
    rw [step, zoomAt, none] at changed
    cases changed
  | press _ | touch _ | release | touchEnd | cancel => cases changed

/-- A gesture that did not act on the view left the targets alone. -/
theorem handle_of_unchanged (unchanged : (navigator.step gesture).2 = false) :
    navigator.handle gesture targets = ((navigator.step gesture).1, targets, false) := by
  simp [handle, unchanged]

/-- A movement while nothing is held does nothing. -/
theorem handle_of_idle (idle : navigator.isDragging = false) {movement : Gesture α}
    (moves : movement.target?.isSome) (targets : σ) :
    navigator.handle movement targets = (navigator, targets, false) := by
  obtain ⟨goal, target⟩ := Option.isSome_iff_exists.mp moves
  have still : navigator.step movement = (navigator, false) := by
    rw [step_of_target target]
    rcases navigator.dragTo_cases goal with still | ⟨anchor, held, -⟩
    · exact still
    · cases idle.symm.trans (isDragging_of_grip held)
  rw [handle_of_unchanged (congrArg Prod.snd still), still]

/-! ### After a hold -/

/-- Nothing is held from the end of a hold to the next press. -/
theorem isDragging_of_letsGo (letsGo : navigator.LetsGo gesture) (targets : σ)
    {later : List (Gesture α)} (noPress : ∀ g ∈ later, g.isPress = false) :
    (navigator.handleAll targets (gesture :: later)).1.isDragging = false := by
  rw [handleAll_cons, isDragging_handleAll, isDragging_step, holding_of_letsGo letsGo]
  have stays (gestures : List (Gesture α)) (noPress : ∀ g ∈ gestures, g.isPress = false) :
      gestures.foldl Gesture.holding false = false := by
    induction gestures with
    | nil => rfl
    | cons g rest ih =>
      rw [List.forall_mem_cons] at noPress
      rw [List.foldl_cons, Gesture.holding_false noPress.1]
      exact ih noPress.2
  exact stays _ fun g mem => noPress g (List.mem_of_mem_filter mem)

/-! ### What is pushed to -/

/-- Bringing one target in line pushes to no other. -/
theorem pushedOnly_apply (view : Viewport α) (targets : σ) (key : κ) :
    PushedOnly [key] targets (view.apply targets key).1 := by
  unfold Viewport.apply
  split
  next => exact .none
  next =>
    split
    next => exact .none
    next changes _ => exact .push .none (List.mem_singleton_self key) _

/-- Bringing targets in line pushes to no others. -/
theorem pushedOnly_applyEach (view : Viewport α) (keys : List κ) (targets : σ) :
    PushedOnly keys targets (applyEach view keys targets).1 := by
  induction keys generalizing targets with
  | nil => exact .none
  | cons key keys ih =>
    have first : PushedOnly (key :: keys) targets (view.apply targets key).1 :=
      (pushedOnly_apply view targets key).mono (by simp)
    exact first.trans ((ih _).mono (List.subset_cons_self key keys))

/-- A gesture pushes to the targets of the navigator only. -/
theorem pushedOnly_handle (navigator : Navigator κ α) (gesture : Gesture α) (targets : σ) :
    PushedOnly navigator.targets targets (navigator.handle gesture targets).2.1 := by
  have pushed := pushedOnly_applyEach (navigator.step gesture).1.view navigator.targets targets
  show PushedOnly _ _ (if (navigator.step gesture).2 then
    ((navigator.step gesture).1.applyAll targets).1 else targets)
  split
  next => rwa [applyAll, targets_step]
  next => exact .none

/-- Gestures do not change which targets a navigator has. -/
theorem targets_handleAll (navigator : Navigator κ α) (targets : σ) (gestures : List (Gesture α)) :
    (navigator.handleAll targets gestures).1.targets = navigator.targets := by
  induction gestures generalizing navigator targets with
  | nil => rfl
  | cons gesture rest ih => rw [handleAll_cons, ih, targets_step]

/-- All of a run pushes to bound targets only. -/
theorem pushedOnly_handleAll (navigator : Navigator κ α) (targets : σ)
    (gestures : List (Gesture α)) :
    PushedOnly navigator.targets targets (navigator.handleAll targets gestures).2 := by
  induction gestures generalizing navigator targets with
  | nil => exact .none
  | cons gesture rest ih =>
    have others := ih (navigator.step gesture).1 (navigator.handle gesture targets).2.1
    rw [targets_step] at others
    exact (navigator.pushedOnly_handle gesture targets).trans others

/-! ### Without rounding -/

section Exact

variable {i : Irrational} {navigator : Navigator κ (Exact i)}

/-- Panning by anything but nothing moves a proper view. -/
theorem pan_ne (proper : navigator.view.Proper) {displacement : Vec2 (Exact i)}
    (moved : displacement ≠ .zero) : navigator.view.pan displacement ≠ navigator.view := by
  intro same
  have offset := congrArg Viewport.offset same
  have axis (o s d : ℚ) (pos : 0 < s) (same : o + s * d = o) : d = 0 := by
    rw [add_eq_left, mul_eq_zero] at same
    exact same.resolve_left pos.ne'
  have x := axis _ _ _ proper.x (congrArg (·.x.value) offset)
  have y := axis _ _ _ proper.y (congrArg (·.y.value) offset)
  refine moved (Vec2.ext_value ?_ ?_)
  · simpa [Vec2.zero] using x
  · simpa [Vec2.zero] using y

/-- A drag that is reported as a change moves the view, since numbers are exact. -/
theorem view_dragTo_ne (proper : navigator.view.Proper) {goal : Vec2 (Exact i)}
    (changed : (navigator.dragTo goal).2) : (navigator.dragTo goal).1.view ≠ navigator.view := by
  unfold dragTo at changed ⊢
  cases held : navigator.grip with
  | idle =>
    rw [held] at changed
    cases changed
  | dragging anchor =>
    rw [held] at changed
    dsimp only at changed ⊢
    split at changed
    next => cases changed
    next moved =>
      rw [if_neg moved]
      -- a pan that leaves the view would be one by nothing, which is no change
      refine pan_ne proper fun still => moved ?_
      rw [still, beq_self_eq_true, Bool.or_true]

/-- A turn of the wheel changes the view, since its factor is not one. -/
theorem view_zoomAt_ne (proper : navigator.view.Proper) (above : 1 < navigator.zoomStep.value)
    {point : Vec2 (Exact i)} {amount : Exact i} (turned : amount < 0.0 ∨ 0.0 < amount) :
    (navigator.zoomAt point amount).1.view ≠ navigator.view := by
  have pos := one_pos.trans above
  rw [zoomAt_eq proper pos]
  intro same
  have scale : navigator.view.scale.x.value * navigator.zoomStep.value ^ balance [amount] =
      navigator.view.scale.x.value := congrArg (·.scale.x.value) same
  rw [mul_eq_left₀ proper.x.ne'] at scale
  -- one notch, in one direction or the other
  have notch : balance [amount] ≠ 0 := by
    rcases turned with inwards | outwards
    · have other : ¬0.0 < amount := by
        rw [Exact.lt_iff, Exact.value_zero] at inwards ⊢
        exact inwards.not_gt
      simp [balance, inwards, other]
    · have other : ¬amount < 0.0 := by
        rw [Exact.lt_iff, Exact.value_zero] at outwards ⊢
        exact outwards.not_gt
      simp [balance, outwards, other]
  exact notch ((zpow_eq_one_iff_right₀ pos.le above.ne').mp scale)

/-- Without rounding it is told that the view changed if and only if it did. -/
theorem changed_iff (proper : navigator.view.Proper) (above : 1 < navigator.zoomStep.value)
    (gesture : Gesture (Exact i)) :
    (navigator.step gesture).2 = true ↔ (navigator.step gesture).1.view ≠ navigator.view := by
  constructor
  · intro changed
    cases gesture with
    | move goal | touchMove goal => exact view_dragTo_ne proper changed
    | wheel point amount => exact view_zoomAt_ne proper above (mayAct_of_changed changed)
    | press _ | touch _ | release | touchEnd | cancel => cases changed
  · intro other
    by_contra unchanged
    exact other (navigator.view_step gesture (Bool.eq_false_of_not_eq_true unchanged))

/-- The zoom factor in use is above one, whichever was asked for. -/
theorem one_lt_zoomStep (keys : List κ) (zoomStep : Exact i) :
    1 < ((start keys).withZoomStep zoomStep).zoomStep.value := by
  rw [zoomStep_withZoomStep]
  split
  next great => exact great
  next => norm_num

end Exact

/-- Gestures cannot leak. From any state that a navigator can come to, with numbers of any kind,
NaN and infinities of doubles included:

* whether a point is held follows from the presses, touches, releases and interruptions of the run
  alone;
* the view changes only by a turn of the wheel or by a movement while a point is held, and after the
  end of a hold no movement does anything until the next press;
* a gesture that is said not to have acted on the view leaves the view and all targets as they are;
* only targets that are bound are ever pushed to, so that a board under another name stays as it is.

Without rounding a gesture is said to have acted on the view if and only if the view is another one
than before. -/
theorem gestures_do_not_leak :
    (∀ {α κ σ : Type} [Scalar α] [TargetSet σ κ α] (keys : List κ) (zoomStep : α) (targets : σ)
      (earlier : List (Gesture α)),
      let now := ((start keys).withZoomStep zoomStep).handleAll targets earlier
      now.1.isDragging = (earlier.filter (!·.keepsHold)).foldl Gesture.holding false ∧
      (∀ gesture,
        let next := now.1.handle gesture now.2
        (next.1.view ≠ now.1.view → now.1.MayAct gesture) ∧
        (next.2.2 = false → next.1.view = now.1.view ∧ next.2.1 = now.2) ∧
        PushedOnly keys now.2 next.2.1) ∧
      PushedOnly keys now.2 (now.1.applyAll now.2).1 ∧
      ∀ ending later movement, now.1.LetsGo ending → (∀ g ∈ later, g.isPress = false) →
        movement.target?.isSome →
        let idle := now.1.handleAll now.2 (ending :: later)
        idle.1.handle movement idle.2 = (idle.1, idle.2, false)) ∧
    (∀ {α : Type} [Scalar α] (names : List String) (zoomStep : α) (boards : Boards α)
      (gestures : List (Gesture α)), ∀ name ∉ names,
      (((start names).withZoomStep zoomStep).handleAll boards gestures).2[name]? = boards[name]?) ∧
    ∀ {i : Irrational} {κ σ : Type} [TargetSet σ κ (Exact i)] (keys : List κ) (zoomStep : Exact i)
      (targets : σ) (earlier : List (Gesture (Exact i))) (gesture : Gesture (Exact i)),
      let now := ((start keys).withZoomStep zoomStep).handleAll targets earlier
      let next := now.1.handle gesture now.2
      next.2.2 = true ↔ next.1.view ≠ now.1.view := by
  refine ⟨?_, ?_, ?_⟩
  · intro α κ σ _ _ keys zoomStep targets earlier now
    obtain ⟨other, same⟩ := (start keys : Navigator κ α).withZoomStep_cases zoomStep
    -- what is bound at the start is bound ever after
    have bound : now.1.targets = keys := by
      rw [targets_handleAll, same]
      rfl
    refine ⟨?_, ?_, bound ▸ pushedOnly_applyEach now.1.view now.1.targets now.2, ?_⟩
    · rw [isDragging_handleAll, same]
      rfl
    · intro gesture next
      -- a view that is new was reported as changed, and only what may act does that
      refine ⟨?_, ?_, bound ▸ now.1.pushedOnly_handle gesture now.2⟩
      · intro acted
        by_contra mayNot
        refine acted (now.1.view_step gesture (Bool.eq_false_of_not_eq_true fun changed => ?_))
        exact mayNot (mayAct_of_changed changed)
      · intro unchanged
        exact ⟨now.1.view_step gesture unchanged,
          congrArg (·.2.1) (handle_of_unchanged unchanged)⟩
    · intro ending later movement letsGo noPress moves idle
      exact handle_of_idle (isDragging_of_letsGo letsGo now.2 noPress) moves idle.2
  · intro α _ names zoomStep boards gestures name unbound
    obtain ⟨other, same⟩ := (start names : Navigator String α).withZoomStep_cases zoomStep
    -- only bound boards are pushed to, and this one is not among them
    have pushed := pushedOnly_handleAll { start names with zoomStep := other } boards gestures
    rw [same]
    exact Boards.getElem?_of_pushedOnly pushed unbound
  · intro i κ σ _ keys zoomStep targets earlier gesture now next
    refine changed_iff (proper_handleAll (proper_withZoomStep keys zoomStep) targets earlier) ?_ _
    rw [zoomStep_handleAll]
    exact one_lt_zoomStep keys zoomStep

end Navigator

end DeadReckoning
