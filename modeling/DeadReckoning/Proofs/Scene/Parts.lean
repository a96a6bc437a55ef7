import DeadReckoning.Scene.Basic
import DeadReckoning.View.Navigator

namespace DeadReckoning

/-!
# Parts of the scene — what each change of it touches

The scene is shared: frames, dropped objects, gestures and changes of the channel all write to its
layers. Each of them writes to a part of its own.

* `Scene.members`, `Scene.poses`, `Scene.texts` — the three parts of the layers
* `Scene.ext_parts` — the parts are all that there is
* `Scene.SameDrawing` — the same marks and members, and the same book
* `SameDrawing.update`, `SameDrawing.removeAll` — frames and dropped objects see nothing else
* `poses_applyEach` — pushes see the poses only
-/

variable {α : Type}

/-- A layer is its pose, its members and its text. -/
theorem Layer.eq_of_parts {l m : Layer α} (pose : l.pose = m.pose) (members : l.members = m.members)
    (text : l.text = m.text) : l = m := by
  cases l
  cases m
  simp only at pose members text
  rw [pose, members, text]

namespace Scene

/-- The objects drawn on each layer. -/
def members (scene : Scene α) (id : LayerId) : Std.ExtTreeSet TrackKey :=
  (scene.layers.get id).members

/-- The pose of each layer. -/
def poses (scene : Scene α) (id : LayerId) : Pose α := (scene.layers.get id).pose

/-- The text of each layer. -/
def texts (scene : Scene α) (id : LayerId) : Option String := (scene.layers.get id).text

/-- Two scenes with the same parts are the same. -/
theorem ext_parts {s t : Scene α} (marks : s.marks = t.marks) (members : s.members = t.members)
    (poses : s.poses = t.poses) (texts : s.texts = t.texts) (shapes : s.shapes = t.shapes) :
    s = t := by
  have layers : ∀ id, s.layers.get id = t.layers.get id := fun id =>
    Layer.eq_of_parts (congrFun poses id) (congrFun members id) (congrFun texts id)
  have asteroids : s.layers.asteroids = t.layers.asteroids := layers .asteroids
  have ships : s.layers.ships = t.layers.ships := layers .ships
  have gui : s.layers.gui = t.layers.gui := layers .gui
  obtain ⟨⟨a, b, c⟩, _, _⟩ := s
  obtain ⟨⟨a', b', c'⟩, _, _⟩ := t
  simp only at asteroids ships gui marks shapes
  rw [asteroids, ships, gui, marks, shapes]

/-! ### Members, poses and texts of changed layers -/

section Layers

variable (layers : Layers α) (id other : LayerId) (key : TrackKey)

/-- A member is added to its layer and to no other. -/
theorem members_addMember :
    ((layers.modify id (Layer.addMember key)).get other).members =
      if other = id then (layers.get other).members.insert key else (layers.get other).members := by
  rw [Layers.get_modify]
  split <;> rfl

/-- A member is taken from its layer and from no other. -/
theorem members_dropMember :
    ((layers.modify id (Layer.dropMember key)).get other).members =
      if other = id then (layers.get other).members.erase key else (layers.get other).members := by
  rw [Layers.get_modify]
  split <;> rfl

/-- A new member does not move any layer. -/
@[simp] theorem pose_addMember :
    ((layers.modify id (Layer.addMember key)).get other).pose = (layers.get other).pose := by
  rw [Layers.get_modify]
  split <;> rfl

/-- Nor does one that leaves. -/
@[simp] theorem pose_dropMember :
    ((layers.modify id (Layer.dropMember key)).get other).pose = (layers.get other).pose := by
  rw [Layers.get_modify]
  split <;> rfl

/-- A new member does not change the text of any layer. -/
@[simp] theorem text_addMember :
    ((layers.modify id (Layer.addMember key)).get other).text = (layers.get other).text := by
  rw [Layers.get_modify]
  split <;> rfl

/-- Nor does one that leaves. -/
@[simp] theorem text_dropMember :
    ((layers.modify id (Layer.dropMember key)).get other).text = (layers.get other).text := by
  rw [Layers.get_modify]
  split <;> rfl

end Layers

/-! ### What frames and dropped objects leave alone -/

/-- The parts of the scene that only gestures and the channel change. -/
structure SameSurface (s t : Scene α) : Prop where
  poses : s.poses = t.poses
  texts : s.texts = t.texts
  shapes : s.shapes = t.shapes

namespace SameSurface

variable {s t u : Scene α}

theorem refl (s : Scene α) : SameSurface s s := ⟨rfl, rfl, rfl⟩

theorem symm (h : SameSurface s t) : SameSurface t s :=
  ⟨h.poses.symm, h.texts.symm, h.shapes.symm⟩

theorem trans (h : SameSurface s t) (k : SameSurface t u) : SameSurface s u :=
  ⟨h.poses.trans k.poses, h.texts.trans k.texts, h.shapes.trans k.shapes⟩

end SameSurface

/-- Taking a mark away leaves poses, texts and shapes alone. -/
theorem sameSurface_remove (scene : Scene α) (key : TrackKey) :
    SameSurface (scene.remove key).1 scene := by
  unfold remove
  cases scene.mark? key with
  | none => exact .refl scene
  | some mark =>
    refine ⟨?_, ?_, rfl⟩
    · funext id
      simp [poses]
    · funext id
      simp [texts]

/-- So does taking several away. -/
theorem sameSurface_removeAll (scene : Scene α) (keys : List TrackKey) :
    SameSurface (scene.removeAll keys) scene := by
  induction keys generalizing scene with
  | nil => exact .refl scene
  | cons key rest ih => exact (ih _).trans (scene.sameSurface_remove key)

section Frames

variable [Scalar α]

/-- Making a mark leaves them alone. -/
theorem sameSurface_ensure (scene : Scene α) (track : Track α) :
    SameSurface (scene.ensure track) scene := by
  unfold ensure
  cases scene.mark? track.key with
  | some mark => exact .refl scene
  | none =>
    cases scene.shapes.spawn track with
    | none => exact .refl scene
    | some shape =>
      refine ⟨?_, ?_, rfl⟩
      · funext id
        simp [poses]
      · funext id
        simp [texts]

/-- Placing a mark leaves them alone. -/
theorem sameSurface_place (scene : Scene α) (time : Micros) (track : Track α) :
    SameSurface (scene.place time track).1 scene := by
  -- first the mark is met or made, then it is moved
  refine SameSurface.trans ?_ (scene.sameSurface_ensure track)
  unfold place
  dsimp only
  cases (scene.ensure track).mark? track.key with
  | none => exact .refl _
  | some mark => exact ⟨rfl, rfl, rfl⟩

/-- So does placing several. -/
theorem sameSurface_placeAll (scene : Scene α) (time : Micros) (tracks : List (Track α)) :
    SameSurface (scene.placeAll time tracks).1 scene := by
  induction tracks generalizing scene with
  | nil => exact .refl scene
  | cons track rest ih => exact (ih _).trans (scene.sameSurface_place time track)

/-- A frame leaves poses, texts and shapes alone. -/
theorem sameSurface_update (scene : Scene α) (catalog : Catalog α) (time : Micros) :
    SameSurface (scene.update catalog time).1 scene := scene.sameSurface_placeAll time _

end Frames

/-! ### What frames and dropped objects see -/

/-- The same is drawn, and will be of new objects. -/
structure SameDrawing (s t : Scene α) : Prop where
  marks : s.marks = t.marks
  members : s.members = t.members
  shapes : s.shapes = t.shapes

namespace SameDrawing

variable {s t : Scene α}

theorem refl (s : Scene α) : SameDrawing s s := ⟨rfl, rfl, rfl⟩

theorem trans {u : Scene α} (h : SameDrawing s t) (k : SameDrawing t u) : SameDrawing s u :=
  ⟨h.marks.trans k.marks, h.members.trans k.members, h.shapes.trans k.shapes⟩

theorem mark? (h : SameDrawing s t) (key : TrackKey) : s.mark? key = t.mark? key := by
  rw [Scene.mark?, Scene.mark?, h.marks]

theorem member (h : SameDrawing s t) (id : LayerId) :
    (s.layers.get id).members = (t.layers.get id).members := congrFun h.members id

/-- A mark is taken from two such scenes alike. -/
protected theorem remove (h : SameDrawing s t) (key : TrackKey) :
    SameDrawing (s.remove key).1 (t.remove key).1 := by
  unfold Scene.remove
  rw [h.mark?]
  cases t.mark? key with
  | none => exact h
  | some mark =>
    refine ⟨?_, ?_, h.shapes⟩
    · show s.marks.erase key = t.marks.erase key
      rw [h.marks]
    · funext id
      simp only [Scene.members, members_dropMember, h.member]

/-- So are several marks. -/
protected theorem removeAll (h : SameDrawing s t) (keys : List TrackKey) :
    SameDrawing (s.removeAll keys) (t.removeAll keys) := by
  induction keys generalizing s t with
  | nil => exact h
  | cons key rest ih => exact ih (h.remove key)

variable [Scalar α]

/-- A mark is made in two such scenes alike, since they have the same shapes. -/
protected theorem ensure (h : SameDrawing s t) (track : Track α) :
    SameDrawing (s.ensure track) (t.ensure track) := by
  unfold Scene.ensure
  rw [h.mark?, h.shapes]
  cases t.mark? track.key with
  | some mark => exact h
  | none =>
    cases t.shapes.spawn track with
    | none => exact h
    | some shape =>
      refine ⟨?_, ?_, rfl⟩
      · show s.marks.insert _ _ = t.marks.insert _ _
        rw [h.marks]
      · funext id
        simp only [Scene.members, members_addMember, h.member]

/-- A mark is placed in two such scenes alike, and shown in both or in neither. -/
protected theorem place (h : SameDrawing s t) (time : Micros) (track : Track α) :
    SameDrawing (s.place time track).1 (t.place time track).1 ∧
      (s.place time track).2 = (t.place time track).2 := by
  have met := h.ensure track
  unfold Scene.place
  dsimp only
  rw [met.mark?]
  cases (t.ensure track).mark? track.key with
  | none => exact ⟨met, rfl⟩
  | some mark =>
    refine ⟨⟨?_, met.members, met.shapes⟩, rfl⟩
    show (s.ensure track).marks.insert _ _ = (t.ensure track).marks.insert _ _
    rw [met.marks]

/-- So are several marks, and as many of them are counted. -/
protected theorem placeAll (h : SameDrawing s t) (time : Micros) (tracks : List (Track α)) :
    SameDrawing (s.placeAll time tracks).1 (t.placeAll time tracks).1 ∧
      (s.placeAll time tracks).2 = (t.placeAll time tracks).2 := by
  induction tracks generalizing s t with
  | nil => exact ⟨h, rfl⟩
  | cons track rest ih =>
    obtain ⟨placed, answer⟩ := h.place time track
    obtain ⟨drawn, count⟩ := ih placed
    refine ⟨drawn, ?_⟩
    simp only [Scene.placeAll, answer, count]

/-- A frame shows the same in scenes that differ in poses and texts only. -/
protected theorem update (h : SameDrawing s t) (catalog : Catalog α) (time : Micros) :
    SameDrawing (s.update catalog time).1 (t.update catalog time).1 ∧
      (s.update catalog time).2 = (t.update catalog time).2 := h.placeAll time _

end SameDrawing

/-! ### The overlay -/

/-- Another text over the drawing changes nothing else. -/
theorem sameDrawing_setOverlay (scene : Scene α) (text : String) :
    SameDrawing (scene.setOverlay text) scene := by
  refine ⟨rfl, ?_, rfl⟩
  funext id
  simp only [members, setOverlay, Layers.get_modify]
  split <;> rfl

/-- The overlay does not move any layer. -/
@[simp] theorem poses_setOverlay (scene : Scene α) (text : String) :
    (scene.setOverlay text).poses = scene.poses := by
  funext id
  simp only [poses, setOverlay, Layers.get_modify]
  split <;> rfl

/-- The layer over the drawing has the text, the others what they had. -/
theorem texts_setOverlay (scene : Scene α) (text : String) (id : LayerId) :
    (scene.setOverlay text).texts id = if id = .gui then some text else scene.texts id := by
  simp only [texts, setOverlay, Layers.get_modify]
  split <;> rfl

/-! ### Pushes -/

section Pushes

variable [Scalar α]

/-- What is pushed to a layer leaves marks, members and shapes alone. -/
theorem sameDrawing_push (scene : Scene α) (id : LayerId) (changes : List (Push α)) :
    SameDrawing (TargetSet.push scene id changes) scene := by
  refine ⟨rfl, ?_, rfl⟩
  funext other
  simp only [members, TargetSet.push, Layers.get_modify]
  split <;> rfl

/-- It leaves the texts alone too. -/
@[simp] theorem texts_push (scene : Scene α) (id : LayerId) (changes : List (Push α)) :
    (TargetSet.push scene id changes).texts = scene.texts := by
  funext other
  simp only [texts, TargetSet.push, Layers.get_modify]
  split <;> rfl

/-- Changes are pushed to one layer, and the others keep their poses. -/
theorem poses_push (scene : Scene α) (id other : LayerId) (changes : List (Push α)) :
    (TargetSet.push scene id changes).poses other =
      if other = id then (scene.poses other).pushAll changes else scene.poses other := by
  simp only [poses, TargetSet.push, Layers.get_modify]
  split <;> rfl

/-- Bringing a layer in line reads and writes poses only. -/
theorem apply_scene (view : Viewport α) (scene : Scene α) (id : LayerId) :
    SameDrawing (view.apply scene id).1 scene ∧ (view.apply scene id).1.texts = scene.texts := by
  unfold Viewport.apply
  dsimp only [TargetSet.pose?]
  cases view.pushes (scene.layers.get id).pose with
  | nil => exact ⟨.refl scene, rfl⟩
  | cons change changes => exact ⟨scene.sameDrawing_push id _, scene.texts_push id _⟩

/-- What a view makes of the poses depends on the poses alone. -/
theorem poses_apply (view : Viewport α) {s t : Scene α} (h : s.poses = t.poses) (id : LayerId) :
    (view.apply s id).1.poses = (view.apply t id).1.poses := by
  have pose : (s.layers.get id).pose = (t.layers.get id).pose := congrFun h id
  unfold Viewport.apply
  dsimp only [TargetSet.pose?]
  rw [pose]
  -- what is pushed depends on the view and on the pose alone
  cases view.pushes (t.layers.get id).pose with
  | nil => exact h
  | cons change changes =>
    funext other
    rw [poses_push, poses_push, h]

/-- Bringing layers in line with a view changes nothing but their poses. -/
theorem applyEach_scene (view : Viewport α) (scene : Scene α) (ids : List LayerId) :
    SameDrawing (Navigator.applyEach view ids scene).1 scene ∧
      (Navigator.applyEach view ids scene).1.texts = scene.texts := by
  induction ids generalizing scene with
  | nil => exact ⟨.refl scene, rfl⟩
  | cons id rest ih =>
    obtain ⟨drawing, texts⟩ := apply_scene view scene id
    obtain ⟨drawings, alltexts⟩ := ih (view.apply scene id).1
    exact ⟨drawings.trans drawing, alltexts.trans texts⟩

/-- What it makes of the poses depends on these alone. -/
theorem poses_applyEach (view : Viewport α) {s t : Scene α} (h : s.poses = t.poses)
    (ids : List LayerId) :
    (Navigator.applyEach view ids s).1.poses = (Navigator.applyEach view ids t).1.poses := by
  induction ids generalizing s t with
  | nil => exact h
  | cons id rest ih => exact ih (poses_apply view h id)

end Pushes

end Scene

end DeadReckoning
