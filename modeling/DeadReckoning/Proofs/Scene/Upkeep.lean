import DeadReckoning.Proofs.Scene.Frames
import Mathlib.Algebra.GroupWithZero.Nat
import Mathlib.Data.List.Nodup

namespace DeadReckoning

/-!
# The scene — every change keeps marks and layers in step

A scene changes by frames against any catalogs, by marks that are taken away, by new ways of drawing
a kind, by pushes to its layers and by texts. Whatever the order, each mark stands on one layer, and
nothing else does. A mark keeps its style as long as it stands, however its kind is drawn by then.

* `Shape.SameStyle` — shapes that differ in size only
* `Scene.Change`, `Scene.changeAll` — what can be done with a scene
* `Tidy.change`, `Tidy.changeAll` — marks and layers agree after every change
* `Tidy.sum_size_members` — as many marks as members of layers
* `DrawnLike.change`, `DrawnLike.changeAll` — the style of a mark until it is taken away
* `marks_and_layers_in_step` — all of it for a scene from its start
-/

variable {α : Type}

/-- Two shapes are on one layer and in the same colours. Their sizes may differ. -/
structure Shape.SameStyle (s t : Shape α) : Prop where
  layer : s.layer = t.layer
  fill : s.fill = t.fill
  stroke : s.stroke = t.stroke

namespace Scene

/-- What can be done with a scene. -/
inductive Change (α : Type) where
  /-- A frame is drawn of a catalog. -/
  | update (catalog : Catalog α) (time : Micros)
  /-- An object is no longer drawn. -/
  | remove (key : TrackKey)
  /-- A kind is drawn in a new or another way. -/
  | register (kind : Kind) (factory : ShapeFactory α)
  /-- A layer is moved and scaled. -/
  | push (id : LayerId) (changes : List (Push α))
  | setOverlay (text : String)

variable {scene : Scene α}

/-! ### Members and marks -/

/-- Whatever is on a layer has a mark. -/
theorem Tidy.isSome_mark? (tidy : scene.Tidy) {id : LayerId} {key : TrackKey}
    (member : key ∈ scene.members id) : (scene.mark? key).isSome := by
  obtain ⟨mark, found, -⟩ := (tidy.mem_iff id key).mp member
  exact Option.isSome_of_eq_some found

/-- An object with a mark is on the layer of its mark and on no other. -/
theorem Tidy.existsUnique_layer (tidy : scene.Tidy) {key : TrackKey}
    (marked : (scene.mark? key).isSome) : ∃! id, key ∈ scene.members id := by
  obtain ⟨mark, found⟩ := Option.isSome_iff_exists.mp marked
  refine ⟨mark.shape.layer, (tidy.mem_iff _ key).mpr ⟨mark, found, rfl⟩, ?_⟩
  intro id member
  obtain ⟨other, found_other, layer⟩ := (tidy.mem_iff id key).mp member
  rw [found] at found_other
  cases found_other
  exact layer.symm

/-- No object is on two layers. -/
theorem Tidy.disjoint_members (tidy : scene.Tidy) {id other : LayerId} (different : id ≠ other) :
    (scene.members id).toList.Disjoint (scene.members other).toList := by
  intro key member member_other
  rw [Std.ExtTreeSet.mem_toList] at member member_other
  exact different
    ((tidy.existsUnique_layer (tidy.isSome_mark? member)).unique member member_other)

/-- The members of all layers are the objects with marks, each of them once. -/
theorem Tidy.perm_members (tidy : scene.Tidy) :
    (LayerId.all.flatMap fun id => (scene.members id).toList).Perm scene.marks.keys := by
  have nodup : (LayerId.all.flatMap fun id => (scene.members id).toList).Nodup := by
    refine List.nodup_flatMap.mpr ⟨fun id _ => ?_, ?_⟩
    · refine Std.ExtTreeSet.distinct_toList.imp fun different same => different ?_
      subst same
      exact Std.ReflCmp.compare_self
    · exact List.Pairwise.imp tidy.disjoint_members (by decide : LayerId.all.Nodup)
  rw [List.perm_ext_iff_of_nodup nodup Std.ExtTreeMap.nodup_keys]
  intro key
  rw [List.mem_flatMap, Std.ExtTreeMap.mem_keys, Std.ExtTreeMap.mem_iff_isSome_getElem?]
  constructor
  · rintro ⟨id, -, member⟩
    exact tidy.isSome_mark? (Std.ExtTreeSet.mem_toList.mp member)
  · intro marked
    obtain ⟨id, member, -⟩ := tidy.existsUnique_layer marked
    exact ⟨id, by cases id <;> decide, Std.ExtTreeSet.mem_toList.mpr member⟩

/-- There are as many members of layers as marks. -/
theorem Tidy.sum_size_members (tidy : scene.Tidy) :
    (LayerId.all.map fun id => (scene.members id).size).sum = scene.marks.size := by
  have same := tidy.perm_members.length_eq
  rw [List.length_flatMap, Std.ExtTreeMap.length_keys] at same
  simpa only [Std.ExtTreeSet.length_toList] using same

/-! ### Changes -/

/-- Marks and layers are left alone if a kind is drawn in another way. -/
theorem Tidy.register (tidy : scene.Tidy) (kind : Kind) (factory : ShapeFactory α) :
    (scene.register kind factory).Tidy where
  mem_iff := tidy.mem_iff
  drawn key marked := by
    show ((scene.shapes.register kind factory).factory? key.kind).isSome
    rw [ShapeBook.factory?_register]
    split
    · rfl
    · exact tidy.drawn key marked

variable [Scalar α]

/-- The scene after a change. -/
def change (scene : Scene α) : Change α → Scene α
  | .update catalog time => (scene.update catalog time).1
  | .remove key => (scene.remove key).1
  | .register kind factory => scene.register kind factory
  | .push id changes => TargetSet.push scene id changes
  | .setOverlay text => scene.setOverlay text

/-- The scene after several changes. -/
def changeAll (scene : Scene α) (changes : List (Change α)) : Scene α := changes.foldl change scene

/-- Every change keeps a scene tidy. -/
protected theorem Tidy.change (tidy : scene.Tidy) (change : Change α) :
    (scene.change change).Tidy := by
  cases change with
  | update catalog time => exact tidy.update catalog time
  | remove key => exact tidy.remove key
  | register kind factory => exact tidy.register kind factory
  | push id changes => exact tidy.of_sameDrawing (scene.sameDrawing_push id changes)
  | setOverlay text => exact tidy.of_sameDrawing (scene.sameDrawing_setOverlay text)

/-- Marks and layers agree after every run of changes. -/
protected theorem Tidy.changeAll (tidy : scene.Tidy) (changes : List (Change α)) :
    (scene.changeAll changes).Tidy := by
  induction changes generalizing scene with
  | nil => exact tidy
  | cons change rest ih => exact ih (tidy.change change)

/-! ### The style of a mark -/

/-- There is a mark of an object, in the style of a given shape. -/
def DrawnLike (scene : Scene α) (key : TrackKey) (shape : Shape α) : Prop :=
  ∃ mark, scene.mark? key = some mark ∧ mark.shape.SameStyle shape

namespace DrawnLike

variable {key : TrackKey} {shape : Shape α}

omit [Scalar α] in
/-- Only the mark itself decides what it is drawn like. -/
theorem of_mark?_eq {other : Scene α} (drawn : scene.DrawnLike key shape)
    (same : other.mark? key = scene.mark? key) : other.DrawnLike key shape := by
  rw [DrawnLike, same]
  exact drawn

/-- A mark that follows its object changes its size and its place only. -/
protected theorem place (drawn : scene.DrawnLike key shape) (time : Micros) (track : Track α) :
    (scene.place time track).1.DrawnLike key shape := by
  by_cases own : track.key = key
  · obtain ⟨mark, found, style⟩ := drawn
    refine ⟨mark.follow track time, ?_, style.layer, style.fill, style.stroke⟩
    rw [mark?_place, if_pos own, shown?, own, found]
    rfl
  · refine drawn.of_mark?_eq ?_
    rw [mark?_place, if_neg own]

/-- Nor does any number of objects that are placed change more of a mark. -/
protected theorem placeAll (drawn : scene.DrawnLike key shape) (time : Micros)
    (tracks : List (Track α)) : (scene.placeAll time tracks).1.DrawnLike key shape := by
  induction tracks generalizing scene with
  | nil => exact drawn
  | cons track rest ih => exact ih (drawn.place time track)

/-- A mark keeps its style through every change but its own removal. -/
protected theorem change (drawn : scene.DrawnLike key shape) {change : Change α}
    (kept : change ≠ .remove key) : (scene.change change).DrawnLike key shape := by
  cases change with
  | update catalog time => exact drawn.placeAll time catalog.tracks
  | remove removed =>
    have other : removed ≠ key := fun same => kept (congrArg Change.remove same)
    refine drawn.of_mark?_eq ?_
    show (scene.remove removed).1.mark? key = _
    rw [mark?_remove, if_neg other]
  | register kind factory => exact drawn
  | push id changes => exact drawn.of_mark?_eq ((scene.sameDrawing_push id changes).mark? key)
  | setOverlay text => exact drawn.of_mark?_eq ((scene.sameDrawing_setOverlay text).mark? key)

/-- A mark keeps its style until it is taken away. -/
protected theorem changeAll (drawn : scene.DrawnLike key shape) {changes : List (Change α)}
    (kept : .remove key ∉ changes) : (scene.changeAll changes).DrawnLike key shape := by
  induction changes generalizing scene with
  | nil => exact drawn
  | cons change rest ih =>
    rw [List.mem_cons, not_or] at kept
    exact ih (drawn.change (Ne.symm kept.1)) kept.2

end DrawnLike

/-- Marks and layers stay in step. After every run of changes of a scene from its start, the members
of a layer are the objects whose marks are on it. So an object has a mark if and only if it is on
exactly one layer, the layers have as many members as there are marks, and an object appears on the
screen if and only if it has a mark. From then on, a mark keeps its layer and its colours through
all changes until it is taken away, whatever its kind is drawn like. -/
theorem marks_and_layers_in_step (shapes : ShapeBook α) (changes : List (Change α)) :
    let scene := (start shapes).changeAll changes
    (∀ id key, key ∈ (scene.layers.get id).members ↔
        ∃ mark, scene.mark? key = some mark ∧ mark.shape.layer = id) ∧
      (∀ key, (scene.mark? key).isSome ↔ ∃! id, key ∈ (scene.layers.get id).members) ∧
      (LayerId.all.map fun id => (scene.layers.get id).members.size).sum = scene.marks.size ∧
      (∀ key, (scene.screenPosition? key).isSome ↔ (scene.mark? key).isSome) ∧
      ∀ key mark later, scene.mark? key = some mark → .remove key ∉ later →
        (scene.changeAll later).DrawnLike key mark.shape := by
  intro scene
  have tidy : scene.Tidy := (Tidy.start shapes).changeAll changes
  refine ⟨tidy.mem_iff, ?_, tidy.sum_size_members, ?_, ?_⟩
  · intro key
    constructor
    · exact tidy.existsUnique_layer
    · rintro ⟨id, member, -⟩
      exact tidy.isSome_mark? member
  · intro key
    rw [screenPosition?, Option.isSome_map]
  · intro key mark later found kept
    have drawn : scene.DrawnLike key mark.shape := ⟨mark, found, rfl, rfl, rfl⟩
    exact drawn.changeAll kept

end Scene

end DeadReckoning
