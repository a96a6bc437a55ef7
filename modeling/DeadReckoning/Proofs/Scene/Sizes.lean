import DeadReckoning.Proofs.Scene.LastFrame
import Mathlib.Data.List.Induction

namespace DeadReckoning

/-!
# The scene — whose size a mark has

The book says how an object is drawn when its mark is made: on which layer, in which colours, and
how large. Layer and colours stay. The size does not even last for the frame that makes the mark,
which puts the mark in place right away, in the size of the object. So it does not matter how large
the book would draw an object.

* `Scene.MadeAt` — the frame of a run that made a mark
* `exists_spawn_of_placeAll` — the marks that a frame makes have their style from the book
* `exists_madeAt` — so have all marks of a run, from the book as it was then
* `shapes_changeAll` — the book stays the same if nothing is entered
* `radius_update`, `isSizedByBook_update_iff` — whose sizes a frame gives to marks
* `size_is_of_object_style_of_book` — all of it for a scene from its start
* `halved_ship_is_drawn_whole` — a book that asks for another size in vain
-/

variable {α : Type}

/-- A shape is another one of its style, but for the size. -/
theorem Shape.SameStyle.eq_resized {s t : Shape α} (style : s.SameStyle t) :
    s = { t with radius := s.radius } := by
  obtain ⟨layer, radius, fill, stroke⟩ := s
  obtain ⟨rfl, rfl, rfl⟩ := style
  rfl

namespace Scene

/-- A way of drawing is entered into the book. -/
def Change.isRegistration : Change α → Bool
  | .register _ _ => true
  | _ => false

variable [Scalar α] {scene origin : Scene α} {changes before : List (Change α)} {change : Change α}
  {key : TrackKey} {track : Track α} {mark : Mark α}

/-! ### The book -/

/-- Only a registration changes the book of shapes. -/
theorem shapes_change (scene : Scene α) (kept : ¬change.isRegistration) :
    (scene.change change).shapes = scene.shapes := by
  cases change with
  | update catalog time => exact (scene.sameSurface_update catalog time).shapes
  | remove key => exact (scene.sameSurface_remove key).shapes
  | register kind factory => exact absurd rfl kept
  | push id changes => rfl
  | setOverlay text => rfl

/-- The book stays the same if nothing is entered. -/
theorem shapes_changeAll (scene : Scene α) (kept : ∀ change ∈ changes, ¬change.isRegistration) :
    (scene.changeAll changes).shapes = scene.shapes := by
  induction changes generalizing scene with
  | nil => rfl
  | cons change rest ih =>
    rw [List.forall_mem_cons] at kept
    exact (ih _ kept.2).trans (scene.shapes_change kept.1)

/-! ### Marks that a frame makes -/

/-- A mark that is made at a turn has its style from the book. -/
theorem exists_spawn_of_place {time : Micros} (unmarked : scene.mark? track.key = none)
    (found : (scene.place time track).1.mark? track.key = some mark) :
    ∃ shape, scene.shapes.spawn track = some shape ∧ mark.shape.SameStyle shape := by
  rw [mark?_place, if_pos rfl, shown?, unmarked, Option.none_or, Option.map_map] at found
  obtain ⟨shape, spawned, rfl⟩ := Option.map_eq_some_iff.mp found
  exact ⟨shape, spawned, rfl, rfl, rfl⟩

/-- A mark that is made in a frame has its style from the book. -/
theorem exists_spawn_of_placeAll {time : Micros} {tracks : List (Track α)}
    (unmarked : scene.mark? key = none)
    (found : (scene.placeAll time tracks).1.mark? key = some mark) :
    ∃ track ∈ tracks, track.key = key ∧
      ∃ shape, scene.shapes.spawn track = some shape ∧ mark.shape.SameStyle shape := by
  induction tracks generalizing scene with
  | nil =>
    have found : scene.mark? key = some mark := found
    rw [unmarked] at found
    cases found
  | cons first rest ih =>
    rw [placeAll_cons] at found
    cases turned : (scene.place time first).1.mark? key with
    | none =>
      obtain ⟨track, later, own, made⟩ := ih turned found
      rw [(scene.sameSurface_place time first).shapes] at made
      exact ⟨track, List.mem_cons_of_mem _ later, own, made⟩
    | some made =>
      -- it was the turn of the object itself, and the turns after it keep the style
      by_cases own : first.key = key
      · subst own
        obtain ⟨shape, spawned, style⟩ := exists_spawn_of_place unmarked turned
        have drawn : (scene.place time first).1.DrawnLike first.key shape := ⟨made, turned, style⟩
        obtain ⟨last, found_last, style⟩ := drawn.placeAll time rest
        rw [found, Option.some.injEq] at found_last
        exact ⟨first, List.mem_cons_self, rfl, shape, spawned, found_last ▸ style⟩
      · rw [mark?_place, if_neg own, unmarked] at turned
        cases turned

/-- Marks are made by frames only. -/
theorem exists_update_of_unmarked (unmarked : scene.mark? key = none)
    (found : (scene.change change).mark? key = some mark) :
    ∃ catalog time, change = .update catalog time := by
  -- changes that leave the mark alone do not make one
  have none_found {other : Scene α} (same : other.mark? key = scene.mark? key)
      (found : other.mark? key = some mark) : False := by
    rw [same, unmarked] at found
    cases found
  cases change with
  | update catalog time => exact ⟨catalog, time, rfl⟩
  | remove removed =>
    refine (none_found ?_ found).elim
    show (scene.remove removed).1.mark? key = _
    rw [mark?_remove, unmarked, ite_self]
  | register kind factory => exact (none_found rfl found).elim
  | push id changes =>
    exact (none_found ((scene.sameDrawing_push id changes).mark? key) found).elim
  | setOverlay text =>
    exact (none_found ((scene.sameDrawing_setOverlay text).mark? key) found).elim

/-! ### Marks of a run -/

/-- A frame of a run made the mark of an object. The changes `before` came before the frame, which
was of a catalog that had the track `track` of the object. The mark has been there ever since. -/
structure MadeAt (origin : Scene α) (changes : List (Change α)) (key : TrackKey)
    (before : List (Change α)) (track : Track α) : Prop where
  frame : ∃ catalog time, before ++ [.update catalog time] <+: changes ∧
    track ∈ catalog.tracks ∧ track.key = key
  unmarked : (origin.changeAll before).mark? key = none
  marked : ∀ since, since <+: changes → before.length < since.length →
    ((origin.changeAll since).mark? key).isSome

theorem changeAll_concat (scene : Scene α) (changes : List (Change α)) (change : Change α) :
    scene.changeAll (changes ++ [change]) = (scene.changeAll changes).change change :=
  List.foldl_concat ..

/-- A mark that is still there after one more change was made when it was. -/
theorem MadeAt.concat (made : origin.MadeAt changes key before track)
    (marked : ((origin.changeAll (changes ++ [change])).mark? key).isSome) :
    origin.MadeAt (changes ++ [change]) key before track where
  frame := by
    obtain ⟨catalog, time, first, tracked⟩ := made.frame
    exact ⟨catalog, time, first.trans (List.prefix_append changes [change]), tracked⟩
  unmarked := made.unmarked
  marked since front longer := by
    rcases List.prefix_concat_iff.mp front with rfl | front
    · exact marked
    · exact made.marked since front longer

/-- A mark of a run was made by one of its frames. It has its style from the book as it was then,
for the track that the object had then. -/
theorem exists_madeAt (blank : origin.mark? key = none)
    (found : (origin.changeAll changes).mark? key = some mark) :
    ∃ before track, origin.MadeAt changes key before track ∧
      ∃ shape, (origin.changeAll before).shapes.spawn track = some shape ∧
        mark.shape.SameStyle shape := by
  induction changes using List.reverseRecOn generalizing mark with
  | nil =>
    have found : origin.mark? key = some mark := found
    rw [blank] at found
    cases found
  | append_singleton changes change ih =>
    have marked := Option.isSome_of_eq_some found
    rw [changeAll_concat] at found
    cases earlier : (origin.changeAll changes).mark? key with
    | none =>
      -- the last change is the frame that made the mark
      obtain ⟨catalog, time, rfl⟩ := exists_update_of_unmarked earlier found
      obtain ⟨track, listed, own, made⟩ := exists_spawn_of_placeAll earlier found
      refine ⟨changes, track, ⟨⟨catalog, time, List.prefix_refl _, listed, own⟩, earlier, ?_⟩, made⟩
      intro since front longer
      rcases List.prefix_concat_iff.mp front with rfl | front
      · exact marked
      · exact absurd front.length_le (Nat.not_le.mpr longer)
    | some mark =>
      obtain ⟨before, track, made, shape, spawned, style⟩ := ih earlier
      have kept : change ≠ .remove key := by
        rintro rfl
        have gone := (origin.changeAll changes).mark?_remove key key
        rw [if_pos rfl] at gone
        exact absurd (gone.symm.trans found) nofun
      have drawn : (origin.changeAll changes).DrawnLike key shape := ⟨mark, earlier, style⟩
      obtain ⟨last, found_last, style⟩ := drawn.change kept
      rw [found, Option.some.injEq] at found_last
      exact ⟨before, track, made.concat marked, shape, spawned, found_last ▸ style⟩

/-- If nothing is entered into the book meanwhile, that is the book from before the run. -/
theorem exists_factory_of_marked (blank : origin.mark? key = none)
    (kept : ∀ change ∈ changes, ¬change.isRegistration)
    (found : (origin.changeAll changes).mark? key = some mark) :
    ∃ factory before born, origin.shapes.factory? key.kind = some factory ∧
      origin.MadeAt changes key before born ∧ mark.shape.SameStyle (factory born) := by
  obtain ⟨before, born, made, shape, spawned, style⟩ := exists_madeAt blank found
  obtain ⟨catalog, time, first, -, rfl⟩ := made.frame
  have front : before <+: changes := (List.prefix_append before _).trans first
  rw [origin.shapes_changeAll fun change mem => kept change (front.mem mem)] at spawned
  obtain ⟨factory, entered, rfl⟩ := Option.map_eq_some_iff.mp spawned
  exact ⟨factory, before, born, entered, made, style⟩

/-! ### Sizes -/

/-- The marks of all tracked objects have the sizes that the book gives for their tracks. -/
def IsSizedByBook (scene : Scene α) (catalog : Catalog α) : Prop :=
  ∀ key track mark shape, catalog.get? key = some track → scene.mark? key = some mark →
    scene.shapes.spawn track = some shape → mark.shape.radius = shape.radius

/-- A frame gives each mark of a tracked object the size of the object. -/
theorem radius_update {catalog : Catalog α} (keyed : catalog.Keyed) {time : Micros}
    (tracked : catalog.get? key = some track)
    (found : (scene.update catalog time).1.mark? key = some mark) :
    mark.shape.radius = track.radius := by
  rw [mark?_update keyed _ _ tracked] at found
  obtain ⟨earlier, -, rfl⟩ := Option.map_eq_some_iff.mp found
  rfl

/-- After a frame every track that is drawn has a mark. -/
theorem isSome_mark?_update_of_drawn {catalog : Catalog α} (keyed : catalog.Keyed) {time : Micros}
    (tracked : catalog.get? key = some track) (drawn : scene.isDrawn key) :
    ((scene.update catalog time).1.mark? key).isSome := by
  rw [isSome_mark?_update]
  exact .inr ⟨(keyed.isSome_get? key).mp (Option.isSome_of_eq_some tracked), drawn⟩

/-- The book has its say in sizes only where it gives objects their own. -/
theorem isSizedByBook_update_iff {catalog : Catalog α} (keyed : catalog.Keyed) (scene : Scene α)
    (time : Micros) :
    (scene.update catalog time).1.IsSizedByBook catalog ↔
      ∀ key track shape, catalog.get? key = some track → scene.shapes.spawn track = some shape →
        shape.radius = track.radius := by
  unfold IsSizedByBook
  rw [(scene.sameSurface_update catalog time).shapes]
  constructor
  · intro sized key track shape tracked spawned
    -- an object with a shape in the book has a mark after the frame, so that the book is put to the
    -- test
    have marked : ((scene.update catalog time).1.mark? key).isSome := by
      obtain rfl := keyed key track tracked
      exact isSome_mark?_update_of_drawn keyed tracked (isDrawn_of_spawn spawned)
    obtain ⟨mark, found⟩ := Option.isSome_iff_exists.mp marked
    rw [← sized key track mark shape tracked found spawned]
    exact radius_update keyed tracked found
  · intro own key track mark shape tracked found spawned
    rw [own key track shape tracked spawned]
    exact radius_update keyed tracked found

/-- Whose size and whose style a mark has. In a run of changes from a scene at its start, with
nothing entered into the book, each frame leaves marks for just those tracked objects whose kinds
are in the book. Such a mark has the layer and the colours that the book gave for the track that the
object had when the mark was made, and the size of the track that the object has at the frame. So
marks have the sizes that the book gives if and only if these are the sizes of the objects. -/
theorem size_is_of_object_style_of_book (shapes : ShapeBook α) {changes : List (Change α)}
    (kept : ∀ change ∈ changes, ¬change.isRegistration) (news : List (Catalog.Change α))
    (time : Micros) :
    let catalog := Catalog.empty.changeAll news
    let run := changes ++ [.update catalog time]
    let scene := (start shapes).changeAll run
    (∀ key track, catalog.get? key = some track →
      ((scene.mark? key).isSome ↔ shapes.isRegistered key.kind) ∧
      ∀ mark, scene.mark? key = some mark →
        ∃ factory before born, shapes.factory? key.kind = some factory ∧
          (start shapes).MadeAt run key before born ∧
          mark.shape = { factory born with radius := track.radius }) ∧
    (scene.IsSizedByBook catalog ↔
      ∀ key track shape, catalog.get? key = some track → shapes.spawn track = some shape →
        shape.radius = track.radius) := by
  intro catalog run scene
  have keyed : catalog.Keyed := Catalog.keyed_changeAll news
  -- the last frame decides on sizes, the frame that made a mark on its style
  have last : scene = (((start shapes).changeAll changes).update catalog time).1 :=
    changeAll_concat _ changes (.update catalog time)
  have book : ((start shapes).changeAll changes).shapes = shapes :=
    (start shapes).shapes_changeAll kept
  have kept_run : ∀ change ∈ run, ¬change.isRegistration := by
    rw [List.forall_mem_append, List.forall_mem_singleton]
    exact ⟨kept, Bool.false_ne_true⟩
  refine ⟨fun key track tracked => ⟨⟨?_, ?_⟩, ?_⟩, ?_⟩
  · intro marked
    obtain ⟨mark, found⟩ := Option.isSome_iff_exists.mp marked
    obtain ⟨factory, -, -, entered, -⟩ :=
      exists_factory_of_marked Std.ExtTreeMap.getElem?_empty kept_run found
    exact Option.isSome_of_eq_some entered
  · intro drawn
    rw [last]
    refine isSome_mark?_update_of_drawn keyed tracked ?_
    rw [isDrawn, book]
    exact drawn
  · intro mark found
    obtain ⟨factory, before, born, entered, made, style⟩ :=
      exists_factory_of_marked Std.ExtTreeMap.getElem?_empty kept_run found
    rw [last] at found
    refine ⟨factory, before, born, entered, made, ?_⟩
    rw [← radius_update keyed tracked found]
    exact style.eq_resized
  · rw [last, isSizedByBook_update_iff keyed, book]

/-- A ship is drawn, and before the next frame it is seen in another size. The book asks for half of
either. -/
theorem resized_ship_is_drawn_in_its_size :
    let half : ShapeFactory Float := fun track => ⟨.ships, track.radius / 2.0, "grey", "white"⟩
    let shapes := ShapeBook.standard.register .ship half
    let seen (radius : Option Float) : Sighting Float := ⟨.ship, 1, ⟨0.0, 0.0⟩, ⟨0.0, 0.0⟩, radius⟩
    let before := Catalog.empty.changeAll [.observe (seen none) 0]
    let changes : List (Change Float) := [.update before 0]
    let news : List (Catalog.Change Float) :=
      [.observe (seen none) 0, .observe (seen (some 30.0)) 1000000]
    let catalog := Catalog.empty.changeAll news
    let scene := (start shapes).changeAll (changes ++ [.update catalog 1000000])
    (∀ change ∈ changes, ¬change.isRegistration) ∧ (scene.mark? ⟨.ship, 1⟩).isSome ∧
      ∀ mark, scene.mark? ⟨.ship, 1⟩ = some mark →
        mark.shape = ⟨.ships, 30.0, "grey", "white"⟩ := by
  intro half shapes seen before changes news catalog scene
  have kept : ∀ change ∈ changes, ¬change.isRegistration := by simp [changes, Change.isRegistration]
  have tracked : catalog.get? ⟨.ship, 1⟩ =
      some ((Track.ofSighting (seen none) 0).advance (seen (some 30.0)) 1000000) := rfl
  obtain ⟨marked, shaped⟩ := (size_is_of_object_style_of_book shapes kept news _).1 _ _ tracked
  refine ⟨kept, marked.mpr rfl, fun mark found => ?_⟩
  obtain ⟨factory, -, born, entered, -, shape⟩ := shaped mark found
  obtain rfl : half = factory := Option.some.inj entered
  exact shape

/-- A ship of size 10, and a book that asks for half the size of ships: what is drawn has size 10
and not 5. -/
theorem halved_ship_is_drawn_whole :
    let half : ShapeFactory Float := fun track => ⟨.ships, track.radius / 2.0, "grey", "white"⟩
    let shapes := ShapeBook.standard.register .ship half
    let seen : Sighting Float := ⟨.ship, 1, ⟨0.0, 0.0⟩, ⟨0.0, 0.0⟩, none⟩
    let catalog := Catalog.empty.changeAll [.observe seen 0]
    let scene := ((start shapes).update catalog 0).1
    (((catalog.get? seen.key).bind scene.shapes.spawn).map (·.radius == 5.0) = some true ∧
        (scene.mark? seen.key).map (fun mark =>
          (mark.shape.radius == 10.0, mark.shape.radius == 5.0)) = some (true, false)) ∧
      ¬scene.IsSizedByBook catalog := by
  intro half shapes seen catalog scene
  have asked : ((catalog.get? seen.key).bind scene.shapes.spawn).map (·.radius == 5.0) =
      some true := by decide +kernel
  have drawn : (scene.mark? seen.key).map (fun mark =>
      (mark.shape.radius == 10.0, mark.shape.radius == 5.0)) = some (true, false) := by
    decide +kernel
  refine ⟨⟨asked, drawn⟩, fun sized => ?_⟩
  obtain ⟨shape, spawned, half_size⟩ := Option.map_eq_some_iff.mp asked
  obtain ⟨track, tracked, spawned⟩ := Option.bind_eq_some_iff.mp spawned
  obtain ⟨mark, found, sizes⟩ := Option.map_eq_some_iff.mp drawn
  rw [sized _ track mark shape tracked found spawned, half_size] at sizes
  cases (Prod.mk.inj sizes).2

end Scene

end DeadReckoning
