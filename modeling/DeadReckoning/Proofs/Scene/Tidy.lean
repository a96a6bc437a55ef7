import DeadReckoning.Proofs.Scene.Parts

namespace DeadReckoning

/-!
# The scene — marks and layers agree

* `Scene.Tidy` — the members of a layer are the objects whose marks are on it, and all their kinds
  are in the book
* `Tidy.remove`, `Tidy.ensure`, `Tidy.place` and their runs — every change of the scene keeps it
* `mark?_removeAll`, `isSome_mark?_update` — which objects have marks afterwards
-/

variable {α : Type} {scene : Scene α}

namespace Scene

/-! ### Marks after a change -/

/-- The mark of one key is taken away, and the others stay. -/
theorem mark?_remove (scene : Scene α) (removed key : TrackKey) :
    (scene.remove removed).1.mark? key = if removed = key then none else scene.mark? key := by
  unfold remove
  cases found : scene.mark? removed with
  | none =>
    by_cases same : removed = key
    · rw [if_pos same, ← same]
      exact found
    · rw [if_neg same]
  | some mark =>
    show (scene.marks.erase removed)[key]? = _
    rw [Std.ExtTreeMap.getElem?_erase]
    simp only [Std.LawfulEqCmp.compare_eq_iff_eq]
    rfl

/-- The marks of some keys are taken away, and the others stay. -/
theorem mark?_removeAll (scene : Scene α) (keys : List TrackKey) (key : TrackKey) :
    (scene.removeAll keys).mark? key = if key ∈ keys then none else scene.mark? key := by
  induction keys generalizing scene with
  | nil => rfl
  | cons removed rest ih =>
    rw [removeAll, List.foldl_cons, ← removeAll, ih, mark?_remove]
    by_cases h : key = removed
    · simp [h]
    · simp [h, Ne.symm h]

section Frames

variable [Scalar α]

/-- The kind of a key is in the book. -/
def isDrawn (scene : Scene α) (key : TrackKey) : Bool := scene.shapes.isRegistered key.kind

omit [Scalar α] in
/-- An object that spawns a shape is of a kind in the book. -/
theorem isDrawn_of_spawn {track : Track α} {shape : Shape α}
    (spawned : scene.shapes.spawn track = some shape) : scene.isDrawn track.key := by
  obtain ⟨factory, found, _⟩ := Option.map_eq_some_iff.mp spawned
  show (scene.shapes.factory? track.key.kind).isSome
  rw [found]
  rfl

omit [Scalar α] in
/-- An object that spawns none is not. -/
theorem isDrawn_of_spawn_none {track : Track α} (unspawned : scene.shapes.spawn track = none) :
    scene.isDrawn track.key = false := by
  show (scene.shapes.factory? track.key.kind).isSome = false
  rw [Option.map_eq_none_iff.mp unspawned]
  rfl

/-- An object has a mark after its turn if it had one or its kind is in the book. -/
theorem isSome_mark?_ensure (scene : Scene α) (track : Track α) (key : TrackKey) :
    ((scene.ensure track).mark? key).isSome ↔
      (scene.mark? key).isSome ∨ track.key = key ∧ scene.isDrawn key := by
  unfold ensure
  cases found : scene.mark? track.key with
  | some mark =>
    constructor
    · exact .inl
    · rintro (marked | ⟨rfl, _⟩)
      · exact marked
      · exact Option.isSome_of_eq_some found
  | none =>
    cases spawned : scene.shapes.spawn track with
    | none =>
      have undrawn := isDrawn_of_spawn_none spawned
      constructor
      · exact .inl
      · rintro (marked | ⟨rfl, drawn⟩)
        · exact marked
        · rw [undrawn] at drawn
          cases drawn
    | some shape =>
      have drawn := isDrawn_of_spawn spawned
      -- a new mark, of a kind that is in the book
      show ((scene.marks.insert track.key _)[key]?).isSome ↔ _
      rw [Std.ExtTreeMap.getElem?_insert]
      simp only [Std.LawfulEqCmp.compare_eq_iff_eq]
      by_cases same : track.key = key
      · subst same
        simp [drawn]
      · simp [same, mark?]

/-- An object has a mark after it was placed if it had one, or if its kind is in the book. -/
theorem isSome_mark?_place (scene : Scene α) (time : Micros) (track : Track α) (key : TrackKey) :
    ((scene.place time track).1.mark? key).isSome ↔
      (scene.mark? key).isSome ∨ track.key = key ∧ scene.isDrawn key := by
  rw [← isSome_mark?_ensure]
  unfold place
  dsimp only
  cases found : (scene.ensure track).mark? track.key with
  | none => exact Iff.rfl
  | some mark =>
    -- the mark that was met is written back under its key
    show (((scene.ensure track).marks.insert track.key _)[key]?).isSome ↔ _
    rw [Std.ExtTreeMap.getElem?_insert]
    simp only [Std.LawfulEqCmp.compare_eq_iff_eq]
    by_cases same : track.key = key
    · subst same
      simp [found]
    · simp [same, mark?]

/-- The same for all objects that were placed one after the other. -/
theorem isSome_mark?_placeAll (scene : Scene α) (time : Micros) (tracks : List (Track α))
    (key : TrackKey) :
    ((scene.placeAll time tracks).1.mark? key).isSome ↔
      (scene.mark? key).isSome ∨ (∃ track ∈ tracks, track.key = key) ∧ scene.isDrawn key := by
  -- the book stays the same, so that a kind is drawn at every step or at none
  induction tracks generalizing scene with
  | nil => simp [placeAll]
  | cons track rest ih =>
    have shapes : (scene.place time track).1.isDrawn key = scene.isDrawn key := by
      rw [isDrawn, isDrawn, (scene.sameSurface_place time track).shapes]
    have unfolded : (scene.placeAll time (track :: rest)).1 =
        ((scene.place time track).1.placeAll time rest).1 := rfl
    rw [unfolded, ih, isSome_mark?_place, shapes]
    simp only [List.mem_cons, exists_eq_or_imp]
    rw [or_assoc, ← or_and_right]

/-- After a frame the objects with marks are those that had one, and the tracks that are drawn. -/
theorem isSome_mark?_update (scene : Scene α) (catalog : Catalog α) (time : Micros)
    (key : TrackKey) :
    ((scene.update catalog time).1.mark? key).isSome ↔ (scene.mark? key).isSome ∨
      (∃ track ∈ catalog.tracks, track.key = key) ∧ scene.isDrawn key :=
  scene.isSome_mark?_placeAll time _ key

end Frames

/-! ### Marks and layers -/

/-- The members of a layer are the objects whose marks are on it; the kinds of all objects with
marks are in the book. -/
structure Tidy (scene : Scene α) : Prop where
  mem_iff (id : LayerId) (key : TrackKey) : key ∈ scene.members id ↔
    ∃ mark, scene.mark? key = some mark ∧ mark.shape.layer = id
  drawn (key : TrackKey) : (scene.mark? key).isSome → scene.isDrawn key

namespace Tidy

/-- An object without a mark is on no layer. -/
theorem not_mem (tidy : scene.Tidy) {key : TrackKey} (unmarked : scene.mark? key = none)
    (id : LayerId) : key ∉ scene.members id := by
  intro member
  obtain ⟨mark, found, _⟩ := (tidy.mem_iff id key).mp member
  rw [unmarked] at found
  cases found

/-- Scenes that differ in poses and texts only are both tidy or both not. -/
theorem of_sameDrawing {s t : Scene α} (tidy : t.Tidy) (same : SameDrawing s t) : s.Tidy where
  mem_iff id key := by
    rw [same.members, same.mark?]
    exact tidy.mem_iff id key
  drawn key := by
    rw [same.mark?, isDrawn, same.shapes]
    exact tidy.drawn key

/-- A tidy scene stays so when a mark is taken away: its key leaves the layer that it was in. -/
protected theorem remove (tidy : scene.Tidy) (removed : TrackKey) :
    (scene.remove removed).1.Tidy where
  mem_iff id key := by
    rw [mark?_remove]
    unfold remove
    cases found : scene.mark? removed with
    | none =>
      by_cases same : removed = key
      · rw [if_pos same, ← same]
        simp [tidy.not_mem found]
      · rw [if_neg same]
        exact tidy.mem_iff id key
    | some mark =>
      show key ∈ ((scene.layers.modify _ (Layer.dropMember removed)).get id).members ↔ _
      rw [members_dropMember]
      by_cases same : removed = key
      · -- the mark stood on one layer only, and that is where the member is dropped
        subst same
        rw [if_pos rfl]
        split
        · simp [Std.ExtTreeSet.mem_erase]
        · rename_i other
          have layer := tidy.mem_iff id removed
          rw [found] at layer
          simp only [members, Option.some.injEq, exists_eq_left'] at layer
          simp [layer, Ne.symm other]
      · rw [if_neg same, ← tidy.mem_iff]
        split
        · simp [Std.ExtTreeSet.mem_erase, Std.LawfulEqCmp.compare_eq_iff_eq, same, members]
        · rfl
  drawn key := by
    rw [mark?_remove, isDrawn, (scene.sameSurface_remove removed).shapes]
    split
    · simp
    · exact tidy.drawn key

/-- The same for several marks. -/
protected theorem removeAll (tidy : scene.Tidy) (keys : List TrackKey) :
    (scene.removeAll keys).Tidy := by
  induction keys generalizing scene with
  | nil => exact tidy
  | cons key rest ih => exact ih (tidy.remove key)

variable [Scalar α]

/-- There are neither marks nor members at the start. -/
theorem start (shapes : ShapeBook α) : (Scene.start shapes).Tidy where
  mem_iff id key := by
    have unmarked : (Scene.start shapes).mark? key = none := Std.ExtTreeMap.getElem?_empty
    rw [unmarked]
    cases id <;> simp [Scene.start, members, Layers.get, Layer.blank]
  drawn key marked := by
    have unmarked : (Scene.start shapes).mark? key = none := Std.ExtTreeMap.getElem?_empty
    rw [unmarked] at marked
    cases marked

/-- A tidy scene stays so when a mark is made: its key goes into the layer of the mark and no
other. -/
protected theorem ensure (tidy : scene.Tidy) (track : Track α) : (scene.ensure track).Tidy where
  mem_iff id key := by
    unfold ensure
    cases found : scene.mark? track.key with
    | some mark => exact tidy.mem_iff id key
    | none =>
      cases spawned : scene.shapes.spawn track with
      | none => exact tidy.mem_iff id key
      | some shape =>
        show key ∈ ((scene.layers.modify _ (Layer.addMember track.key)).get id).members ↔
          ∃ mark, (scene.marks.insert track.key _)[key]? = some mark ∧ _
        rw [members_addMember, Std.ExtTreeMap.getElem?_insert]
        simp only [Std.LawfulEqCmp.compare_eq_iff_eq]
        -- an object without a mark was on no layer, so that it comes onto one only
        have before := tidy.mem_iff id key
        by_cases same : track.key = key
        · subst same
          have absent := tidy.not_mem found id
          rw [if_pos rfl]
          split
          · simp [Std.ExtTreeSet.mem_insert, Mark.ofShape, *]
          · rename_i other
            simp only [members] at absent
            simp [absent, Mark.ofShape, Ne.symm other]
        · rw [if_neg same]
          refine Iff.trans ?_ before
          split
          · simp [Std.ExtTreeSet.mem_insert, Std.LawfulEqCmp.compare_eq_iff_eq, same, members]
          · rfl
  drawn key marked := by
    rw [isSome_mark?_ensure] at marked
    rw [isDrawn, (scene.sameSurface_ensure track).shapes, ← isDrawn]
    rcases marked with marked | ⟨_, drawn⟩
    · exact tidy.drawn key marked
    · exact drawn

/-- A mark that follows its object stays on its layer. -/
protected theorem place (tidy : scene.Tidy) (time : Micros) (track : Track α) :
    (scene.place time track).1.Tidy where
  mem_iff id key := by
    have met := tidy.ensure track
    unfold Scene.place
    dsimp only
    cases found : (scene.ensure track).mark? track.key with
    | none => exact met.mem_iff id key
    | some mark =>
      -- the members stay, and the moved mark has the shape that it had
      show key ∈ (scene.ensure track).members id ↔
        ∃ mark, ((scene.ensure track).marks.insert track.key _)[key]? = some mark ∧ _
      rw [Std.ExtTreeMap.getElem?_insert, met.mem_iff]
      simp only [Std.LawfulEqCmp.compare_eq_iff_eq]
      by_cases same : track.key = key
      · subst same
        rw [if_pos rfl, found]
        simp [Mark.follow]
      · rw [if_neg same]
        rfl
  drawn key marked := by
    rw [isSome_mark?_place] at marked
    rw [isDrawn, (scene.sameSurface_place time track).shapes, ← isDrawn]
    rcases marked with marked | ⟨_, drawn⟩
    · exact tidy.drawn key marked
    · exact drawn

/-- A tidy scene stays so when objects are placed. -/
protected theorem placeAll (tidy : scene.Tidy) (time : Micros) (tracks : List (Track α)) :
    (scene.placeAll time tracks).1.Tidy := by
  induction tracks generalizing scene with
  | nil => exact tidy
  | cons track rest ih => exact ih (tidy.place time track)

protected theorem update (tidy : scene.Tidy) (catalog : Catalog α) (time : Micros) :
    (scene.update catalog time).1.Tidy := tidy.placeAll time _

end Tidy

end Scene

end DeadReckoning
