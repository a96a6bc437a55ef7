import DeadReckoning.Proofs.Scene.Upkeep

namespace DeadReckoning

/-!
# The scene — only the last frame counts

A frame makes the marks that are missing and puts every mark in place. The marks that it finds may
be those of an earlier frame of the same catalog, drawn at another time. These have the style and
the direction that the frame itself would have given them, and all else is written over.

* `Mark.follow_follow` — a mark forgets where it was put before
* `Scene.newShape?` — the shape of the mark that an object gets at its turn
* `mem_members_ensure`, `mem_members_update` — the members of a layer after a turn and a frame
* `shown?_update`, `newShape?_update` — what a frame leaves for another of the same catalog
* `update_update`, `update_changeAll` — two frames, and any number of them
* `only_last_frame_counts` — all of it, for every scene and every catalog that there can be
-/

variable {α : Type} {scene : Scene α} {catalog : Catalog α} {key : TrackKey} {track : Track α}

/-- A mark that follows its object again forgets where it was put before. -/
theorem Mark.follow_follow [Scalar α] (mark : Mark α) (track : Track α) (first last : Micros) :
    (mark.follow track first).follow track last = mark.follow track last := by
  unfold follow
  -- the direction is that of the track, or else the one before the first of the two
  cases track.heading? with
  | none => rfl
  | some heading => rfl

namespace Scene

/-! ### Members after a frame -/

/-- The shape of the mark that an object gets at its turn, if it has none and its kind is drawn. -/
def newShape? (scene : Scene α) (track : Track α) : Option (Shape α) :=
  match scene.mark? track.key with
  | some _ => none
  | none => scene.shapes.spawn track

variable [Scalar α]

/-- A mark is made of the new shape of a track, if it has one, and put into the layer of that
shape. -/
theorem ensure_eq (scene : Scene α) (track : Track α) :
    scene.ensure track =
      match scene.newShape? track with
      | none => scene
      | some shape =>
        { scene with
          marks := scene.marks.insert track.key (.ofShape shape track)
          layers := scene.layers.modify shape.layer (Layer.addMember track.key) } := by
  unfold ensure newShape?
  cases scene.mark? track.key with
  | some mark => rfl
  | none => rfl

/-- The members of a layer after a turn: those that it had, and the object if its mark is new. -/
theorem mem_members_ensure (scene : Scene α) (track : Track α) (id : LayerId) (key : TrackKey) :
    key ∈ (scene.ensure track).members id ↔
      key ∈ scene.members id ∨
        track.key = key ∧ (scene.newShape? track).map (·.layer) = some id := by
  rw [ensure_eq]
  cases scene.newShape? track with
  | none => simp
  | some shape =>
    show key ∈ ((scene.layers.modify _ (Layer.addMember track.key)).get id).members ↔ _
    rw [members_addMember, Option.map_some, Option.some.injEq]
    by_cases layer : id = shape.layer
    · simp [layer, members, Std.ExtTreeSet.mem_insert, or_comm]
    · simp [layer, Ne.symm layer, members]

/-- Putting a mark in place is no matter of layers. -/
theorem members_place (scene : Scene α) (time : Micros) (track : Track α) :
    (scene.place time track).1.members = (scene.ensure track).members := by
  unfold place
  dsimp only
  cases (scene.ensure track).mark? track.key with
  | none => rfl
  | some mark => rfl

/-- The turn of another object makes no difference. -/
theorem newShape?_place (scene : Scene α) (time : Micros) {other : Track α}
    (different : track.key ≠ other.key) :
    (scene.place time track).1.newShape? other = scene.newShape? other := by
  rw [newShape?, newShape?, mark?_place, if_neg different,
    (scene.sameSurface_place time track).shapes]

/-- If all objects are different, each comes onto the layer of its mark if that is new. -/
theorem mem_members_placeAll (scene : Scene α) (time : Micros) {tracks : List (Track α)}
    (different : (tracks.map (·.key)).Nodup) (id : LayerId) (key : TrackKey) :
    key ∈ (scene.placeAll time tracks).1.members id ↔
      key ∈ scene.members id ∨ ∃ track ∈ tracks,
        track.key = key ∧ (scene.newShape? track).map (·.layer) = some id := by
  induction tracks generalizing scene with
  | nil => simp [placeAll]
  | cons first rest ih =>
    rw [List.map_cons, List.nodup_cons] at different
    -- which shape is new for a later track is not changed by the first turn
    have turns : (∃ track ∈ rest, track.key = key ∧
          ((scene.place time first).1.newShape? track).map (·.layer) = some id) ↔
        ∃ track ∈ rest, track.key = key ∧ (scene.newShape? track).map (·.layer) = some id :=
      exists_congr fun track => and_congr_right fun later => by
        rw [scene.newShape?_place time (key_ne_of_mem different.1 later)]
    rw [placeAll_cons, ih _ different.2, turns, members_place, mem_members_ensure,
      List.exists_mem_cons_iff, or_assoc]

/-- A frame adds to a layer the marks that it makes there, and takes none away. -/
theorem mem_members_update (keyed : catalog.Keyed) (scene : Scene α) (time : Micros)
    (id : LayerId) (key : TrackKey) :
    key ∈ (scene.update catalog time).1.members id ↔
      key ∈ scene.members id ∨ ∃ track, catalog.get? key = some track ∧
        (scene.newShape? track).map (·.layer) = some id := by
  rw [update, mem_members_placeAll _ time keyed.nodup_tracks]
  refine or_congr_right (exists_congr fun track => ?_)
  rw [catalog.mem_tracks, ← and_assoc]
  refine and_congr_left fun _ => ⟨?_, fun tracked => ⟨⟨key, tracked⟩, keyed key track tracked⟩⟩
  rintro ⟨⟨other, tracked⟩, rfl⟩
  rwa [keyed other track tracked]

/-! ### What a frame leaves for another -/

/-- The turn of a tracked object comes to the same after a frame as before it. -/
theorem shown?_update (keyed : catalog.Keyed) (scene : Scene α) (first last : Micros)
    (tracked : catalog.get? key = some track) :
    (scene.update catalog first).1.shown? last track = scene.shown? last track := by
  obtain rfl := keyed key track tracked
  rw [shown?, scene.mark?_update keyed first tracked,
    (scene.sameSurface_update catalog first).shapes]
  unfold shown?
  cases scene.mark? track.key with
  | some mark => exact congrArg some (mark.follow_follow track first last)
  | none =>
    cases scene.shapes.spawn track with
    | some shape => exact congrArg some (Mark.follow_follow _ track first last)
    | none => rfl

/-- After a frame no tracked object is left to get a mark. -/
theorem newShape?_update (keyed : catalog.Keyed) (scene : Scene α) (time : Micros)
    (tracked : catalog.get? key = some track) :
    (scene.update catalog time).1.newShape? track = none := by
  obtain rfl := keyed key track tracked
  rw [newShape?, scene.mark?_update keyed time tracked,
    (scene.sameSurface_update catalog time).shapes]
  unfold shown?
  cases scene.mark? track.key with
  | some mark => rfl
  | none =>
    cases scene.shapes.spawn track with
    | some shape => rfl
    | none => rfl

/-- Of two frames only the last decides what a mark is. -/
theorem mark?_update_update (keyed : catalog.Keyed) (scene : Scene α) (first last : Micros)
    (key : TrackKey) :
    ((scene.update catalog first).1.update catalog last).1.mark? key =
      (scene.update catalog last).1.mark? key := by
  cases found : catalog.get? key with
  | some track =>
    rw [mark?_update keyed _ last found, mark?_update keyed _ last found,
      scene.shown?_update keyed first last found]
  | none =>
    rw [mark?_update_of_untracked keyed _ last found,
      mark?_update_of_untracked keyed _ first found, mark?_update_of_untracked keyed _ last found]

/-- Of two frames only the last decides what is in a layer. -/
theorem mem_members_update_update (keyed : catalog.Keyed) (scene : Scene α) (first last : Micros)
    (id : LayerId) (key : TrackKey) :
    key ∈ ((scene.update catalog first).1.update catalog last).1.members id ↔
      key ∈ (scene.update catalog last).1.members id := by
  -- the first frame brings all members that there are to come
  have settled : ¬∃ track, catalog.get? key = some track ∧
      ((scene.update catalog first).1.newShape? track).map (·.layer) = some id := by
    rintro ⟨track, tracked, joins⟩
    rw [scene.newShape?_update keyed first tracked] at joins
    cases joins
  rw [mem_members_update keyed, or_iff_left settled, mem_members_update keyed,
    mem_members_update keyed]

theorem update_update_snd (keyed : catalog.Keyed) (scene : Scene α) (first last : Micros) :
    ((scene.update catalog first).1.update catalog last).2 = (scene.update catalog last).2 := by
  rw [update_snd keyed, update_snd keyed]
  refine List.countP_congr fun track listed => ?_
  obtain ⟨key, tracked⟩ := (catalog.mem_tracks track).mp listed
  rw [scene.shown?_update keyed first last tracked]

/-- The second of two frames shows what it would have shown alone. -/
theorem update_update (keyed : catalog.Keyed) (scene : Scene α) (first last : Micros) :
    (scene.update catalog first).1.update catalog last = scene.update catalog last := by
  have surface : SameSurface ((scene.update catalog first).1.update catalog last).1
      (scene.update catalog last).1 :=
    ((sameSurface_update _ catalog last).trans (scene.sameSurface_update catalog first)).trans
      (scene.sameSurface_update catalog last).symm
  refine Prod.ext (ext_parts ?_ ?_ surface.poses surface.texts surface.shapes) ?_
  · exact Std.ExtTreeMap.ext_getElem? (scene.mark?_update_update keyed first last)
  · funext id
    exact Std.ExtTreeSet.ext_mem (scene.mem_members_update_update keyed first last id)
  · exact scene.update_update_snd keyed first last

/-- The last of several frames shows what it would have shown alone. -/
theorem update_changeAll (keyed : catalog.Keyed) (scene : Scene α) (earlier : List Micros)
    (last : Micros) :
    (scene.changeAll (earlier.map (.update catalog))).update catalog last =
      scene.update catalog last := by
  induction earlier generalizing scene with
  | nil => rfl
  | cons first rest ih => exact (ih _).trans (scene.update_update keyed first last)

/-- Only the last frame counts. Whatever there is in a scene, and whatever catalog there can be: a
frame of the catalog shows the same, and counts the same, with a frame of it at another time before
as without, and so it does with any number of them. What it shows of a tracked object is what the
turn of the object makes of the mark that there was; objects that are not tracked keep theirs. -/
theorem only_last_frame_counts (scene : Scene α) (changes : List (Catalog.Change α)) :
    let catalog := Catalog.empty.changeAll changes
    (∀ first last,
      (scene.update catalog first).1.update catalog last = scene.update catalog last) ∧
    (∀ (earlier : List Micros) last,
      (scene.changeAll (earlier.map (.update catalog))).update catalog last =
        scene.update catalog last) ∧
    (∀ time key track, catalog.get? key = some track →
      (scene.update catalog time).1.mark? key = scene.shown? time track) ∧
    ∀ time key, catalog.get? key = none →
      (scene.update catalog time).1.mark? key = scene.mark? key := by
  intro catalog
  have keyed : catalog.Keyed := Catalog.keyed_changeAll changes
  refine ⟨scene.update_update keyed, scene.update_changeAll keyed, ?_, ?_⟩
  · intro time key track tracked
    exact scene.mark?_update keyed time tracked
  · intro time key untracked
    exact scene.mark?_update_of_untracked keyed time untracked

end Scene

end DeadReckoning
