import DeadReckoning.Proofs.Catalog.Silence
import DeadReckoning.Proofs.Scene.Tidy

namespace DeadReckoning

/-!
# The scene — what a frame makes of each mark

In a frame the tracks take turns. A turn bears on the mark of its own object only, and what it makes
of that mark depends on what there was before the frame, because each object has one turn. So it
does not matter in which order the turns are taken.

* `Scene.shown?` — the mark of an object after its turn
* `mark?_place`, `place_snd` — one turn, in terms of it
* `mark?_placeAll_of_mem`, `mark?_placeAll_of_not_mem`, `placeAll_snd` — the turns of a frame
* `mark?_update`, `mark?_update_of_untracked`, `update_snd` — a frame, in terms of its catalog
* `Tidy.ext` — tidy scenes are told apart by their marks and by what frames leave alone
* `Tidy.placeAll_of_perm`, `Tidy.removeAll_of_perm` — turns, and dropped objects, in any order
-/

variable {α : Type} {scene : Scene α}

namespace Scene

section Frames

variable [Scalar α]

/-! ### One turn -/

/-- The mark of an object after its turn: the one that it has, or else a new one if its kind is in
the book, put in place. -/
def shown? (scene : Scene α) (time : Micros) (track : Track α) : Option (Mark α) :=
  ((scene.mark? track.key).or ((scene.shapes.spawn track).map (Mark.ofShape · track))).map
    (·.follow track time)

/-- Ensuring a mark makes one only for its own key, and only if there is none and a shape for it. -/
theorem mark?_ensure (scene : Scene α) (track : Track α) (key : TrackKey) :
    (scene.ensure track).mark? key =
      if track.key = key then
        (scene.mark? track.key).or ((scene.shapes.spawn track).map (Mark.ofShape · track))
      else scene.mark? key := by
  unfold ensure
  by_cases own : track.key = key
  · subst own
    rw [if_pos rfl]
    -- a mark that is there stays, and a new one needs a shape
    cases found : scene.mark? track.key with
    | some mark => exact found
    | none =>
      cases scene.shapes.spawn track with
      | none => exact found
      | some shape => exact Std.ExtTreeMap.getElem?_insert_self
  · rw [if_neg own]
    cases scene.mark? track.key with
    | some mark => rfl
    | none =>
      cases scene.shapes.spawn track with
      | none => rfl
      | some shape =>
        show (scene.marks.insert track.key _)[key]? = _
        rw [Std.ExtTreeMap.getElem?_insert, if_neg (by simpa using own)]
        rfl

/-- A turn bears on the mark of its own object only. -/
theorem mark?_place (scene : Scene α) (time : Micros) (track : Track α) (key : TrackKey) :
    (scene.place time track).1.mark? key =
      if track.key = key then scene.shown? time track else scene.mark? key := by
  have own := scene.mark?_ensure track track.key
  have met := scene.mark?_ensure track key
  rw [if_pos rfl] at own
  unfold place shown?
  dsimp only
  rw [← own]
  -- the mark follows its object if there is one after the object was ensured
  cases found : (scene.ensure track).mark? track.key with
  | none =>
    by_cases same : track.key = key
    · rw [if_pos same, ← same]
      exact found
    · rw [if_neg same] at met ⊢
      exact met
  | some mark =>
    show ((scene.ensure track).marks.insert track.key _)[key]? = _
    rw [Std.ExtTreeMap.getElem?_insert]
    by_cases same : track.key = key
    · rw [if_pos (by simpa using same), if_pos same]
      rfl
    · rw [if_neg same] at met ⊢
      rw [if_neg (by simpa using same)]
      exact met

/-- An object is counted if it has a mark after its turn. -/
theorem place_snd (scene : Scene α) (time : Micros) (track : Track α) :
    (scene.place time track).2 = (scene.shown? time track).isSome := by
  have own := scene.mark?_ensure track track.key
  rw [if_pos rfl] at own
  unfold place shown?
  dsimp only
  rw [← own]
  cases (scene.ensure track).mark? track.key with
  | none => rfl
  | some mark => rfl

/-- The turn of another object makes no difference. -/
theorem shown?_place (scene : Scene α) (time : Micros) {track other : Track α}
    (different : track.key ≠ other.key) :
    (scene.place time track).1.shown? time other = scene.shown? time other := by
  rw [shown?, shown?, mark?_place, if_neg different, (scene.sameSurface_place time track).shapes]

/-! ### The turns of a frame -/

/-- Tracks are placed one after the other, and those that are shown are counted. -/
theorem placeAll_cons (scene : Scene α) (time : Micros) (track : Track α) (rest : List (Track α)) :
    scene.placeAll time (track :: rest) =
      (((scene.place time track).1.placeAll time rest).1,
        if (scene.place time track).2 then ((scene.place time track).1.placeAll time rest).2 + 1
        else ((scene.place time track).1.placeAll time rest).2) := rfl

/-- An object without a turn keeps its mark. -/
theorem mark?_placeAll_of_not_mem (scene : Scene α) (time : Micros) {tracks : List (Track α)}
    {key : TrackKey} (waits : key ∉ tracks.map (·.key)) :
    (scene.placeAll time tracks).1.mark? key = scene.mark? key := by
  induction tracks generalizing scene with
  | nil => rfl
  | cons track rest ih =>
    rw [List.map_cons, List.mem_cons, not_or] at waits
    rw [placeAll_cons, ih _ waits.2, mark?_place, if_neg (Ne.symm waits.1)]

omit [Scalar α] in
theorem key_ne_of_mem {first track : Track α} {rest : List (Track α)}
    (alone : first.key ∉ rest.map (·.key)) (later : track ∈ rest) : first.key ≠ track.key :=
  fun same => alone (List.mem_map.mpr ⟨track, later, same.symm⟩)

/-- If all objects are different, each has the mark that its turn makes of what there was before the
frame. -/
theorem mark?_placeAll_of_mem (scene : Scene α) (time : Micros) {tracks : List (Track α)}
    (different : (tracks.map (·.key)).Nodup) {track : Track α} (mem : track ∈ tracks) :
    (scene.placeAll time tracks).1.mark? track.key = scene.shown? time track := by
  induction tracks generalizing scene with
  | nil => cases mem
  | cons first rest ih =>
    rw [List.map_cons, List.nodup_cons] at different
    rw [placeAll_cons]
    rcases List.mem_cons.mp mem with rfl | later
    · rw [mark?_placeAll_of_not_mem _ time different.1, mark?_place, if_pos rfl]
    · rw [ih _ different.2 later, scene.shown?_place time (key_ne_of_mem different.1 later)]

/-- As many marks are counted as there are tracks that are shown. -/
theorem placeAll_snd (scene : Scene α) (time : Micros) {tracks : List (Track α)}
    (different : (tracks.map (·.key)).Nodup) :
    (scene.placeAll time tracks).2 =
      tracks.countP fun track => (scene.shown? time track).isSome := by
  induction tracks generalizing scene with
  | nil => rfl
  | cons first rest ih =>
    rw [List.map_cons, List.nodup_cons] at different
    -- the first turn does not change what later ones show, since their keys are others
    have others : ((scene.place time first).1.placeAll time rest).2 =
        rest.countP fun track => (scene.shown? time track).isSome := by
      rw [ih _ different.2]
      refine List.countP_congr fun track mem => ?_
      rw [scene.shown?_place time (key_ne_of_mem different.1 mem)]
    rw [placeAll_cons, List.countP_cons, ← others, ← place_snd]
    dsimp only
    split
    · rfl
    · rfl

/-! ### The frame of a catalog -/

variable {catalog : Catalog α} {key : TrackKey}

/-- A tracked object has the mark that its turn makes of what there was before the frame. -/
theorem mark?_update (keyed : catalog.Keyed) (scene : Scene α) (time : Micros) {track : Track α}
    (tracked : catalog.get? key = some track) :
    (scene.update catalog time).1.mark? key = scene.shown? time track := by
  obtain rfl := keyed key track tracked
  exact scene.mark?_placeAll_of_mem time keyed.nodup_tracks
    ((catalog.mem_tracks track).mpr ⟨_, tracked⟩)

/-- An object that is not tracked keeps its mark. -/
theorem mark?_update_of_untracked (keyed : catalog.Keyed) (scene : Scene α) (time : Micros)
    (untracked : catalog.get? key = none) :
    (scene.update catalog time).1.mark? key = scene.mark? key := by
  refine scene.mark?_placeAll_of_not_mem time fun listed => ?_
  obtain ⟨track, mem, same⟩ := List.mem_map.mp listed
  have tracked := (keyed.isSome_get? key).mpr ⟨track, mem, same⟩
  rw [untracked] at tracked
  cases tracked

/-- A frame counts the tracks whose objects have marks after their turns. -/
theorem update_snd (keyed : catalog.Keyed) (scene : Scene α) (time : Micros) :
    (scene.update catalog time).2 =
      catalog.tracks.countP fun track => (scene.shown? time track).isSome :=
  scene.placeAll_snd time keyed.nodup_tracks

end Frames

/-! ### Turns in any order -/

/-- Tidy scenes are told apart by their marks and by what frames leave alone. -/
theorem Tidy.ext {s t : Scene α} (tidy : s.Tidy) (other : t.Tidy)
    (marks : ∀ key, s.mark? key = t.mark? key) (surface : SameSurface s t) : s = t := by
  refine ext_parts (Std.ExtTreeMap.ext_getElem? marks) ?_ surface.poses surface.texts surface.shapes
  funext id
  refine Std.ExtTreeSet.ext_mem fun key => ?_
  rw [tidy.mem_iff, other.mem_iff, marks]

namespace Tidy

variable (tidy : scene.Tidy)

include tidy

/-- Objects may be dropped in any order. -/
theorem removeAll_of_perm {keys others : List TrackKey} (perm : keys.Perm others) :
    scene.removeAll keys = scene.removeAll others := by
  refine (tidy.removeAll keys).ext (tidy.removeAll others) (fun key => ?_) ?_
  · simp only [mark?_removeAll, perm.mem_iff]
  · exact (scene.sameSurface_removeAll keys).trans (scene.sameSurface_removeAll others).symm

/-- The turns of a frame may be taken in any order. -/
theorem placeAll_of_perm [Scalar α] (time : Micros) {tracks others : List (Track α)}
    (different : (tracks.map (·.key)).Nodup) (perm : tracks.Perm others) :
    scene.placeAll time tracks = scene.placeAll time others := by
  have keys := perm.map (·.key)
  have different' : (others.map (·.key)).Nodup := keys.nodup_iff.mp different
  have placed := tidy.placeAll time tracks
  -- a tidy scene is known by its marks and what else a frame leaves alone
  refine Prod.ext (placed.ext (tidy.placeAll time others) (fun key => ?_) ?_) ?_
  · by_cases turn : key ∈ tracks.map (·.key)
    · obtain ⟨track, mem, rfl⟩ := List.mem_map.mp turn
      rw [mark?_placeAll_of_mem _ time different mem,
        mark?_placeAll_of_mem _ time different' (perm.mem_iff.mp mem)]
    · rw [mark?_placeAll_of_not_mem _ time turn,
        mark?_placeAll_of_not_mem _ time (mt keys.mem_iff.mpr turn)]
  · exact (scene.sameSurface_placeAll time tracks).trans
      (scene.sameSurface_placeAll time others).symm
  · rw [placeAll_snd _ time different, placeAll_snd _ time different', perm.countP_eq]

end Tidy

end Scene

end DeadReckoning
