import DeadReckoning.Proofs.Catalog.Keyed
import DeadReckoning.Proofs.Scene.Tidy
import DeadReckoning.Proofs.Session.Independence

namespace DeadReckoning

/-!
# The session — what is drawn and what is tracked agree

Tracks, marks and members of layers are kept in three places. Batches make tracks and drop them,
frames make marks for tracks. No order of events leaves a mark or a member of a layer without its
track.

* `Session.Consistent` — what holds of the three places at all times
* `Consistent.step`, `Consistent.run` — one event and a run of them keep it
* `Session.Forgotten` — an object that is in none of the places
* `scene_follows_catalog` — all of it for a session from its start
-/

namespace Session

variable {α : Type}

/-- What holds at all times of a session that was started with a book of shapes. -/
structure Consistent (shapes : ShapeBook α) (session : Session α) : Prop where
  keyed : session.catalog.Keyed
  tidy : session.scene.Tidy
  shapes : session.scene.shapes = shapes
  tracked (key : TrackKey) :
    (session.scene.mark? key).isSome → (session.catalog.get? key).isSome

/-- An object that is not tracked, has no mark and is on no layer. -/
structure Forgotten (session : Session α) (key : TrackKey) : Prop where
  untracked : session.catalog.get? key = none
  unmarked : session.scene.mark? key = none
  not_mem (id : LayerId) : key ∉ (session.scene.layers.get id).members

variable [Scalar α] {shapes : ShapeBook α} {session : Session α}

namespace Consistent

/-- A session is consistent at the start, when nothing is tracked or drawn. -/
theorem start (settings : Settings α) (shapes : ShapeBook α) :
    (Session.start settings shapes).Consistent shapes where
  keyed := Catalog.keyed_empty
  tidy := (Scene.Tidy.start shapes).of_sameDrawing (Scene.sameDrawing_setOverlay _ _)
  shapes := rfl
  tracked key marked := by
    have unmarked : (Session.start settings shapes).scene.mark? key = none :=
      Std.ExtTreeMap.getElem?_empty
    rw [unmarked] at marked
    cases marked

/-! ### Batches -/

/-- Sightings add tracks and take none away. -/
theorem observeAll (consistent : session.Consistent shapes) (clock : ServerClock) (time : Micros)
    (sightings : List (Sighting α)) :
    { session with catalog := (session.catalog.observeAll time sightings).1, clock }.Consistent
      shapes where
  keyed := consistent.keyed.observeAll time sightings
  tidy := consistent.tidy
  shapes := consistent.shapes
  tracked key marked :=
    consistent.keyed.isSome_observeAll time sightings (consistent.tracked key marked)

omit [Scalar α] in
/-- Objects are dropped from all places at once. -/
protected theorem evict (consistent : session.Consistent shapes) (cutoff : Micros) :
    (session.evict cutoff).1.Consistent shapes where
  keyed := consistent.keyed.expire cutoff
  tidy := consistent.tidy.removeAll _
  shapes := (session.scene.sameSurface_removeAll _).shapes.trans consistent.shapes
  tracked key marked := by
    have marked : ((session.scene.removeAll (session.catalog.expire cutoff).2).mark? key).isSome :=
      marked
    show ((session.catalog.eraseAll (session.catalog.expire cutoff).2).get? key).isSome
    -- marks and tracks are dropped for the same keys
    rw [Scene.mark?_removeAll] at marked
    rw [Catalog.get?_eraseAll]
    split at marked
    · cases marked
    · rename_i kept
      rw [if_neg kept]
      exact consistent.tracked key marked

omit [Scalar α] in
/-- Nothing is left of the objects that are dropped. -/
theorem forgotten_of_evict (consistent : session.Consistent shapes) (cutoff : Micros)
    {key : TrackKey} (expired : key ∈ (session.evict cutoff).2) :
    (session.evict cutoff).1.Forgotten key := by
  have expired : key ∈ (session.catalog.expire cutoff).2 := expired
  have unmarked : (session.evict cutoff).1.scene.mark? key = none := by
    show (session.scene.removeAll (session.catalog.expire cutoff).2).mark? key = none
    rw [Scene.mark?_removeAll, if_pos expired]
  refine ⟨?_, unmarked, (consistent.evict cutoff).tidy.not_mem unmarked⟩
  show (session.catalog.eraseAll (session.catalog.expire cutoff).2).get? key = none
  rw [Catalog.get?_eraseAll, if_pos expired]

/-- A batch keeps the places in step, and nothing is left of the objects that it says it dropped. -/
protected theorem ingest (consistent : session.Consistent shapes) (batch : Batch α)
    (receivedAt : Instant) :
    (session.ingest batch receivedAt).1.Consistent shapes ∧
      ∀ key ∈ (session.ingest batch receivedAt).2.expired,
        (session.ingest batch receivedAt).1.Forgotten key := by
  -- the sightings come first, what has expired is dropped from what they leave
  have entered := consistent.observeAll (session.clock.pin batch.serverTime receivedAt)
    batch.serverTime batch.sightings
  unfold Session.ingest
  dsimp only
  cases session.settings.retentionMicros with
  | none =>
    refine ⟨entered, ?_⟩
    intro key expired
    cases expired
  | some span =>
    refine ⟨entered.evict _, ?_⟩
    intro key expired
    exact entered.forgotten_of_evict _ expired

/-! ### Frames and the rest -/

/-- A frame makes marks for tracks only. -/
protected theorem tick (consistent : session.Consistent shapes) (instant : Instant) :
    (session.tick instant).1.Consistent shapes where
  keyed := consistent.keyed
  tidy := consistent.tidy.update session.catalog _
  shapes := (session.scene.sameSurface_update session.catalog _).shapes.trans consistent.shapes
  tracked key marked := by
    have marked := (session.scene.isSome_mark?_update session.catalog _ key).mp marked
    show (session.catalog.get? key).isSome
    -- a mark that is new was made for a track that is listed
    rcases marked with marked | ⟨listed, _⟩
    · exact consistent.tracked key marked
    · exact (consistent.keyed.isSome_get? key).mpr listed

/-- After a frame the objects with marks are the tracks whose kinds are in the book. -/
theorem isSome_mark?_tick (consistent : session.Consistent shapes) (instant : Instant)
    (key : TrackKey) :
    ((session.tick instant).1.scene.mark? key).isSome ↔
      ((session.tick instant).1.catalog.get? key).isSome ∧ shapes.isRegistered key.kind := by
  have book : session.scene.isDrawn key = shapes.isRegistered key.kind := by
    rw [Scene.isDrawn, consistent.shapes]
  refine (session.scene.isSome_mark?_update session.catalog _ key).trans ?_
  rw [← consistent.keyed.isSome_get?, book]
  constructor
  · rintro (marked | drawn)
    · refine ⟨consistent.tracked key marked, ?_⟩
      rw [← book]
      exact consistent.tidy.drawn key marked
    · exact drawn
  · exact .inr

omit [Scalar α] in
/-- What leaves tracks and drawing alone keeps the session consistent. -/
theorem of_sameDrawing {s t : Session α} (consistent : t.Consistent shapes)
    (catalog : s.catalog = t.catalog) (same : Scene.SameDrawing s.scene t.scene) :
    s.Consistent shapes where
  keyed := by
    rw [catalog]
    exact consistent.keyed
  tidy := consistent.tidy.of_sameDrawing same
  shapes := same.shapes.trans consistent.shapes
  tracked key := by
    rw [catalog, same.mark?]
    exact consistent.tracked key

/-! ### Events -/

/-- One event keeps tracks, marks and layers in step. -/
protected theorem step (consistent : session.Consistent shapes) (event : Event α) :
    (session.step event).1.Consistent shapes := by
  cases event with
  | message text receivedAt =>
    cases parsed : Batch.parse text with
    | error e =>
      rw [session.step_message_error parsed]
      exact consistent
    | ok batch =>
      rw [session.step_message_ok parsed]
      exact (consistent.ingest _ receivedAt).1
  | batch batch receivedAt => exact (consistent.ingest batch receivedAt).1
  | tick instant => exact consistent.tick instant
  | gesture g =>
    obtain ⟨tracked, _, drawing, _⟩ := session.gesture_frame g
    exact consistent.of_sameDrawing (congrArg Tracking.catalog tracked) drawing
  | link link => exact consistent.of_sameDrawing rfl (session.scene.sameDrawing_setOverlay _)

/-- Nothing is left of the objects that an event says it dropped. -/
theorem forgotten_of_step (consistent : session.Consistent shapes) (event : Event α)
    {receipt : Receipt} (answer : (session.step event).2 = .receipt receipt) {key : TrackKey}
    (expired : key ∈ receipt.expired) : (session.step event).1.Forgotten key := by
  cases event with
  | message text receivedAt =>
    cases parsed : Batch.parse text with
    | error e =>
      rw [session.step_message_error parsed] at answer
      cases answer
    | ok batch =>
      rw [session.step_message_ok parsed] at answer ⊢
      cases answer
      exact (consistent.ingest _ receivedAt).2 key expired
  | batch batch receivedAt =>
    cases answer
    exact (consistent.ingest batch receivedAt).2 key expired
  | tick instant => cases answer
  | gesture g => cases answer
  | link link => cases answer

/-- A session stays consistent through any run. -/
protected theorem run (consistent : session.Consistent shapes) (events : List (Event α)) :
    (session.run events).1.Consistent shapes := by
  induction events generalizing session with
  | nil => exact consistent
  | cons event rest ih => exact ih (consistent.step event)

end Consistent

/-- What is drawn follows what is tracked. After every run of a session from its start, tracks stand
under their own keys, and objects with marks or on layers are tracked and of a kind that is drawn.
Nothing is left of the objects that the next event drops, and the next frame gives marks to exactly
the tracked objects of the kinds that are drawn. -/
theorem scene_follows_catalog (settings : Settings α) (shapes : ShapeBook α)
    (events : List (Event α)) :
    let session := ((start settings shapes).run events).1
    (∀ key track, session.catalog.get? key = some track → track.key = key) ∧
      (∀ key, ((session.scene.mark? key).isSome ∨
          ∃ id, key ∈ (session.scene.layers.get id).members) →
        (session.catalog.get? key).isSome ∧ shapes.isRegistered key.kind) ∧
      (∀ event receipt, (session.step event).2 = .receipt receipt →
        ∀ key ∈ receipt.expired, (session.step event).1.Forgotten key) ∧
      ∀ instant key, ((session.step (.tick instant)).1.scene.mark? key).isSome ↔
        ((session.step (.tick instant)).1.catalog.get? key).isSome ∧
          shapes.isRegistered key.kind := by
  intro session
  have consistent : session.Consistent shapes := (Consistent.start settings shapes).run events
  refine ⟨consistent.keyed, ?_, ?_, consistent.isSome_mark?_tick⟩
  · intro key present
    have marked : (session.scene.mark? key).isSome := by
      rcases present with marked | ⟨id, member⟩
      · exact marked
      · obtain ⟨mark, found, _⟩ := (consistent.tidy.mem_iff id key).mp member
        exact Option.isSome_of_eq_some found
    refine ⟨consistent.tracked key marked, ?_⟩
    rw [← consistent.shapes]
    exact consistent.tidy.drawn key marked
  · intro event receipt answer key expired
    exact consistent.forgotten_of_step event answer expired

end Session

end DeadReckoning
