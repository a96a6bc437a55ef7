import DeadReckoning.Proofs.Scene.Frames
import DeadReckoning.Proofs.Session.Redelivery
import Mathlib.Data.List.Induction

namespace DeadReckoning

/-!
# The session — what a frame shows

A frame is drawn at the server time that the last batch and the local clock give. It puts the mark
of every object where the object is reckoned to be. The direction of a mark is remembered from frame
to frame, for objects that stand still: it is that of the last frame at which the object moved,
which may be many batches ago, but not from before its mark was made.

* `Track.Moves` — an object whose velocity is not zero; just these have a direction
* `Session.FrameSince` — a frame of a run, and the mark of an object has been there ever since
* `Session.HasBearing` — the direction of an object as those frames call for it
* `frameSince_append` — the frames of a run with one more event
* `hasBearing_run` — marks have the directions that are called for; `hasBearing_event` and
  `hasBearing_frame` are one event of a run
* `clock_run` — what the clock knows is the last batch of a run
* `frames_show_what_is_known` — all of it for a session from its start
-/

section Moves

variable {α : Type} [Scalar α]

/-- The velocity is not zero. -/
def Track.Moves (track : Track α) : Prop :=
  ¬(track.velocity.x == 0.0 && track.velocity.y == 0.0)

/-- What moves has a heading, and nothing else has. -/
theorem Track.isSome_heading? (track : Track α) : track.heading?.isSome ↔ track.Moves := by
  unfold Track.heading? Vec2.heading? Track.Moves
  split
  next still => exact iff_of_false Bool.false_ne_true (not_not_intro still)
  next moves => exact iff_of_true rfl moves

end Moves

namespace Session

variable {α : Type} [Scalar α]

/-! ### Frames that a mark remembers -/

/-- A frame of a run comes after the events `before`. An object had the track `track` then, and its
mark has been there ever since. -/
structure FrameSince (origin : Session α) (events : List (Event α)) (key : TrackKey)
    (before : List (Event α)) (track : Track α) : Prop where
  frame : ∃ instant, before ++ [.tick instant] <+: events
  tracked : (origin.run before).1.catalog.get? key = some track
  marked : ∀ since, since <+: events → before.length < since.length →
    ((origin.run since).1.scene.mark? key).isSome

/-- The direction of an object is that of the last frame since its mark was made at which it moved.
If it moved at none, it is zero. -/
def HasBearing (origin : Session α) (events : List (Event α)) (key : TrackKey) (bearing : α) :
    Prop :=
  (∃ before track, origin.FrameSince events key before track ∧
    track.Moves ∧ track.heading? = some bearing ∧
    ∀ later other, origin.FrameSince events key later other → before.length < later.length →
      ¬other.Moves) ∨
  (bearing = 0.0 ∧ ∀ before track, origin.FrameSince events key before track → ¬track.Moves)

/-- The direction of the mark of an object; zero without a mark. -/
def bearing (session : Session α) (key : TrackKey) : α :=
  ((session.scene.mark? key).map Mark.rotation).getD 0.0

variable {origin session : Session α} {events before : List (Event α)} {event : Event α}
  {key : TrackKey} {track : Track α} {shapes : ShapeBook α}

namespace FrameSince

/-- An object with such a frame has a mark. -/
theorem isSome_mark? (since : origin.FrameSince events key before track) :
    ((origin.run events).1.scene.mark? key).isSome := by
  obtain ⟨instant, frame⟩ := since.frame
  refine since.marked events (List.prefix_refl events) ?_
  have := frame.length_le
  rw [List.length_append, List.length_singleton] at this
  omega

/-- A frame is one of the events, so that fewer stand before it. -/
theorem length_lt (since : origin.FrameSince events key before track) :
    before.length < events.length := by
  obtain ⟨instant, frame⟩ := since.frame
  have := frame.length_le
  rw [List.length_append, List.length_singleton] at this
  omega

end FrameSince

/-- If an object has a mark after one more event, its frames are those it had, and that event if it
is a frame. -/
theorem frameSince_append (marked : ((origin.run (events ++ [event])).1.scene.mark? key).isSome) :
    origin.FrameSince (events ++ [event]) key before track ↔
      origin.FrameSince events key before track ∨
        before = events ∧ (∃ instant, event = .tick instant) ∧
          (origin.run events).1.catalog.get? key = some track := by
  constructor
  · -- a frame with the whole run up to it is the new event, any other was there before
    rintro ⟨⟨instant, frame⟩, tracked, since⟩
    rcases List.prefix_concat_iff.mp frame with last | earlier
    · obtain ⟨rfl, same⟩ := List.append_inj' last rfl
      exact .inr ⟨rfl, ⟨instant, (List.singleton_inj.mp same).symm⟩, tracked⟩
    · exact .inl ⟨⟨instant, earlier⟩, tracked,
        fun some front => since some (front.trans (List.prefix_append events [event]))⟩
  · rintro (⟨⟨instant, frame⟩, tracked, since⟩ | ⟨rfl, ⟨instant, rfl⟩, tracked⟩)
    · refine ⟨⟨instant, frame.trans (List.prefix_append events [event])⟩, tracked, ?_⟩
      intro some front longer
      rcases List.prefix_concat_iff.mp front with rfl | front
      · exact marked
      · exact since some front longer
    · refine ⟨⟨instant, List.prefix_refl _⟩, tracked, ?_⟩
      intro some front longer
      rcases List.prefix_concat_iff.mp front with rfl | front
      · exact marked
      · exact absurd front.length_le (not_le.mpr longer)

/-! ### Directions -/

/-- An object without a mark has no direction to remember. -/
theorem hasBearing_of_unmarked (unmarked : (origin.run events).1.scene.mark? key = none) :
    origin.HasBearing events key 0.0 := by
  refine .inr ⟨rfl, fun before track since => ?_⟩
  have marked := since.isSome_mark?
  rw [unmarked] at marked
  cases marked

/-- An event other than a frame makes no marks, and leaves those that stay as they are. -/
theorem mark?_step (session : Session α) (other : ∀ instant, event ≠ .tick instant)
    {mark : Mark α} (marked : (session.step event).1.scene.mark? key = some mark) :
    session.scene.mark? key = some mark := by
  have entered (batch : Batch α) (receivedAt : Instant)
      (marked : (session.ingest batch receivedAt).1.scene.mark? key = some mark) :
      session.scene.mark? key = some mark := by
    unfold Session.ingest at marked
    dsimp only at marked
    cases retention : session.settings.retentionMicros with
    | none =>
      rw [retention] at marked
      exact marked
    | some span =>
      rw [retention] at marked
      have marked := (session.scene.mark?_removeAll _ key).symm.trans marked
      split at marked
      · cases marked
      · exact marked
  cases event with
  | message text receivedAt =>
    cases parsed : Batch.parse text with
    | error e =>
      rw [session.step_message_error parsed] at marked
      exact marked
    | ok batch =>
      rw [session.step_message_ok parsed] at marked
      exact entered _ receivedAt marked
  | batch batch receivedAt => exact entered batch receivedAt marked
  | tick instant => exact absurd rfl (other instant)
  | gesture g =>
    obtain ⟨-, -, drawing, -⟩ := session.gesture_frame g
    rw [← drawing.mark? key]
    exact marked
  | link link =>
    have drawing := session.scene.sameDrawing_setOverlay link.label
    exact (drawing.mark? key).symm.trans marked

/-- The mark of a tracked object after a frame. -/
theorem mark?_tick (consistent : session.Consistent shapes) (instant : Instant)
    (tracked : session.catalog.get? key = some track) :
    (session.tick instant).1.scene.mark? key =
      session.scene.shown? (session.clock.now instant) track :=
  session.scene.mark?_update consistent.keyed _ tracked

/-- At a frame an object that moves shows where it goes, any other what it showed before. -/
theorem bearing_tick (consistent : session.Consistent shapes) (instant : Instant)
    (tracked : session.catalog.get? key = some track)
    (marked : ((session.tick instant).1.scene.mark? key).isSome) :
    (session.tick instant).1.bearing key = track.heading?.getD (session.bearing key) := by
  obtain rfl := consistent.keyed key track tracked
  rw [mark?_tick consistent instant tracked] at marked
  unfold bearing
  rw [mark?_tick consistent instant tracked]
  unfold Scene.shown? at marked ⊢
  cases found : session.scene.mark? track.key with
  | some mark => rfl
  | none =>
    rw [found] at marked
    cases spawned : session.scene.shapes.spawn track with
    | some shape => rfl
    | none =>
      rw [spawned] at marked
      cases marked

/-- An event other than a frame leaves directions as they are called for. -/
theorem hasBearing_event (called : origin.HasBearing events key ((origin.run events).1.bearing key))
    (other : ∀ instant, event ≠ .tick instant) :
    origin.HasBearing (events ++ [event]) key ((origin.run (events ++ [event])).1.bearing key) := by
  cases marked : (origin.run (events ++ [event])).1.scene.mark? key with
  | none =>
    rw [bearing, marked]
    exact hasBearing_of_unmarked marked
  | some mark =>
    have before : (origin.run events).1.scene.mark? key = some mark := by
      rw [run_snoc] at marked
      exact mark?_step _ other marked
    have same :
        (origin.run (events ++ [event])).1.bearing key = (origin.run events).1.bearing key := by
      rw [bearing, bearing, marked, before]
    have frames (before : List (Event α)) (track : Track α) :
        origin.FrameSince (events ++ [event]) key before track ↔
          origin.FrameSince events key before track := by
      rw [frameSince_append (Option.isSome_of_eq_some marked)]
      refine or_iff_left ?_
      rintro ⟨-, ⟨instant, isTick⟩, -⟩
      exact other instant isTick
    rw [same]
    unfold HasBearing
    simp only [frames]
    exact called

/-- A frame leaves directions as they are called for. -/
theorem hasBearing_frame (consistent : (origin.run events).1.Consistent shapes)
    (called : origin.HasBearing events key ((origin.run events).1.bearing key))
    (instant : Instant) :
    origin.HasBearing (events ++ [.tick instant]) key
      ((origin.run (events ++ [.tick instant])).1.bearing key) := by
  cases marked : (origin.run (events ++ [.tick instant])).1.scene.mark? key with
  | none =>
    rw [bearing, marked]
    exact hasBearing_of_unmarked marked
  | some mark =>
    have marked := Option.isSome_of_eq_some marked
    have after : (origin.run (events ++ [.tick instant])).1 =
        ((origin.run events).1.tick instant).1 := run_snoc ..
    have tracked : ((origin.run events).1.catalog.get? key).isSome := by
      rw [after] at marked
      exact ((consistent.isSome_mark?_tick instant key).mp marked).1
    obtain ⟨track, tracked⟩ := Option.isSome_iff_exists.mp tracked
    have frames {before : List (Event α)} {other : Track α} :
        origin.FrameSince (events ++ [.tick instant]) key before other ↔
          origin.FrameSince events key before other ∨
            before = events ∧ (∃ at', Event.tick instant = .tick at') ∧
              (origin.run events).1.catalog.get? key = some other := frameSince_append marked
    rw [after] at marked
    rw [after, bearing_tick consistent instant tracked marked]
    by_cases moves : track.Moves
    · -- the frame itself is the last one at which the object moved
      obtain ⟨bearing, heading⟩ := Option.isSome_iff_exists.mp (track.isSome_heading?.mpr moves)
      have here := frames.mpr (.inr ⟨rfl, ⟨instant, rfl⟩, tracked⟩)
      rw [heading]
      refine .inl ⟨events, track, here, moves, heading, ?_⟩
      intro later other since longer
      have := since.length_lt
      rw [List.length_append, List.length_singleton] at this
      omega
    · -- the object stands still at the frame, which adds one that does not count
      have still {later : List (Event α)} {other : Track α}
          (since : origin.FrameSince (events ++ [.tick instant]) key later other) :
          origin.FrameSince events key later other ∨ ¬other.Moves := by
        refine (frames.mp since).imp_right ?_
        rintro ⟨-, -, found⟩
        rw [tracked, Option.some.injEq] at found
        rwa [← found]
      rw [Option.not_isSome_iff_eq_none.mp (mt track.isSome_heading?.mp moves)]
      rcases called with ⟨before, moving, since, moved, heading, last⟩ | ⟨zero, never⟩
      · refine .inl ⟨before, moving, frames.mpr (.inl since), moved, heading, ?_⟩
        intro later other since longer
        exact (still since).elim (fun since => last later other since longer) id
      · exact .inr ⟨zero, fun before other since => (still since).elim (never before other) id⟩

/-- At all times marks have the directions that are called for. -/
theorem hasBearing_run (consistent : origin.Consistent shapes)
    (blank : origin.scene.mark? key = none) (events : List (Event α)) :
    origin.HasBearing events key ((origin.run events).1.bearing key) := by
  induction events using List.reverseRecOn with
  | nil =>
    have none : origin.bearing key = 0.0 := by rw [bearing, blank]; rfl
    show origin.HasBearing [] key (origin.bearing key)
    rw [none]
    exact hasBearing_of_unmarked blank
  | append_singleton events event ih =>
    -- frames are what directions come from; the other events can only take a mark away
    by_cases isTick : ∃ instant, event = .tick instant
    · obtain ⟨instant, rfl⟩ := isTick
      exact hasBearing_frame (consistent.run events) ih instant
    · exact hasBearing_event ih fun instant same => isTick ⟨instant, same⟩

/-! ### The clock -/

/-- What the clock knows is the last batch that came. -/
theorem clock_run (settings : Settings α) (shapes : ShapeBook α) (events : List (Event α)) :
    ((start settings shapes).run events).1.clock.anchor =
      (events.filterMap Event.delivery?).getLast?.map fun (batch, receivedAt) =>
        (batch.serverTime, receivedAt) := by
  induction events using List.reverseRecOn with
  | nil => rfl
  | append_singleton events event ih =>
    rw [run_snoc, List.filterMap_append]
    cases delivered : event.delivery? with
    | none =>
      rw [List.filterMap_cons_none delivered, List.filterMap_nil, List.append_nil, ← ih]
      exact congrArg (·.clock.anchor) (tracked_of_delivery_none _ delivered)
    | some delivery =>
      obtain ⟨batch, receivedAt⟩ := delivery
      rw [List.filterMap_cons_some delivered, List.filterMap_nil, List.getLast?_concat,
        step_of_delivery _ delivered, clock_ingest]
      rfl

/-- What a frame shows. From every state that a session can come to: a frame is drawn at the time of
the last batch and the whole microseconds gone by since it was received, at most the greatest time
there is, and at zero before the first batch. It counts the tracked objects of the kinds that are in
the book. Each of them has a mark where it is reckoned to be at that time, in the direction of the
last frame since its mark was made at which it moved, this frame included. Tracks and clock stay as
they are. -/
theorem frames_show_what_is_known (settings : Settings α) (shapes : ShapeBook α)
    (events : List (Event α)) (instant : Instant) :
    let session := ((start settings shapes).run events).1
    let after := (session.tick instant).1
    let frame := (session.tick instant).2
    frame.serverTime.toNat =
      (match (events.filterMap Event.delivery?).getLast? with
      | none => 0
      | some (batch, receivedAt) =>
        min (batch.serverTime.toNat + (instant.nanos - receivedAt.nanos) / 1000) (2 ^ 64 - 1)) ∧
    frame.drawn = session.catalog.tracks.countP (fun track => shapes.isRegistered track.key.kind) ∧
    (∀ key track, session.catalog.get? key = some track → shapes.isRegistered key.kind →
      ∃ mark, after.scene.mark? key = some mark ∧
        mark.position = track.positionAt frame.serverTime ∧
        (start settings shapes).HasBearing (events ++ [.tick instant]) key mark.rotation) ∧
    after.catalog = session.catalog ∧ after.clock = session.clock := by
  intro session after frame
  have fresh := Consistent.start settings shapes
  have consistent : session.Consistent shapes := fresh.run events
  refine ⟨?_, ?_, ?_, rfl, rfl⟩
  · show (session.clock.now instant).toNat = _
    have anchor : session.clock.anchor = _ := clock_run settings shapes events
    unfold ServerClock.now
    rw [anchor]
    cases (events.filterMap Event.delivery?).getLast? with
    | none => rfl
    | some delivery => exact Micros.toNat_after _ _
  · refine (session.scene.update_snd consistent.keyed _).trans ?_
    refine List.countP_congr fun track listed => ?_
    obtain ⟨key, tracked⟩ := (session.catalog.mem_tracks track).mp listed
    obtain rfl := consistent.keyed key track tracked
    rw [← mark?_tick consistent instant tracked, consistent.isSome_mark?_tick instant]
    show _ ∧ _ ↔ _
    exact and_iff_right (Option.isSome_of_eq_some tracked)
  · intro key track tracked drawn
    have marked : (after.scene.mark? key).isSome :=
      (consistent.isSome_mark?_tick instant key).mpr ⟨Option.isSome_of_eq_some tracked, drawn⟩
    obtain ⟨mark, found⟩ := Option.isSome_iff_exists.mp marked
    refine ⟨mark, found, ?_, ?_⟩
    · have shown := (mark?_tick consistent instant tracked).symm.trans found
      obtain ⟨earlier, -, rfl⟩ := Option.map_eq_some_iff.mp shown
      rfl
    · have unmarked : (start settings shapes).scene.mark? key = none :=
        Std.ExtTreeMap.getElem?_empty
      have called := hasBearing_run fresh unmarked (events ++ [.tick instant])
      rw [run_snoc] at called
      have bearing : after.bearing key = mark.rotation := by
        rw [Session.bearing, found]
        rfl
      rw [← bearing]
      exact called

end Session

end DeadReckoning
