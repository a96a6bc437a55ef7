import DeadReckoning.Proofs.Scene.Parts
import DeadReckoning.Session

namespace DeadReckoning

/-!
# The session — handlers do not interfere

Batches, frames, gestures and changes of the channel come in any order. Each part of what the
session knows hears of some of them only: what it is after a run, it is after the run without all
other events.

* `Event.isAccepted`, `Event.isGesture`, `Event.isShown`, `lastLink?` — who hears of what
* `Aspect` — a part of the session and of its answers, and the events that it hears of
* `Aspect.run_filter` — a run without the other events
* `tracking`, `viewing`, `drawing` — the aspects of a session
* `run_separated`, `run_eq` — all of it for a run, and for two runs
-/

namespace Session

variable {α : Type}

/-! ### Who hears of what -/

namespace Event

/-- A batch, or a message that one can be read from. -/
def isAccepted : Event α → Bool
  | message text _ => (Batch.parse text).isOk
  | batch .. => true
  | _ => false

/-- A message that no batch can be read from. -/
def isRejected : Event α → Bool
  | message text _ => !(Batch.parse text).isOk
  | _ => false

/-- The user did something. -/
def isGesture : Event α → Bool
  | gesture _ => true
  | _ => false

/-- A batch that is accepted, or a frame. -/
def isShown : Event α → Bool
  | .tick _ => true
  | event => event.isAccepted

/-- What the channel changed to. -/
def link? : Event α → Option Link
  | .link changed => some changed
  | _ => none

end Event

/-- What the channel last changed to. -/
def lastLink? (events : List (Event α)) : Option Link := (events.filterMap Event.link?).getLast?

namespace Reply

/-- What became of a batch. -/
def receipt? : Reply → Option Receipt
  | receipt r => some r
  | _ => none

/-- What a frame showed. -/
def frame? : Reply → Option Frame
  | frame f => some f
  | _ => none

/-- Whether a gesture acted on the view. -/
def changed? : Reply → Option Bool
  | changed c => some c
  | _ => none

end Reply

variable [Scalar α]

/-! ### Messages are batches or nothing -/

/-- A message that is accepted does what its batch does. -/
theorem step_message_ok (session : Session α) {text : String} {batch : Batch Float}
    (parsed : Batch.parse text = .ok batch) (receivedAt : Instant) :
    session.step (.message text receivedAt) =
      session.step (.batch (batch.map Scalar.ofFloat) receivedAt) := by
  simp only [step, receive, parsed]

/-- A message that is rejected does nothing. -/
theorem step_message_error (session : Session α) {text : String} {e : BatchError}
    (parsed : Batch.parse text = .error e) (receivedAt : Instant) :
    session.step (.message text receivedAt) = (session, .dropped e) := by
  simp only [step, receive, parsed]

theorem run_append_fst (session : Session α) (before after : List (Event α)) :
    (session.run (before ++ after)).1 = ((session.run before).1.run after).1 := by
  rw [run_append]

theorem run_snoc (session : Session α) (events : List (Event α)) (event : Event α) :
    (session.run (events ++ [event])).1 = ((session.run events).1.step event).1 :=
  session.run_append_fst events [event]

/-! ### Aspects -/

/-- A part of what a session knows and of what it answers, with the events that it hears of. -/
structure Aspect (α β γ : Type) [Scalar α] where
  /-- The part of the session. -/
  see : Session α → β
  /-- The part of the answers. -/
  hear? : Reply → Option γ
  /-- The events that it hears of. -/
  concerns : Event α → Bool
  /-- No other event changes it. -/
  unconcerned (session : Session α) (event : Event α) (h : concerns event = false) :
    see (session.step event).1 = see session ∧ hear? (session.step event).2 = none
  /-- What an event makes of it depends on nothing else. -/
  determined (s t : Session α) (event : Event α) (h : concerns event = true)
    (same : see s = see t) :
    see (s.step event).1 = see (t.step event).1 ∧
      hear? (s.step event).2 = hear? (t.step event).2

/-- After a run an aspect is what it is after the run without the events it does not hear of. -/
theorem Aspect.run_filter {β γ : Type} (aspect : Aspect α β γ) {s t : Session α}
    (same : aspect.see s = aspect.see t) (events : List (Event α)) :
    aspect.see (s.run events).1 = aspect.see (t.run (events.filter aspect.concerns)).1 ∧
      (s.run events).2.filterMap aspect.hear? =
        (t.run (events.filter aspect.concerns)).2.filterMap aspect.hear? := by
  -- the two runs take different events, so that the sessions agree in the aspect only
  induction events generalizing s t with
  | nil => exact ⟨same, rfl⟩
  | cons event rest ih =>
    cases concerned : aspect.concerns event with
    | true =>
      obtain ⟨seen, heard⟩ := aspect.determined s t event concerned same
      obtain ⟨rest_seen, rest_heard⟩ := ih seen
      rw [List.filter_cons_of_pos concerned]
      refine ⟨rest_seen, ?_⟩
      simp only [run, List.filterMap_cons, heard, rest_heard]
    | false =>
      obtain ⟨seen, heard⟩ := aspect.unconcerned s event concerned
      obtain ⟨rest_seen, rest_heard⟩ := ih (seen.trans same)
      rw [List.filter_cons_of_neg (by rw [concerned]; exact Bool.false_ne_true)]
      refine ⟨rest_seen, ?_⟩
      simp only [run, List.filterMap_cons, heard, rest_heard]

/-! ### Tracking -/

/-- What tracking knows: the tracks, the server time, and how long silence is borne. -/
structure Tracking (α : Type) where
  settings : Settings α
  catalog : Catalog α
  clock : ServerClock

/-- What tracking knows. -/
def tracked (session : Session α) : Tracking α := ⟨session.settings, session.catalog, session.clock⟩

/-- A batch is entered in the same way whatever is drawn. -/
theorem tracked_ingest {s t : Session α} (same : s.tracked = t.tracked) (batch : Batch α)
    (receivedAt : Instant) :
    (s.ingest batch receivedAt).1.tracked = (t.ingest batch receivedAt).1.tracked ∧
      (s.ingest batch receivedAt).2 = (t.ingest batch receivedAt).2 := by
  have settings : s.settings = t.settings := congrArg Tracking.settings same
  have catalog : s.catalog = t.catalog := congrArg Tracking.catalog same
  have clock : s.clock = t.clock := congrArg Tracking.clock same
  unfold ingest
  dsimp only
  rw [settings, catalog, clock]
  cases t.settings.retentionMicros with
  | none => exact ⟨rfl, rfl⟩
  | some span => exact ⟨rfl, rfl⟩

/-- The clock is set by the batch. -/
theorem clock_ingest (session : Session α) (batch : Batch α) (receivedAt : Instant) :
    (session.ingest batch receivedAt).1.clock = ⟨some (batch.serverTime, receivedAt)⟩ := by
  unfold ingest
  dsimp only
  cases session.settings.retentionMicros with
  | none => rfl
  | some span => rfl

/-- Tracks, server time and receipts hear of the batches that are accepted. -/
def tracking : Aspect α (Tracking α) Receipt where
  see := tracked
  hear? := Reply.receipt?
  concerns := Event.isAccepted
  unconcerned session event h := by
    cases event with
    | message text receivedAt =>
      cases parsed : Batch.parse text with
      | error e =>
        rw [session.step_message_error parsed]
        exact ⟨rfl, rfl⟩
      | ok batch => simp [Event.isAccepted, parsed, Except.isOk, Except.toBool] at h
    | batch batch receivedAt => simp [Event.isAccepted] at h
    | tick instant => exact ⟨rfl, rfl⟩
    | gesture g => exact ⟨rfl, rfl⟩
    | link link => exact ⟨rfl, rfl⟩
  determined s t event h same := by
    -- a message that is accepted comes down to its batch
    have entered : ∀ batch receivedAt, tracked (s.step (.batch batch receivedAt)).1 =
          tracked (t.step (.batch batch receivedAt)).1 ∧
        (s.step (.batch batch receivedAt)).2.receipt? =
          (t.step (.batch batch receivedAt)).2.receipt? := by
      intro batch receivedAt
      obtain ⟨known, answer⟩ := tracked_ingest same batch receivedAt
      exact ⟨known, congrArg some answer⟩
    cases event with
    | message text receivedAt =>
      cases parsed : Batch.parse text with
      | error e => simp [Event.isAccepted, parsed, Except.isOk, Except.toBool] at h
      | ok batch =>
        rw [s.step_message_ok parsed, t.step_message_ok parsed]
        exact entered _ receivedAt
    | batch batch receivedAt => exact entered batch receivedAt
    | tick instant => simp [Event.isAccepted] at h
    | gesture g => simp [Event.isAccepted] at h
    | link link => simp [Event.isAccepted] at h

/-! ### Viewing -/

/-- What the view knows: what the user does with it, and the poses that were pushed. -/
structure Viewing (α : Type) where
  navigator : Navigator LayerId α
  poses : LayerId → Pose α

/-- What the view knows. -/
def viewed (session : Session α) : Viewing α := ⟨session.navigator, session.scene.poses⟩

omit [Scalar α] in
/-- What is viewed are the navigator and the poses. -/
theorem viewed_eq {s t : Session α} (navigator : s.navigator = t.navigator)
    (poses : s.scene.poses = t.scene.poses) : s.viewed = t.viewed := by
  show Viewing.mk _ _ = Viewing.mk _ _
  rw [navigator, poses]

/-- A batch leaves the view, the channel and the overlay alone. -/
theorem ingest_frame (session : Session α) (batch : Batch α) (receivedAt : Instant) :
    (session.ingest batch receivedAt).1.settings = session.settings ∧
      (session.ingest batch receivedAt).1.navigator = session.navigator ∧
      (session.ingest batch receivedAt).1.link = session.link ∧
      Scene.SameSurface (session.ingest batch receivedAt).1.scene session.scene := by
  unfold ingest
  dsimp only
  cases session.settings.retentionMicros with
  | none => exact ⟨rfl, rfl, rfl, .refl _⟩
  | some span => exact ⟨rfl, rfl, rfl, Scene.sameSurface_removeAll _ _⟩

/-- A gesture acts on the view in the same way whatever is drawn. -/
theorem viewed_gesture {s t : Session α} (same : s.viewed = t.viewed) (g : Gesture α) :
    (s.gesture g).1.viewed = (t.gesture g).1.viewed ∧ (s.gesture g).2 = (t.gesture g).2 := by
  have navigator : s.navigator = t.navigator := congrArg Viewing.navigator same
  have poses : s.scene.poses = t.scene.poses := congrArg Viewing.poses same
  unfold gesture Navigator.handle
  dsimp only
  rw [navigator]
  refine ⟨viewed_eq rfl ?_, rfl⟩
  -- poses are pushed only if the gesture acted on the view
  cases (t.navigator.step g).2 with
  | false => exact poses
  | true => exact Scene.poses_applyEach _ poses _

/-- A gesture leaves the tracks, what is drawn, the channel and the overlay alone. -/
theorem gesture_frame (session : Session α) (g : Gesture α) :
    (session.gesture g).1.tracked = session.tracked ∧
      (session.gesture g).1.link = session.link ∧
      Scene.SameDrawing (session.gesture g).1.scene session.scene ∧
      (session.gesture g).1.scene.texts = session.scene.texts := by
  unfold gesture Navigator.handle
  dsimp only
  cases (session.navigator.step g).2 with
  | false => exact ⟨rfl, rfl, .refl _, rfl⟩
  | true =>
    obtain ⟨drawing, texts⟩ := Scene.applyEach_scene (session.navigator.step g).1.view session.scene
      (session.navigator.step g).1.targets
    exact ⟨rfl, rfl, drawing, texts⟩

/-- View, gestures and poses hear of gestures. -/
def viewing : Aspect α (Viewing α) Bool where
  see := viewed
  hear? := Reply.changed?
  concerns := Event.isGesture
  unconcerned session event h := by
    have entered : ∀ batch receivedAt,
        viewed (session.step (.batch batch receivedAt)).1 = viewed session := by
      intro batch receivedAt
      obtain ⟨_, navigator, _, surface⟩ := session.ingest_frame batch receivedAt
      exact viewed_eq navigator surface.poses
    cases event with
    | message text receivedAt =>
      cases parsed : Batch.parse text with
      | error e =>
        rw [session.step_message_error parsed]
        exact ⟨rfl, rfl⟩
      | ok batch =>
        rw [session.step_message_ok parsed]
        exact ⟨entered _ receivedAt, rfl⟩
    | batch batch receivedAt => exact ⟨entered batch receivedAt, rfl⟩
    | tick instant => exact ⟨viewed_eq rfl (session.scene.sameSurface_update _ _).poses, rfl⟩
    | gesture g => simp [Event.isGesture] at h
    | link link => exact ⟨viewed_eq rfl (session.scene.poses_setOverlay _), rfl⟩
  determined s t event h same := by
    cases event with
    | gesture g =>
      obtain ⟨known, answer⟩ := viewed_gesture same g
      exact ⟨known, congrArg some answer⟩
    | message text receivedAt => simp [Event.isGesture] at h
    | batch batch receivedAt => simp [Event.isGesture] at h
    | tick instant => simp [Event.isGesture] at h
    | link link => simp [Event.isGesture] at h

/-! ### Drawing -/

/-- What is drawn, and what that is drawn from. -/
structure Drawing (α : Type) where
  tracking : Tracking α
  marks : Std.ExtTreeMap TrackKey (Mark α)
  members : LayerId → Std.ExtTreeSet TrackKey
  shapes : ShapeBook α

/-- What is drawn, and what that is drawn from. -/
def drawn (session : Session α) : Drawing α :=
  ⟨session.tracked, session.scene.marks, session.scene.members, session.scene.shapes⟩

omit [Scalar α] in
/-- What is drawn depends on what is tracked and on the drawing. -/
theorem drawn_eq {s t : Session α} (tracked : s.tracked = t.tracked)
    (drawing : Scene.SameDrawing s.scene t.scene) : s.drawn = t.drawn := by
  show Drawing.mk _ _ _ _ = Drawing.mk _ _ _ _
  rw [tracked, drawing.marks, drawing.members, drawing.shapes]

omit [Scalar α] in
/-- Two sessions that see the same drawn have the same drawing. -/
theorem sameDrawing_of_drawn {s t : Session α} (same : s.drawn = t.drawn) :
    Scene.SameDrawing s.scene t.scene :=
  ⟨congrArg Drawing.marks same, congrArg Drawing.members same, congrArg Drawing.shapes same⟩

/-- Objects are dropped in the same way whatever the view and the channel are. -/
theorem drawn_ingest {s t : Session α} (same : s.drawn = t.drawn) (batch : Batch α)
    (receivedAt : Instant) :
    (s.ingest batch receivedAt).1.drawn = (t.ingest batch receivedAt).1.drawn := by
  have tracked : s.tracked = t.tracked := congrArg Drawing.tracking same
  have drawing := sameDrawing_of_drawn same
  refine drawn_eq (tracked_ingest tracked batch receivedAt).1 ?_
  -- what is dropped is found among the tracks, which are the same
  have settings : s.settings = t.settings := congrArg Tracking.settings tracked
  have catalog : s.catalog = t.catalog := congrArg Tracking.catalog tracked
  unfold ingest
  dsimp only
  rw [settings, catalog]
  cases t.settings.retentionMicros with
  | none => exact drawing
  | some span => exact drawing.removeAll _

/-- A frame shows the same whatever the view and the channel are. -/
theorem drawn_tick {s t : Session α} (same : s.drawn = t.drawn) (instant : Instant) :
    (s.tick instant).1.drawn = (t.tick instant).1.drawn ∧
      (s.tick instant).2 = (t.tick instant).2 := by
  have tracked : s.tracked = t.tracked := congrArg Drawing.tracking same
  have catalog : s.catalog = t.catalog := congrArg Tracking.catalog tracked
  have clock : s.clock = t.clock := congrArg Tracking.clock tracked
  -- both frames are of the same tracks at the same instant of the server
  obtain ⟨drawing, count⟩ :=
    (sameDrawing_of_drawn same).update t.catalog (t.clock.now instant)
  rw [← catalog, ← clock] at drawing count
  refine ⟨drawn_eq tracked ?_, ?_⟩
  · show Scene.SameDrawing (s.scene.update s.catalog (s.clock.now instant)).1
      (t.scene.update t.catalog (t.clock.now instant)).1
    rw [← catalog, ← clock]
    exact drawing
  · show Frame.mk (s.clock.now instant) (s.scene.update s.catalog (s.clock.now instant)).2 =
      Frame.mk (t.clock.now instant) (t.scene.update t.catalog (t.clock.now instant)).2
    rw [← catalog, ← clock, count]

/-- Marks, members of layers and frames hear of the batches that are accepted and of frames. -/
def drawing : Aspect α (Drawing α) Frame where
  see := drawn
  hear? := Reply.frame?
  concerns := Event.isShown
  unconcerned session event h := by
    cases event with
    | message text receivedAt =>
      cases parsed : Batch.parse text with
      | error e =>
        rw [session.step_message_error parsed]
        exact ⟨rfl, rfl⟩
      | ok batch =>
        simp [Event.isShown, Event.isAccepted, parsed, Except.isOk, Except.toBool] at h
    | batch batch receivedAt => simp [Event.isShown, Event.isAccepted] at h
    | tick instant => simp [Event.isShown] at h
    | gesture g =>
      obtain ⟨tracked, _, drawing, _⟩ := session.gesture_frame g
      exact ⟨drawn_eq tracked drawing, rfl⟩
    | link link => exact ⟨drawn_eq rfl (session.scene.sameDrawing_setOverlay _), rfl⟩
  determined s t event h same := by
    cases event with
    | message text receivedAt =>
      cases parsed : Batch.parse text with
      | error e => simp [Event.isShown, Event.isAccepted, parsed, Except.isOk, Except.toBool] at h
      | ok batch =>
        rw [s.step_message_ok parsed, t.step_message_ok parsed]
        exact ⟨drawn_ingest same _ receivedAt, rfl⟩
    | batch batch receivedAt => exact ⟨drawn_ingest same batch receivedAt, rfl⟩
    | tick instant =>
      obtain ⟨known, answer⟩ := drawn_tick same instant
      exact ⟨known, congrArg some answer⟩
    | gesture g => simp [Event.isShown, Event.isAccepted] at h
    | link link => simp [Event.isShown, Event.isAccepted] at h

/-! ### The channel -/

omit [Scalar α] in
/-- The first event decides only if no later one changes the channel. -/
theorem lastLink?_cons (event : Event α) (rest : List (Event α)) :
    lastLink? (event :: rest) = (lastLink? rest).or event.link? := by
  unfold lastLink?
  rw [List.filterMap_cons]
  cases event.link? with
  | none => cases (rest.filterMap Event.link?).getLast? <;> rfl
  | some link =>
    rw [List.getLast?_cons]
    cases (rest.filterMap Event.link?).getLast? <;> rfl

/-- What a change of the channel puts over the drawing. -/
def textsAfter (texts : LayerId → Option String) : Option Link → LayerId → Option String
  | none, id => texts id
  | some link, id => if id = .gui then some link.label else texts id

/-- Only a change of the channel changes what is said of it. -/
theorem link_step (session : Session α) (event : Event α) :
    (session.step event).1.link = event.link?.getD session.link ∧
      (session.step event).1.scene.texts = textsAfter session.scene.texts event.link? := by
  have entered : ∀ batch receivedAt,
      (session.step (.batch batch receivedAt)).1.link = session.link ∧
      (session.step (.batch batch receivedAt)).1.scene.texts = session.scene.texts := by
    intro batch receivedAt
    obtain ⟨_, _, link, surface⟩ := session.ingest_frame batch receivedAt
    exact ⟨link, surface.texts⟩
  cases event with
  | message text receivedAt =>
    cases parsed : Batch.parse text with
    | error e =>
      rw [session.step_message_error parsed]
      exact ⟨rfl, rfl⟩
    | ok batch =>
      rw [session.step_message_ok parsed]
      exact entered _ receivedAt
  | batch batch receivedAt => exact entered batch receivedAt
  | tick instant => exact ⟨rfl, (session.scene.sameSurface_update _ _).texts⟩
  | gesture g =>
    obtain ⟨_, link, _, texts⟩ := session.gesture_frame g
    exact ⟨link, texts⟩
  | link link =>
    refine ⟨rfl, ?_⟩
    funext id
    exact session.scene.texts_setOverlay link.label id

/-- The channel and what is said of it are those of the last change. -/
theorem link_run (session : Session α) (events : List (Event α)) :
    (session.run events).1.link = (lastLink? events).getD session.link ∧
      (session.run events).1.scene.texts = textsAfter session.scene.texts (lastLink? events) := by
  induction events generalizing session with
  | nil => exact ⟨rfl, rfl⟩
  | cons event rest ih =>
    obtain ⟨link, texts⟩ := session.link_step event
    obtain ⟨rest_link, rest_texts⟩ := ih (session.step event).1
    have unfolded : (session.run (event :: rest)).1 = ((session.step event).1.run rest).1 := rfl
    rw [unfolded, rest_link, rest_texts, link, texts, lastLink?_cons]
    -- a later change makes an earlier one forgotten
    cases lastLink? rest with
    | none => exact ⟨rfl, rfl⟩
    | some last =>
      refine ⟨rfl, ?_⟩
      funext id
      cases event.link? with
      | none => rfl
      | some earlier =>
        simp only [textsAfter, Option.or]
        split <;> rfl

/-! ### Runs -/

omit [Scalar α] in
/-- The aspects and what is said of the channel are all that a session knows. -/
theorem eq_of_aspects {s t : Session α} (drawn : s.drawn = t.drawn) (viewed : s.viewed = t.viewed)
    (link : s.link = t.link) (texts : s.scene.texts = t.scene.texts) : s = t := by
  have tracked : s.tracked = t.tracked := congrArg Drawing.tracking drawn
  have drawing := sameDrawing_of_drawn drawn
  have settings : s.settings = t.settings := congrArg Tracking.settings tracked
  have catalog : s.catalog = t.catalog := congrArg Tracking.catalog tracked
  have clock : s.clock = t.clock := congrArg Tracking.clock tracked
  have navigator : s.navigator = t.navigator := congrArg Viewing.navigator viewed
  have scene : s.scene = t.scene :=
    Scene.ext_parts drawing.marks drawing.members (congrArg Viewing.poses viewed) texts
      drawing.shapes
  -- the fields are those of the aspects, the scene put together again from its parts
  cases s
  cases t
  simp only at settings catalog clock navigator scene link
  rw [settings, catalog, clock, navigator, scene, link]

/-- What a session comes to know in a run, each part of it from the events it hears of. -/
structure Separated (session : Session α) (events : List (Event α)) : Prop where
  catalog : (session.run events).1.catalog =
    (session.run (events.filter Event.isAccepted)).1.catalog
  clock : (session.run events).1.clock = (session.run (events.filter Event.isAccepted)).1.clock
  receipts : (session.run events).2.filterMap Reply.receipt? =
    (session.run (events.filter Event.isAccepted)).2.filterMap Reply.receipt?
  navigator : (session.run events).1.navigator =
    (session.run (events.filter Event.isGesture)).1.navigator
  changes : (session.run events).2.filterMap Reply.changed? =
    (session.run (events.filter Event.isGesture)).2.filterMap Reply.changed?
  poses (id : LayerId) : ((session.run events).1.scene.layers.get id).pose =
    ((session.run (events.filter Event.isGesture)).1.scene.layers.get id).pose
  link : (session.run events).1.link = (lastLink? events).getD session.link
  overlay : (session.run events).1.scene.overlay? =
    ((lastLink? events).map Link.label).or session.scene.overlay?
  marks : (session.run events).1.scene.marks =
    (session.run (events.filter Event.isShown)).1.scene.marks
  members (id : LayerId) : ((session.run events).1.scene.layers.get id).members =
    ((session.run (events.filter Event.isShown)).1.scene.layers.get id).members
  frames : (session.run events).2.filterMap Reply.frame? =
    (session.run (events.filter Event.isShown)).2.filterMap Reply.frame?

/-- In any run the handlers are separated. -/
theorem run_separated (session : Session α) (events : List (Event α)) :
    session.Separated events := by
  obtain ⟨tracked, receipts⟩ := tracking.run_filter (s := session) rfl events
  obtain ⟨viewed, changes⟩ := viewing.run_filter (s := session) rfl events
  obtain ⟨drawn, frames⟩ := drawing.run_filter (s := session) rfl events
  obtain ⟨link, texts⟩ := session.link_run events
  exact
    { catalog := congrArg Tracking.catalog tracked
      clock := congrArg Tracking.clock tracked
      receipts
      navigator := congrArg Viewing.navigator viewed
      changes
      poses := congrFun (congrArg Viewing.poses viewed)
      link
      overlay := by
        refine (congrFun texts .gui).trans ?_
        cases lastLink? events <;> rfl
      marks := congrArg Drawing.marks drawn
      members := congrFun (congrArg Drawing.members drawn)
      frames }

/-- Runs with the same gestures, the same batches and frames, and the same last change of the
channel end in the same session. -/
theorem run_eq (session : Session α) {events others : List (Event α)}
    (gestures : events.filter Event.isGesture = others.filter Event.isGesture)
    (shown : events.filter Event.isShown = others.filter Event.isShown)
    (links : lastLink? events = lastLink? others) :
    (session.run events).1 = (session.run others).1 := by
  obtain ⟨link, texts⟩ := session.link_run events
  obtain ⟨other_link, other_texts⟩ := session.link_run others
  -- each aspect only sees the filtered runs, and those are the same
  apply eq_of_aspects
  · calc (session.run events).1.drawn
        = (session.run (events.filter Event.isShown)).1.drawn := (drawing.run_filter rfl events).1
      _ = (session.run (others.filter Event.isShown)).1.drawn := by rw [shown]
      _ = (session.run others).1.drawn := ((drawing.run_filter rfl others).1).symm
  · calc (session.run events).1.viewed
        = (session.run (events.filter Event.isGesture)).1.viewed :=
          (viewing.run_filter rfl events).1
      _ = (session.run (others.filter Event.isGesture)).1.viewed := by rw [gestures]
      _ = (session.run others).1.viewed := ((viewing.run_filter rfl others).1).symm
  · rw [link, other_link, links]
  · rw [texts, other_texts, links]

/-- Handlers do not interfere. Each part of the session is after a run what it is after the run of
the events it hears of, a message that is rejected changes nothing, and runs that differ in the
order of events of different kinds only end in the same session. -/
theorem handlers_independent (session : Session α) (events : List (Event α)) :
    session.Separated events ∧
      (∀ event : Event α, event.isRejected → (session.step event).1 = session) ∧
      ∀ others : List (Event α), events.filter Event.isGesture = others.filter Event.isGesture →
        events.filter Event.isShown = others.filter Event.isShown →
        lastLink? events = lastLink? others →
        (session.run events).1 = (session.run others).1 := by
  refine ⟨session.run_separated events, ?_, fun _ => session.run_eq⟩
  intro event rejected
  cases event with
  | message text receivedAt =>
    cases parsed : Batch.parse text with
    | error e => rw [session.step_message_error parsed]
    | ok batch => simp [Event.isRejected, parsed, Except.isOk, Except.toBool] at rejected
  | batch batch receivedAt => simp [Event.isRejected] at rejected
  | tick instant => simp [Event.isRejected] at rejected
  | gesture g => simp [Event.isRejected] at rejected
  | link link => simp [Event.isRejected] at rejected

end Session

end DeadReckoning
