import DeadReckoning.Clock
import DeadReckoning.Link
import DeadReckoning.Scene.Basic
import DeadReckoning.Settings
import DeadReckoning.View.Navigator
import DeadReckoning.Wire.Batch

namespace DeadReckoning

/-!
# The session — everything that the program knows while it runs

Messages, frames, gestures and changes of the channel are handled one at a time.

* `Receipt` — what became of a batch
* `Session.ingest` — a batch came
* `Session.receive` — a message came
* `Session.tick` — a frame is drawn
* `Session.gesture`, `Session.setLink` — the user did something; the channel changed
* `Session.Event`, `Session.step` — all of these as one type
-/

/-- What became of a batch. -/
structure Receipt where
  serverTime : Micros
  created : Nat
  updated : Nat
  stale : Nat
  refusals : List Refusal
  /-- The objects that were dropped after it for want of news. -/
  expired : List TrackKey

/-- How many sightings reached the catalog, stale ones included. -/
def Receipt.accepted (receipt : Receipt) : Nat := receipt.created + receipt.updated + receipt.stale

/-- What a frame showed. -/
structure Frame where
  serverTime : Micros
  drawn : Nat
  deriving DecidableEq, Repr

namespace Catalog

variable {α : Type} [Scalar α]

/-- The catalog after a batch, and what became of it. -/
def ingest (catalog : Catalog α) (batch : Batch α) : Catalog α × Receipt :=
  let (catalog, intakes) := catalog.observeAll batch.serverTime batch.sightings
  (catalog,
    { serverTime := batch.serverTime
      created := intakes.count .created
      updated := intakes.count .updated
      stale := intakes.count .stale
      refusals := batch.refusals
      expired := [] })

end Catalog

/-- Everything that the program knows while it runs. -/
structure Session (α : Type) where
  settings : Settings α
  catalog : Catalog α
  clock : ServerClock
  navigator : Navigator LayerId α
  scene : Scene α
  link : Link

namespace Session

variable {α : Type} [Scalar α]

/-- A session in which nothing has happened. -/
def start (settings : Settings α) (shapes : ShapeBook α) : Session α where
  settings
  catalog := .empty
  clock := .start
  navigator := (Navigator.start LayerId.world).withZoomStep settings.zoomStep
  scene := (Scene.start shapes).setOverlay Link.initial.label
  link := .initial

/-- Drops the objects last updated before `cutoff`, with their marks, and tells their keys. -/
def evict (session : Session α) (cutoff : Micros) : Session α × List TrackKey :=
  let (catalog, expired) := session.catalog.expire cutoff
  ({ session with catalog, scene := session.scene.removeAll expired }, expired)

/-- A batch came. With a retention set, objects are dropped whose last news is older than the batch
by more than that. -/
def ingest (session : Session α) (batch : Batch α) (receivedAt : Instant) : Session α × Receipt :=
  let (catalog, receipt) := session.catalog.ingest batch
  let session :=
    { session with catalog, clock := session.clock.pin batch.serverTime receivedAt }
  match session.settings.retentionMicros with
  | none => (session, receipt)
  | some span =>
    let (session, expired) := session.evict (batch.serverTime.before span)
    (session, { receipt with expired })

/-- A message came. One that cannot be read changes nothing. -/
def receive (session : Session α) (text : String) (receivedAt : Instant) :
    Session α × Except BatchError Receipt :=
  match Batch.parse text with
  | .error e => (session, .error e)
  | .ok batch =>
    let (session, receipt) := session.ingest (batch.map Scalar.ofFloat) receivedAt
    (session, .ok receipt)

/-- A frame is drawn at an instant. -/
def tick (session : Session α) (instant : Instant) : Session α × Frame :=
  let serverTime := session.clock.now instant
  let (scene, drawn) := session.scene.update session.catalog serverTime
  ({ session with scene }, { serverTime, drawn })

/-- The user did something. Tells whether it acted on the view. -/
def gesture (session : Session α) (g : Gesture α) : Session α × Bool :=
  let (navigator, scene, changed) := session.navigator.handle g session.scene
  ({ session with navigator, scene }, changed)

/-- The channel changed. -/
def setLink (session : Session α) (link : Link) : Session α :=
  { session with link, scene := session.scene.setOverlay link.label }

/-- What can happen in a session. -/
inductive Event (α : Type) where
  | message (text : String) (receivedAt : Instant)
  | batch (batch : Batch α) (receivedAt : Instant)
  | tick (instant : Instant)
  | gesture (g : Gesture α)
  | link (link : Link)

/-- What a session answers to an event. -/
inductive Reply where
  | receipt (receipt : Receipt)
  | dropped (error : BatchError)
  | frame (frame : Frame)
  | changed (changed : Bool)
  | done

/-- The session after an event, and its answer. -/
def step (session : Session α) : Event α → Session α × Reply
  | .message text receivedAt =>
    match session.receive text receivedAt with
    | (session, .ok receipt) => (session, .receipt receipt)
    | (session, .error e) => (session, .dropped e)
  | .batch batch receivedAt =>
    let (session, receipt) := session.ingest batch receivedAt
    (session, .receipt receipt)
  | .tick instant =>
    let (session, frame) := session.tick instant
    (session, .frame frame)
  | .gesture g =>
    let (session, changed) := session.gesture g
    (session, .changed changed)
  | .link link => (session.setLink link, .done)

/-- The session after several events, and its answers. -/
def run (session : Session α) : List (Event α) → Session α × List Reply
  | [] => (session, [])
  | event :: events =>
    let (session, reply) := session.step event
    let (session, replies) := run session events
    (session, reply :: replies)

/-- A run may be cut in two, of which the second goes on where the first ends. -/
theorem run_append (session : Session α) (before after : List (Event α)) :
    session.run (before ++ after) =
      let (middle, replies) := session.run before
      let (last, others) := middle.run after
      (last, replies ++ others) := by
  induction before generalizing session with
  | nil => rfl
  | cons event rest ih => simp [run, ih]

end Session

end DeadReckoning
