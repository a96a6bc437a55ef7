import DeadReckoning.Proofs.Catalog.Silence
import DeadReckoning.Proofs.Scene.Frames
import DeadReckoning.Proofs.Session.Consistency
import Mathlib.Data.List.Forall2

namespace DeadReckoning

/-!
# The session — the order in which tracks are visited

The tracks are visited in two places: at each frame to put their marks in place, and after a batch
to find those that have fallen silent. The session visits them in the order of their keys. Here
each event has an order of its own, and nothing comes of it but the order in which dropped objects
are told.

* `Traversal` — an order for every collection of tracks
* `Session.stepIn`, `Session.runIn` — events whose tracks are visited in such orders;
  `step_eq_stepIn`, `run_eq_runIn`
* `Session.Reply.SameButOrder` — the same answer, up to the order of the dropped objects
* `Session.Consistent.stepIn`, `Session.Consistent.runIn` — one event and a run of them
* `visiting_order_never_shows` — two runs of one list of events, in any orders
-/

/-- An order for every collection of tracks. -/
structure Traversal (α : Type) where
  visit : List (Track α) → List (Track α)
  perm (tracks : List (Track α)) : (visit tracks).Perm tracks

namespace Traversal

variable {α : Type}

/-- Tracks in the order in which they are listed. -/
def listed : Traversal α where
  visit tracks := tracks
  perm := .refl

/-- Two orders visit the same tracks. -/
theorem perm_visit (order other : Traversal α) (tracks : List (Track α)) :
    (order.visit tracks).Perm (other.visit tracks) :=
  (order.perm tracks).trans (other.perm tracks).symm

end Traversal

/-! ### What is done in an order -/

namespace Catalog

variable {α : Type}

/-- Drops the tracks last updated before `cutoff`, which are looked for in an order. -/
def expireIn (order : Traversal α) (catalog : Catalog α) (cutoff : Micros) :
    Catalog α × List TrackKey :=
  let expired := silentAmong (order.visit catalog.tracks) cutoff
  (catalog.eraseAll expired, expired)

end Catalog

namespace Scene

variable {α : Type} [Scalar α]

/-- One frame whose tracks take turns in an order. -/
def updateIn (order : Traversal α) (scene : Scene α) (catalog : Catalog α) (time : Micros) :
    Scene α × Nat :=
  scene.placeAll time (order.visit catalog.tracks)

end Scene

namespace Session

variable {α : Type} [Scalar α]

/-- Drops the objects last updated before `cutoff`, which are looked for in an order. -/
def evictIn (order : Traversal α) (session : Session α) (cutoff : Micros) :
    Session α × List TrackKey :=
  let (catalog, expired) := session.catalog.expireIn order cutoff
  ({ session with catalog, scene := session.scene.removeAll expired }, expired)

/-- A batch came, and silent tracks are looked for in an order. -/
def ingestIn (order : Traversal α) (session : Session α) (batch : Batch α) (receivedAt : Instant) :
    Session α × Receipt :=
  let (catalog, receipt) := session.catalog.ingest batch
  let session :=
    { session with catalog, clock := session.clock.pin batch.serverTime receivedAt }
  match session.settings.retentionMicros with
  | none => (session, receipt)
  | some span =>
    let (session, expired) := session.evictIn order (batch.serverTime.before span)
    (session, { receipt with expired })

/-- A message came, and silent tracks are looked for in an order. -/
def receiveIn (order : Traversal α) (session : Session α) (text : String) (receivedAt : Instant) :
    Session α × Except BatchError Receipt :=
  match Batch.parse text with
  | .error e => (session, .error e)
  | .ok batch =>
    let (session, receipt) := session.ingestIn order (batch.map Scalar.ofFloat) receivedAt
    (session, .ok receipt)

/-- A frame is drawn whose tracks take turns in an order. -/
def tickIn (order : Traversal α) (session : Session α) (instant : Instant) : Session α × Frame :=
  let serverTime := session.clock.now instant
  let (scene, drawn) := session.scene.updateIn order session.catalog serverTime
  ({ session with scene }, { serverTime, drawn })

/-- The session after an event whose tracks are visited in an order. -/
def stepIn (order : Traversal α) (session : Session α) : Event α → Session α × Reply
  | .message text receivedAt =>
    match session.receiveIn order text receivedAt with
    | (session, .ok receipt) => (session, .receipt receipt)
    | (session, .error e) => (session, .dropped e)
  | .batch batch receivedAt =>
    let (session, receipt) := session.ingestIn order batch receivedAt
    (session, .receipt receipt)
  | .tick instant =>
    let (session, frame) := session.tickIn order instant
    (session, .frame frame)
  -- no tracks are visited for the others
  | .gesture g => session.step (.gesture g)
  | .link link => session.step (.link link)

/-- The session after several events, the tracks visited in another order at each. -/
def runIn (orders : ℕ → Traversal α) (session : Session α) : List (Event α) → Session α × List Reply
  | [] => (session, [])
  | event :: events =>
    let (session, reply) := session.stepIn (orders 0) event
    let (session, replies) := runIn (fun turn => orders (turn + 1)) session events
    (session, reply :: replies)

/-- The session visits tracks as they are listed. -/
theorem step_eq_stepIn (session : Session α) (event : Event α) :
    session.step event = session.stepIn .listed event := by
  cases event with
  | message text receivedAt => rfl
  | batch batch receivedAt => rfl
  | tick instant => rfl
  | gesture g => rfl
  | link link => rfl

/-- A run visits tracks in the order in which they are listed. -/
theorem run_eq_runIn (session : Session α) (events : List (Event α)) :
    session.run events = session.runIn (fun _ => .listed) events := by
  induction events generalizing session with
  | nil => rfl
  | cons event rest ih => simp only [run, runIn, step_eq_stepIn, ih]

end Session

/-! ### The same up to an order -/

/-- Receipts that differ at most in the order in which dropped objects are told. -/
structure Receipt.SameButOrder (receipt other : Receipt) : Prop where
  expired : receipt.expired.Perm other.expired
  rest : { receipt with expired := other.expired } = other

/-- Answers that differ at most in the order in which dropped objects are told. -/
inductive Session.Reply.SameButOrder : Session.Reply → Session.Reply → Prop where
  | receipt {receipt other : Receipt} (same : receipt.SameButOrder other) :
    SameButOrder (.receipt receipt) (.receipt other)
  | refl (reply : Reply) : SameButOrder reply reply

namespace Catalog

variable {α : Type} (catalog : Catalog α) (order other : Traversal α) (cutoff : Micros)

/-- The same tracks are dropped in any order. -/
theorem perm_expireIn :
    (catalog.expireIn order cutoff).2.Perm (catalog.expireIn other cutoff).2 :=
  ((order.perm_visit other catalog.tracks).filter _).map _

/-- What is left does not depend on the order in which silent tracks were found. -/
theorem expireIn_fst : (catalog.expireIn order cutoff).1 = (catalog.expireIn other cutoff).1 := by
  refine Catalog.ext fun key => ?_
  show (catalog.eraseAll (catalog.expireIn order cutoff).2).get? key =
    (catalog.eraseAll (catalog.expireIn other cutoff).2).get? key
  simp only [get?_eraseAll, (catalog.perm_expireIn order other cutoff).mem_iff]

end Catalog

namespace Session

variable {α : Type} [Scalar α] {shapes : ShapeBook α} {session : Session α}

omit [Scalar α] in
/-- Marks and members of layers are dropped in any order. -/
theorem evictIn_fst (tidy : session.scene.Tidy) (order other : Traversal α) (cutoff : Micros) :
    (session.evictIn order cutoff).1 = (session.evictIn other cutoff).1 := by
  show { session with
      catalog := (session.catalog.expireIn order cutoff).1
      scene := session.scene.removeAll (session.catalog.expireIn order cutoff).2 } = _
  rw [session.catalog.expireIn_fst order other,
    tidy.removeAll_of_perm (session.catalog.perm_expireIn order other cutoff)]
  rfl

/-- A batch does the same in any order, and only the list of dropped tracks may be ordered
otherwise. -/
theorem ingestIn_same (tidy : session.scene.Tidy) (order other : Traversal α) (batch : Batch α)
    (receivedAt : Instant) :
    (session.ingestIn order batch receivedAt).1 = (session.ingestIn other batch receivedAt).1 ∧
      (session.ingestIn order batch receivedAt).2.SameButOrder
        (session.ingestIn other batch receivedAt).2 := by
  unfold ingestIn
  dsimp only
  cases session.settings.retentionMicros with
  | none => exact ⟨rfl, .refl _, rfl⟩
  | some span =>
    refine ⟨evictIn_fst ?_ order other _, Catalog.perm_expireIn _ order other _, rfl⟩
    exact tidy

namespace Consistent

/-- Each track has one turn in a frame, so that the order of turns does not matter. -/
theorem tickIn_eq (consistent : session.Consistent shapes) (order other : Traversal α)
    (instant : Instant) : session.tickIn order instant = session.tickIn other instant := by
  have different : ((order.visit session.catalog.tracks).map (·.key)).Nodup :=
    ((order.perm _).map _).nodup_iff.mpr consistent.keyed.nodup_tracks
  unfold tickIn Scene.updateIn
  dsimp only
  rw [consistent.tidy.placeAll_of_perm _ different (order.perm_visit other _)]

/-- One event, in two orders. -/
protected theorem stepIn (consistent : session.Consistent shapes) (order other : Traversal α)
    (event : Event α) :
    (session.stepIn order event).1 = (session.stepIn other event).1 ∧
      (session.stepIn order event).2.SameButOrder (session.stepIn other event).2 := by
  have entered (batch : Batch α) (receivedAt : Instant) :
      (session.stepIn order (.batch batch receivedAt)).1 =
          (session.stepIn other (.batch batch receivedAt)).1 ∧
        (session.stepIn order (.batch batch receivedAt)).2.SameButOrder
          (session.stepIn other (.batch batch receivedAt)).2 := by
    obtain ⟨same, receipts⟩ := ingestIn_same consistent.tidy order other batch receivedAt
    exact ⟨same, .receipt receipts⟩
  cases event with
  | message text receivedAt =>
    cases parsed : Batch.parse text with
    | error e =>
      simp only [stepIn, receiveIn, parsed, true_and]
      exact .refl _
    | ok batch =>
      simp only [stepIn, receiveIn, parsed]
      exact entered (batch.map Scalar.ofFloat) receivedAt
  | batch batch receivedAt => exact entered batch receivedAt
  | tick instant =>
    simp only [stepIn, consistent.tickIn_eq order other, true_and]
    exact .refl _
  | gesture g => exact ⟨rfl, .refl _⟩
  | link link => exact ⟨rfl, .refl _⟩

/-- A run of events, in two orders at each. -/
protected theorem runIn (consistent : session.Consistent shapes) (orders others : ℕ → Traversal α)
    (events : List (Event α)) :
    (session.runIn orders events).1 = (session.runIn others events).1 ∧
      List.Forall₂ Reply.SameButOrder (session.runIn orders events).2
        (session.runIn others events).2 := by
  induction events generalizing session orders others with
  | nil => exact ⟨rfl, .nil⟩
  | cons event rest ih =>
    obtain ⟨same, reply⟩ := consistent.stepIn (orders 0) (others 0) event
    have stepped : (session.stepIn (others 0) event).1.Consistent shapes := by
      rw [(consistent.stepIn (others 0) .listed event).1, ← step_eq_stepIn]
      exact consistent.step event
    obtain ⟨last, replies⟩ :=
      ih stepped (fun turn => orders (turn + 1)) fun turn => others (turn + 1)
    simp only [runIn, same]
    exact ⟨last, .cons reply replies⟩

end Consistent

/-- The order in which tracks are visited never shows. Two runs of a session from its start through
the same events, which visit the tracks in any orders and in other orders at each event, come to
the same session: tracks, clock, view, scene with its marks, layers and text, and channel. They
answer the same to each event, except that the keys of dropped objects may come in another order.
The program's own run is one of them. -/
theorem visiting_order_never_shows (settings : Settings α) (shapes : ShapeBook α)
    (events : List (Event α)) (orders others : ℕ → Traversal α) :
    let session := start settings shapes
    (session.runIn orders events).1 = (session.runIn others events).1 ∧
      List.Forall₂ Reply.SameButOrder (session.runIn orders events).2
        (session.runIn others events).2 ∧
      session.run events = session.runIn (fun _ => .listed) events := by
  intro session
  obtain ⟨same, replies⟩ := (Consistent.start settings shapes).runIn orders others events
  exact ⟨same, replies, session.run_eq_runIn events⟩

end Session

end DeadReckoning
