import DeadReckoning.Proofs.Catalog.Repetition
import DeadReckoning.Proofs.Session.Retention

namespace DeadReckoning.Session

/-!
# The session — batches that are delivered again

A channel may deliver a batch more than once. Without a retention the session passes over every
batch that it has heard, however long ago; with one it does so until it hears another.

* `Event.delivery?` — the batch that an event brings; `step_of_delivery`
* `Absorbed` — a batch that there is nothing left to take from
* `absorbed_ingest` — so is every batch that was just heard; `Absorbed.run`: and remains so
* `Absorbed.ingest` — such a batch changes nothing but the clock
* `redelivery_changes_nothing` — all of it for a session from its start
-/

variable {α : Type}

/-! ### Batches that events bring -/

/-- The batch that an event brings, and when. -/
def Event.delivery? [Scalar α] : Event α → Option (Batch α × Instant)
  | .message text receivedAt =>
    (Batch.parse text).toOption.map fun read => (read.map Scalar.ofFloat, receivedAt)
  | .batch told receivedAt => some (told, receivedAt)
  | _ => none

variable [Scalar α] {session : Session α} {batch : Batch α} {event : Event α} {receivedAt : Instant}

/-- An event that brings a batch does what the batch does. -/
theorem step_of_delivery (session : Session α)
    (delivered : event.delivery? = some (batch, receivedAt)) :
    session.step event = ((session.ingest batch receivedAt).1,
      .receipt (session.ingest batch receivedAt).2) := by
  cases event with
  | message text at' =>
    cases parsed : Batch.parse text with
    | error e =>
      rw [Event.delivery?, parsed] at delivered
      cases delivered
    | ok read =>
      rw [Event.delivery?, parsed] at delivered
      cases delivered
      exact session.step_message_ok parsed receivedAt
  | batch other at' =>
    cases delivered
    rfl
  | tick instant => cases delivered
  | gesture g => cases delivered
  | link link => cases delivered

/-- An event that brings none leaves the tracks alone. -/
theorem tracked_of_delivery_none (session : Session α) (none : event.delivery? = none) :
    (session.step event).1.tracked = session.tracked := by
  refine (tracking.unconcerned session event ?_).1
  cases event with
  | message text receivedAt =>
    cases parsed : Batch.parse text with
    | error e =>
      show (Batch.parse text).isOk = false
      rw [parsed]
      rfl
    | ok read =>
      rw [Event.delivery?, parsed] at none
      cases none
  | batch other receivedAt => cases none
  | tick instant => rfl
  | gesture g => rfl
  | link link => rfl

/-! ### Batches that were heard -/

/-- All that a batch tells is known, and nothing has been silent for too long when it comes. -/
structure Absorbed (session : Session α) (batch : Batch α) : Prop where
  known : ∀ s ∈ batch.sightings, session.catalog.Knows batch.serverTime s.key
  heard (span : Micros) : session.settings.retentionMicros = some span →
    ∀ key, session.catalog.HeardSince (batch.serverTime.before span) key

/-- A batch that was just heard is absorbed. -/
theorem absorbed_ingest (keyed : session.catalog.Keyed) (batch : Batch α) (receivedAt : Instant) :
    (session.ingest batch receivedAt).1.Absorbed batch := by
  have told : ∀ s ∈ batch.sightings,
      (session.catalog.ingest batch).1.Knows batch.serverTime s.key := fun s member =>
    keyed.knows_observeAll batch.sightings (.inl ⟨s, member, rfl, UInt64.le_refl _⟩)
  have entered : (session.catalog.ingest batch).1.Keyed :=
    keyed.observeAll batch.serverTime batch.sightings
  unfold Session.ingest
  dsimp only
  cases retention : session.settings.retentionMicros with
  | none =>
    refine ⟨told, fun span isSpan => ?_⟩
    rw [show session.settings.retentionMicros = some span from isSpan] at retention
    cases retention
  | some span =>
    -- the cutoff is not after the time of the batch, so that its own objects stay
    have cutoff : batch.serverTime.before span ≤ batch.serverTime := by
      rw [UInt64.le_iff_toNat_le, Micros.toNat_before]
      exact Nat.sub_le _ _
    constructor
    · intro s member
      obtain ⟨track, found, news⟩ := told s member
      refine ⟨track, ?_, news⟩
      show ((session.catalog.ingest batch).1.expire (batch.serverTime.before span)).1.get? s.key = _
      rw [entered.get?_expire, found, Option.filter_some,
        if_pos (decide_eq_true (UInt64.le_trans cutoff news))]
    · intro other isSpan key track found
      have found : ((session.catalog.ingest batch).1.expire
          (batch.serverTime.before span)).1.get? key = some track := found
      have same : other = span := by
        rw [show session.settings.retentionMicros = some other from isSpan] at retention
        exact Option.some.inj retention
      rw [entered.get?_expire, Option.filter_eq_some_iff] at found
      rw [same]
      exact of_decide_eq_true found.2

namespace Absorbed

/-- An absorbed batch changes nothing but the clock. -/
protected theorem ingest (absorbed : session.Absorbed batch) (receivedAt : Instant) :
    session.ingest batch receivedAt =
      ({ session with clock := session.clock.pin batch.serverTime receivedAt }, {
        serverTime := batch.serverTime
        created := 0
        updated := 0
        stale := batch.sightings.length
        refusals := batch.refusals
        expired := [] }) := by
  unfold Session.ingest
  rw [Catalog.ingest_of_knows absorbed.known]
  dsimp only
  cases retention : session.settings.retentionMicros with
  | none => rfl
  | some span =>
    unfold evict
    dsimp only
    rw [Catalog.expire_of_heardSince (absorbed.heard span retention)]
    rfl

/-- What was absorbed is decided by what is tracked. -/
theorem of_tracked {other : Session α} (absorbed : session.Absorbed batch)
    (same : other.tracked = session.tracked) : other.Absorbed batch := by
  have settings : other.settings = session.settings := congrArg Tracking.settings same
  have catalog : other.catalog = session.catalog := congrArg Tracking.catalog same
  constructor
  · rw [catalog]
    exact absorbed.known
  · rw [settings, catalog]
    exact absorbed.heard

/-- Without a retention other batches leave it absorbed. -/
theorem of_forever (absorbed : session.Absorbed batch) (keyed : session.catalog.Keyed)
    (forever : session.settings.retentionMicros = none) (other : Batch α) (receivedAt : Instant) :
    (session.ingest other receivedAt).1.Absorbed batch := by
  constructor
  · intro s member
    rw [(ingest_of_forever forever other receivedAt).1]
    exact keyed.knows_observeAll other.sightings (.inr (absorbed.known s member))
  · intro span isSpan
    rw [(session.ingest_frame other receivedAt).1, forever] at isSpan
    cases isSpan

/-- A batch stays absorbed as long as nothing is dropped or no other is heard. -/
protected theorem step {shapes : ShapeBook α} (consistent : session.Consistent shapes)
    (absorbed : session.Absorbed batch)
    (quiet : session.settings.retentionMicros = none ∨ event.delivery? = none) :
    (session.step event).1.Absorbed batch := by
  cases delivered : event.delivery? with
  | none => exact absorbed.of_tracked (session.tracked_of_delivery_none delivered)
  | some delivery =>
    obtain ⟨other, receivedAt⟩ := delivery
    have forever := quiet.resolve_right (by simp [delivered])
    rw [session.step_of_delivery delivered]
    exact absorbed.of_forever consistent.keyed forever other receivedAt

/-- What was absorbed stays so, unless tracks may be dropped and batches come. -/
protected theorem run {shapes : ShapeBook α} (consistent : session.Consistent shapes)
    (absorbed : session.Absorbed batch) (events : List (Event α))
    (quiet : session.settings.retentionMicros = none ∨
      ∀ event ∈ events, event.delivery? = none) :
    (session.run events).1.Absorbed batch := by
  induction events generalizing session with
  | nil => exact absorbed
  | cons event rest ih =>
    have settings := congrArg Settings.retentionMicros (session.settings_step event)
    refine ih (consistent.step event) (absorbed.step consistent ?_) ?_
    · exact quiet.imp_right fun none => none event List.mem_cons_self
    · exact quiet.imp settings.trans fun none other member =>
        none other (List.mem_cons_of_mem event member)

end Absorbed

/-- A batch may be delivered again. If nothing is ever dropped, or no other batch came in between,
a batch that the session has heard leaves tracks, scene, view and channel as they are; only the
clock is set by it. Nothing is created, updated or dropped, and all its sightings are stale, also
where it tells of an object twice. -/
theorem redelivery_changes_nothing (settings : Settings α) (shapes : ShapeBook α)
    (before since : List (Event α)) (event again : Event α) (batch : Batch α)
    (heardAt receivedAt : Instant) (delivered : event.delivery? = some (batch, heardAt))
    (redelivered : again.delivery? = some (batch, receivedAt))
    (quiet : settings.retention = none ∨ ∀ other ∈ since, other.delivery? = none) :
    let session := ((start settings shapes).run (before ++ event :: since)).1
    session.step again =
      ({ session with clock := session.clock.pin batch.serverTime receivedAt }, .receipt {
        serverTime := batch.serverTime
        created := 0
        updated := 0
        stale := batch.sightings.length
        refusals := batch.refusals
        expired := [] }) := by
  intro session
  have earlier : ((start settings shapes).run before).1.Consistent shapes :=
    (Consistent.start settings shapes).run before
  have same : (((start settings shapes).run before).1.step event).1.settings = settings :=
    (settings_step _ event).trans (settings_run _ before)
  have absorbed : (((start settings shapes).run before).1.step event).1.Absorbed batch := by
    rw [step_of_delivery _ delivered]
    exact absorbed_ingest earlier.keyed batch heardAt
  have absorbed : session.Absorbed batch := by
    have appended := congrArg Prod.fst (run_append (start settings shapes) before (event :: since))
    have shape : session = ((((start settings shapes).run before).1.step event).1.run since).1 :=
      appended
    rw [shape]
    refine absorbed.run (earlier.step event) since (quiet.imp_left fun forever => ?_)
    rw [same, Settings.retentionMicros, forever]
    rfl
  rw [session.step_of_delivery redelivered, absorbed.ingest receivedAt]

/-- A batch that tells of a ship twice is delivered again after news of the ship. -/
theorem old_news_changes_nothing :
    let ship : Sighting Float := ⟨.ship, 1, .zero, .zero, none⟩
    let twice : Batch Float := ⟨5, [ship, ship], []⟩
    let session := ((start .standard .standard).run
      ([.link .established] ++ .batch twice ⟨0⟩ :: [.tick ⟨4⟩, .batch ⟨9, [ship], []⟩ ⟨7⟩])).1
    session.step (.batch twice ⟨8⟩) = ({ session with clock := session.clock.pin 5 ⟨8⟩ },
      .receipt ⟨5, 0, 0, 2, [], []⟩) := by
  intro ship twice
  exact redelivery_changes_nothing .standard .standard [.link .established]
    [.tick ⟨4⟩, .batch ⟨9, [ship], []⟩ ⟨7⟩] (.batch twice ⟨0⟩) (.batch twice ⟨8⟩) twice ⟨0⟩ ⟨8⟩
    rfl rfl (.inl rfl)

end DeadReckoning.Session
