import DeadReckoning.Proofs.Catalog.Silence
import DeadReckoning.Proofs.Exact
import DeadReckoning.Proofs.Session.Consistency
import Mathlib.Tactic.Linarith

namespace DeadReckoning

/-!
# The session — which objects are dropped for want of news

With a retention set, each batch drops the objects whose last news is older than the batch by more
than that, with their marks; without one nothing is ever dropped. The retention is given in seconds
and counted in whole microseconds.

* `Scene.mem_members_removeAll` — members of layers after marks were taken away
* `Session.settings_run`, `Session.isSome_run` — the settings stay; without a retention so do all
  tracks
* `Session.Drops` — what a batch makes of tracks, marks and layers; `drops_ingest`
* `Settings.toNat_retentionMicros` — the retention in microseconds
* `retention_is_exact` — all of it for a session from its start, without rounding of the seconds
-/

/-- In a tidy scene, marks that are taken away are taken off their layers. -/
theorem Scene.mem_members_removeAll {α : Type} {scene : Scene α} (tidy : scene.Tidy)
    (keys : List TrackKey) (id : LayerId) (key : TrackKey) :
    key ∈ (scene.removeAll keys).members id ↔ key ∉ keys ∧ key ∈ scene.members id := by
  rw [(tidy.removeAll keys).mem_iff, tidy.mem_iff, mark?_removeAll]
  by_cases removed : key ∈ keys
  · simp [removed]
  · simp [removed]

namespace Session

section Steps

variable {α : Type} [Scalar α] (session : Session α)

/-! ### What stays -/

/-- No event changes the settings. -/
theorem settings_step (event : Event α) :
    (session.step event).1.settings = session.settings := by
  cases event with
  | message text receivedAt =>
    cases parsed : Batch.parse text with
    | error e => rw [session.step_message_error parsed]
    | ok batch =>
      rw [session.step_message_ok parsed]
      exact (session.ingest_frame _ receivedAt).1
  | batch batch receivedAt => exact (session.ingest_frame batch receivedAt).1
  | tick instant => rfl
  | gesture g => exact congrArg Tracking.settings (session.gesture_frame g).1
  | link link => rfl

/-- No event changes the settings. -/
theorem settings_run (events : List (Event α)) :
    (session.run events).1.settings = session.settings := by
  induction events generalizing session with
  | nil => rfl
  | cons event rest ih => exact (ih _).trans (session.settings_step event)

variable {session}

/-- Without a retention a batch only adds to what is tracked. -/
theorem ingest_of_forever (forever : session.settings.retentionMicros = none) (batch : Batch α)
    (receivedAt : Instant) :
    (session.ingest batch receivedAt).1.catalog = (session.catalog.ingest batch).1 ∧
      (session.ingest batch receivedAt).2.expired = [] := by
  unfold ingest
  dsimp only
  rw [forever]
  exact ⟨rfl, rfl⟩

/-- Without a retention the receipt is that of the catalog, where nothing is dropped. -/
theorem receipt_of_forever (forever : session.settings.retentionMicros = none) (batch : Batch α)
    (receivedAt : Instant) :
    (session.ingest batch receivedAt).2 = (session.catalog.ingest batch).2 := by
  unfold ingest
  dsimp only
  rw [forever]

/-- With a retention the objects that have been silent for longer are dropped after a batch. -/
theorem ingest_of_retention {span : Micros}
    (retention : session.settings.retentionMicros = some span) (batch : Batch α)
    (receivedAt : Instant) :
    let dropping := (session.catalog.ingest batch).1.expire (batch.serverTime.before span)
    (session.ingest batch receivedAt).1.catalog = dropping.1 ∧
      (session.ingest batch receivedAt).2 =
        { (session.catalog.ingest batch).2 with expired := dropping.2 } := by
  unfold ingest
  dsimp only
  rw [retention]
  exact ⟨rfl, rfl⟩

/-- Without a retention no event takes a track away. -/
theorem isSome_step (keyed : session.catalog.Keyed)
    (forever : session.settings.retentionMicros = none) (event : Event α) {key : TrackKey}
    (tracked : (session.catalog.get? key).isSome) :
    ((session.step event).1.catalog.get? key).isSome := by
  have entered (batch : Batch α) (receivedAt : Instant) :
      ((session.ingest batch receivedAt).1.catalog.get? key).isSome := by
    rw [(ingest_of_forever forever batch receivedAt).1]
    exact keyed.isSome_observeAll batch.serverTime batch.sightings tracked
  cases event with
  | message text receivedAt =>
    cases parsed : Batch.parse text with
    | error e =>
      rw [session.step_message_error parsed]
      exact tracked
    | ok batch =>
      rw [session.step_message_ok parsed]
      exact entered _ receivedAt
  | batch batch receivedAt => exact entered batch receivedAt
  | tick instant => exact tracked
  | gesture g =>
    rw [show (session.step (.gesture g)).1.catalog = session.catalog from
      congrArg Tracking.catalog (session.gesture_frame g).1]
    exact tracked
  | link link => exact tracked

/-- Without a retention what is tracked stays tracked. -/
theorem isSome_run {shapes : ShapeBook α} (consistent : session.Consistent shapes)
    (forever : session.settings.retentionMicros = none) (events : List (Event α)) {key : TrackKey}
    (tracked : (session.catalog.get? key).isSome) :
    ((session.run events).1.catalog.get? key).isSome := by
  induction events generalizing session with
  | nil => exact tracked
  | cons event rest ih =>
    have settings := congrArg Settings.retentionMicros (session.settings_step event)
    exact ih (consistent.step event) (settings.trans forever)
      (isSome_step consistent.keyed forever event tracked)

/-! ### What is dropped -/

/-- Of the tracks `entered` by a batch those without news since `cutoff` are dropped: their keys are
told once each, their marks are gone and they are on no layer. All else is as it was. -/
structure Drops (before : Session α) (entered : Catalog α) (after : Session α)
    (expired : List TrackKey) (cutoff : ℕ) : Prop where
  left (key : TrackKey) : after.catalog.get? key =
    (entered.get? key).filter fun track => cutoff ≤ track.lastUpdate.toNat
  mem_expired (key : TrackKey) : key ∈ expired ↔
    ∃ track, entered.get? key = some track ∧ track.lastUpdate.toNat < cutoff
  nodup : expired.Nodup
  mark (key : TrackKey) : after.scene.mark? key =
    if key ∈ expired then none else before.scene.mark? key
  member (id : LayerId) (key : TrackKey) : key ∈ (after.scene.layers.get id).members ↔
    key ∉ expired ∧ key ∈ (before.scene.layers.get id).members
  surface : Scene.SameSurface after.scene before.scene

/-- A batch drops exactly what was silent for longer than the retention. -/
theorem drops_ingest {shapes : ShapeBook α} (consistent : session.Consistent shapes) {span : Micros}
    (retention : session.settings.retentionMicros = some span) (batch : Batch α)
    (receivedAt : Instant) :
    session.Drops (session.catalog.ingest batch).1 (session.ingest batch receivedAt).1
      (session.ingest batch receivedAt).2.expired
      (batch.serverTime.toNat - span.toNat) := by
  have keyed : (session.catalog.ingest batch).1.Keyed :=
    consistent.keyed.observeAll batch.serverTime batch.sightings
  have cutoff := Micros.toNat_before batch.serverTime span
  unfold ingest
  dsimp only
  rw [retention]
  rw [← cutoff]
  refine ⟨keyed.get?_expire _, keyed.mem_expire _, keyed.nodup_expire _, ?_, ?_, ?_⟩
  · exact session.scene.mark?_removeAll _
  · exact Scene.mem_members_removeAll consistent.tidy _
  · exact session.scene.sameSurface_removeAll _

end Steps

/-! ### The retention in microseconds -/

end Session

namespace Settings

variable {i : Irrational} {settings : Settings (Exact i)} {seconds : Exact i}

/-- The retention is the nearest whole number of microseconds, at most the greatest there is. -/
theorem toNat_retentionMicros (retention : settings.retention = some seconds) :
    ∃ span : Micros, settings.retentionMicros = some span ∧
      span.toNat = min ⌊seconds.value * 10 ^ 6 + 1 / 2⌋₊ (2 ^ 64 - 1) := by
  refine ⟨Scalar.toMicros (seconds * microsPerSecond), by rw [retentionMicros, retention]; rfl, ?_⟩
  show (UInt64.ofNatClamp ⌊(seconds * microsPerSecond).value + 1 / 2⌋₊).toNat = _
  rw [Micros.toNat_ofNatClamp, Exact.value_mul, Exact.value_microsPerSecond]
  rfl

/-- A retention that is accepted is above zero. -/
theorem pos_of_validate (valid : settings.validate = .ok ())
    (retention : settings.retention = some seconds) : 0 < seconds.value := by
  unfold validate at valid
  split at valid
  · cases valid
  · rw [retention] at valid
    dsimp only at valid
    split at valid
    · cases valid
    next accepted =>
      rw [Exact.isFinite_eq, Bool.not_true, Bool.false_or, decide_eq_true_eq, Exact.le_iff,
        Exact.value_zero, not_le] at accepted
      exact accepted

/-- A silence of at most some microseconds is not longer than their nearest whole number, nor than
the longest there is. -/
theorem not_lt_sub_span {time heard : Micros} {micros : ℚ}
    (near : (time.toNat : ℚ) ≤ heard.toNat + micros) :
    ¬heard.toNat < time.toNat - min ⌊micros + 1 / 2⌋₊ (2 ^ 64 - 1) := by
  intro silent
  have greatest : time.toNat < 2 ^ 64 := time.toNat_lt
  have behind : heard.toNat ≤ time.toNat := by omega
  have silence : ((time.toNat - heard.toNat : ℕ) : ℚ) ≤ micros + 1 / 2 := by
    rw [Nat.cast_sub behind]
    linarith
  have whole := Nat.le_floor silence
  omega

/-- A silence longer by half a microsecond is longer than the nearest whole number of them. -/
theorem lt_sub_span {time heard : Micros} {micros : ℚ} (pos : 0 < micros)
    (far : (heard.toNat : ℚ) + micros + 1 / 2 < time.toNat) :
    heard.toNat < time.toNat - min ⌊micros + 1 / 2⌋₊ (2 ^ 64 - 1) := by
  have whole : (⌊micros + 1 / 2⌋₊ : ℚ) ≤ micros + 1 / 2 := Nat.floor_le (by linarith)
  have later : ((heard.toNat + ⌊micros + 1 / 2⌋₊ : ℕ) : ℚ) < time.toNat := by
    rw [Nat.cast_add]
    linarith
  have later : heard.toNat + ⌊micros + 1 / 2⌋₊ < time.toNat := by exact_mod_cast later
  omega

end Settings

namespace Session

variable {i : Irrational}

/-- Which objects are dropped for want of news. From every state that a session with accepted
settings can come to: without a retention no batch drops anything and nothing is ever lost from the
catalog. With one, a batch drops exactly the tracks, of those that it leaves, whose last update is
before its time less the retention in microseconds. So a track is kept by a batch that is at most
the retention newer, dropped by one that is newer by half a microsecond more than that, kept by a
batch with a sighting of it, and kept by a batch that is older than all tracks. -/
theorem retention_is_exact (settings : Settings (Exact i)) (shapes : ShapeBook (Exact i))
    (events : List (Event (Exact i))) (valid : settings.validate = .ok ()) :
    let session := ((start settings shapes).run events).1
    (settings.retention = none →
      (∀ batch receivedAt, (session.ingest batch receivedAt).2.expired = []) ∧
      ∀ later key, (session.catalog.get? key).isSome →
        ((session.run later).1.catalog.get? key).isSome) ∧
    ∀ seconds, settings.retention = some seconds → ∀ batch receivedAt,
      let entered := (session.catalog.ingest batch).1
      let after := (session.ingest batch receivedAt).1
      let expired := (session.ingest batch receivedAt).2.expired
      let span := min ⌊seconds.value * 10 ^ 6 + 1 / 2⌋₊ (2 ^ 64 - 1)
      session.Drops entered after expired (batch.serverTime.toNat - span) ∧
      (∀ key track, entered.get? key = some track →
        ((batch.serverTime.toNat : ℚ) ≤ track.lastUpdate.toNat + seconds.value * 10 ^ 6 →
          key ∉ expired) ∧
        ((track.lastUpdate.toNat : ℚ) + seconds.value * 10 ^ 6 + 1 / 2 < batch.serverTime.toNat →
          key ∈ expired)) ∧
      (∀ s ∈ batch.sightings, s.key ∉ expired) ∧
      ((∀ key track, session.catalog.get? key = some track →
        batch.serverTime < track.lastUpdate) → expired = []) := by
  intro session
  have consistent : session.Consistent shapes := (Consistent.start settings shapes).run events
  have same : session.settings = settings := (start settings shapes).settings_run events
  constructor
  · intro forever
    have forever : session.settings.retentionMicros = none := by
      rw [same, Settings.retentionMicros, forever]
      rfl
    exact ⟨fun batch receivedAt => (ingest_of_forever forever batch receivedAt).2,
      fun later key => isSome_run consistent forever later⟩
  · intro seconds retention batch receivedAt entered after expired span
    obtain ⟨micros, inMicros, micros_eq⟩ := Settings.toNat_retentionMicros retention
    have inMicros : session.settings.retentionMicros = some micros := by
      rw [same]
      exact inMicros
    have drops : session.Drops entered after expired (batch.serverTime.toNat - span) := by
      have drops := drops_ingest consistent inMicros batch receivedAt
      rw [micros_eq] at drops
      exact drops
    -- whoever is heard of at the time of the batch is not silent since an earlier one
    have kept {key : TrackKey} (heard : entered.HeardSince batch.serverTime key) :
        key ∉ expired := by
      rw [drops.mem_expired]
      rintro ⟨track, found, silent⟩
      have := UInt64.le_iff_toNat_le.mp (heard track found)
      omega
    refine ⟨drops, ?_, ?_, ?_⟩
    · intro key track found
      constructor
      · intro near
        rw [drops.mem_expired]
        rintro ⟨other, found_other, silent⟩
        rw [found] at found_other
        cases found_other
        exact Settings.not_lt_sub_span near silent
      · intro far
        have pos := Settings.pos_of_validate valid retention
        exact (drops.mem_expired key).mpr
          ⟨track, found, Settings.lt_sub_span (by positivity) far⟩
    · intro s member
      exact kept (consistent.keyed.heardSince_observeAll _ (.inl ⟨s, member, rfl⟩))
    · intro older
      refine List.eq_nil_iff_forall_not_mem.mpr fun key => ?_
      refine kept (consistent.keyed.heardSince_observeAll _ (.inr ?_))
      exact fun track found => UInt64.le_of_lt (older key track found)

/-- With a retention of two seconds, a ship silent for three is dropped by a batch that an asteroid
is seen in, and the asteroid is not. -/
theorem silent_ship_is_dropped :
    let i : Irrational := ⟨fun x => x, fun y _ => y⟩
    let settings : Settings (Exact i) := ⟨⟨3 / 2⟩, some ⟨2⟩⟩
    let seen (kind : Kind) (id : UInt64) : Sighting (Exact i) := ⟨kind, id, .zero, .zero, none⟩
    let session := ((start settings .standard).run
      [.batch ⟨0, [seen .ship 1, seen .asteroid 5], []⟩ ⟨0⟩, .tick ⟨0⟩]).1
    let expired := (session.ingest ⟨3000000, [seen .asteroid 5], []⟩ ⟨3000000000⟩).2.expired
    ⟨.ship, 1⟩ ∈ expired ∧ ⟨.asteroid, 5⟩ ∉ expired := by
  intro i settings seen
  dsimp only
  have valid : settings.validate = .ok () := by
    rw [Settings.validate, if_neg (by decide +kernel)]
    exact if_neg (by decide +kernel)
  obtain ⟨_, news, sighted, _⟩ := (retention_is_exact settings .standard
    [.batch ⟨0, [seen .ship 1, seen .asteroid 5], []⟩ ⟨0⟩, .tick ⟨0⟩] valid).2 ⟨2⟩ rfl
    ⟨3000000, [seen .asteroid 5], []⟩ ⟨3000000000⟩
  have heard : ((((start settings .standard).run
      [.batch ⟨0, [seen .ship 1, seen .asteroid 5], []⟩ ⟨0⟩, .tick ⟨0⟩]).1.catalog.ingest
        ⟨3000000, [seen .asteroid 5], []⟩).1.get? ⟨.ship, 1⟩).map Track.lastUpdate = some 0 := by
    decide +kernel
  obtain ⟨track, found, atStart⟩ := Option.map_eq_some_iff.mp heard
  have late : (track.lastUpdate.toNat : ℚ) + 2 * 10 ^ 6 + 1 / 2 < (3000000 : UInt64).toNat := by
    rw [atStart, show (3000000 : UInt64).toNat = 3000000 from rfl]
    norm_num
  exact ⟨(news _ _ found).2 late, sighted (seen .asteroid 5) List.mem_cons_self⟩

end Session

end DeadReckoning
