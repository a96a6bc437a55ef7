import DeadReckoning.Proofs.Session.Redelivery

namespace DeadReckoning

/-!
# The session — batches that come late

A track is never set back to an earlier time. A track that was dropped is forgotten, and with it the
time of its last update: the next batch with a sighting of the object makes a new track at the time
of that batch, however late it comes. So the time at which an object was last heard of goes back
only where it was dropped in between.

* `Catalog.Keyed.heard?_observeAll` — sightings of one time
* `Session.Event.TellsOf` — an event brings a sighting; `Session.Forgets` — it drops a track
* `Session.Consistent.knows_step`, `knows_run` — until a track is dropped its time does not go back
* `Session.Consistent.told_step`, `told_run` — each time is that of a batch with a sighting
* `time_goes_back_only_after_drop` — both, for a session from its start; `time_may_go_back` — a
  session where it does
-/

namespace Catalog

variable {α : Type} [Scalar α] {catalog : Catalog α} {key : TrackKey} {time : Micros}

/-- What is known after a sighting is known from before or from the sighting. -/
theorem lastUpdate_entered (track? : Option (Track α)) (s : Sighting α) (time : Micros) :
    track?.map Track.lastUpdate = some (entered track? s time).lastUpdate ∨
      (entered track? s time).lastUpdate = time := by
  cases track? with
  | none => exact .inr rfl
  | some track =>
    rw [entered, Track.advance?]
    split
    next => exact .inl rfl
    next => exact .inr rfl

namespace Keyed

/-- A track of an object that was not tracked has the time of the sightings. -/
theorem heard?_observeAll (keyed : catalog.Keyed) (sightings : List (Sighting α)) {last : Micros}
    (heard : (catalog.observeAll time sightings).1.heard? key = some last) :
    catalog.heard? key = some last ∨ last = time ∧ ∃ s ∈ sightings, s.key = key := by
  induction sightings generalizing catalog with
  | nil => exact .inl heard
  | cons s rest ih =>
    rcases ih (keyed.observe s time) heard with before | ⟨told, seen, member, own⟩
    · rw [heard?, keyed.get?_observe] at before
      by_cases own : s.key = key
      · rw [if_pos own, Option.map_some, Option.some.injEq] at before
        rcases lastUpdate_entered (catalog.get? key) s time with same | now
        · exact .inl (same.trans (congrArg some before))
        · exact .inr ⟨before.symm.trans now, s, List.mem_cons_self, own⟩
      · rw [if_neg own] at before
        exact .inl before
    · exact .inr ⟨told, seen, List.mem_cons_of_mem s member, own⟩

end Keyed

end Catalog

namespace Session

variable {α : Type} [Scalar α]

/-- An event brings a batch of a time with a sighting of an object. -/
def Event.TellsOf (event : Event α) (key : TrackKey) (time : Micros) : Prop :=
  ∃ batch receivedAt, event.delivery? = some (batch, receivedAt) ∧ batch.serverTime = time ∧
    ∃ s ∈ batch.sightings, s.key = key

/-- An event brings a batch of a time after which an object is dropped. -/
def Forgets (session : Session α) (event : Event α) (key : TrackKey) (time : Micros) : Prop :=
  ∃ receipt, (session.step event).2 = .receipt receipt ∧ receipt.serverTime = time ∧
    key ∈ receipt.expired

variable {session : Session α} {shapes : ShapeBook α} {event : Event α} {key : TrackKey}
  {time : Micros}

/-- Events that bring no batch leave the tracks alone. -/
theorem catalog_of_delivery_none (session : Session α) (none : event.delivery? = none) :
    (session.step event).1.catalog = session.catalog :=
  congrArg Tracking.catalog (session.tracked_of_delivery_none none)

/-- The receipt of a batch has its server time. -/
theorem serverTime_ingest (session : Session α) (batch : Batch α) (receivedAt : Instant) :
    (session.ingest batch receivedAt).2.serverTime = batch.serverTime := by
  unfold Session.ingest
  dsimp only
  cases session.settings.retentionMicros with
  | none => rfl
  | some span => rfl

/-- A batch only adds to what is heard of, and drops some of it. -/
theorem heard?_entered_of_heard?_ingest (consistent : session.Consistent shapes) (batch : Batch α)
    (receivedAt : Instant)
    (heard : (session.ingest batch receivedAt).1.catalog.heard? key = some time) :
    (session.catalog.ingest batch).1.heard? key = some time := by
  cases retention : session.settings.retentionMicros with
  | none =>
    rw [(ingest_of_forever retention batch receivedAt).1] at heard
    exact heard
  | some span =>
    obtain ⟨track, found, last⟩ := Catalog.heard?_eq_some_iff.mp heard
    rw [(drops_ingest consistent retention batch receivedAt).left,
      Option.filter_eq_some_iff] at found
    exact Catalog.heard?_eq_some_iff.mpr ⟨track, found.1, last⟩

namespace Consistent

/-! ### Times do not go back -/

/-- An event keeps what is known of an object, or it drops the object: its batch is later than what
is known by more than the retention. -/
theorem knows_step (consistent : session.Consistent shapes) (event : Event α)
    (known : session.catalog.Knows time key) :
    (session.step event).1.catalog.Knows time key ∨
      ∃ span dropped, session.settings.retentionMicros = some span ∧
        session.Forgets event key dropped ∧ time.toNat + span.toNat < dropped.toNat := by
  cases delivered : event.delivery? with
  | none =>
    rw [session.catalog_of_delivery_none delivered]
    exact .inl known
  | some delivery =>
    obtain ⟨batch, receivedAt⟩ := delivery
    have entered : (session.catalog.ingest batch).1.Knows time key :=
      consistent.keyed.knows_observeAll batch.sightings (.inr known)
    rw [session.step_of_delivery delivered]
    cases retention : session.settings.retentionMicros with
    | none =>
      rw [(ingest_of_forever retention batch receivedAt).1]
      exact .inl entered
    | some span =>
      have drops := drops_ingest consistent retention batch receivedAt
      obtain ⟨track, found, news⟩ := entered
      have reached := UInt64.le_iff_toNat_le.mp news
      -- the batch drops the object only if it is later than even its newest track by that much
      by_cases silent : track.lastUpdate.toNat < batch.serverTime.toNat - span.toNat
      · refine .inr ⟨span, batch.serverTime, rfl, ?_, by omega⟩
        refine ⟨(session.ingest batch receivedAt).2, ?_, session.serverTime_ingest batch receivedAt,
          (drops.mem_expired key).mpr ⟨track, found, silent⟩⟩
        rw [session.step_of_delivery delivered]
      · refine .inl ⟨track, ?_, news⟩
        rw [drops.left, found, Option.filter_some, if_pos (decide_eq_true (not_lt.mp silent))]

/-- What is known of an object stays known, until an event drops the object. -/
theorem knows_run (consistent : session.Consistent shapes) (events : List (Event α))
    (known : session.catalog.Knows time key) :
    (session.run events).1.catalog.Knows time key ∨
      ∃ span before drop after dropped, session.settings.retentionMicros = some span ∧
        events = before ++ drop :: after ∧ (session.run before).1.Forgets drop key dropped ∧
        time.toNat + span.toNat < dropped.toNat := by
  induction events generalizing session with
  | nil => exact .inl known
  | cons event rest ih =>
    rcases consistent.knows_step event known with known | ⟨span, dropped, retention, forgets, late⟩
    · rcases ih (consistent.step event) known with
        known | ⟨span, before, drop, after, dropped, retention, split, forgets, late⟩
      · exact .inl known
      · refine .inr ⟨span, event :: before, drop, after, dropped, ?_, ?_, forgets, late⟩
        · rw [← session.settings_step event, retention]
        · rw [split, List.cons_append]
    · exact .inr ⟨span, [], event, rest, dropped, retention, rfl, forgets, late⟩

/-! ### Times are told -/

/-- When an object was last heard of was known before an event, or the event tells it. -/
theorem told_step (consistent : session.Consistent shapes) (event : Event α)
    (heard : (session.step event).1.catalog.heard? key = some time) :
    session.catalog.heard? key = some time ∨ event.TellsOf key time := by
  cases delivered : event.delivery? with
  | none =>
    rw [session.catalog_of_delivery_none delivered] at heard
    exact .inl heard
  | some delivery =>
    obtain ⟨batch, receivedAt⟩ := delivery
    rw [session.step_of_delivery delivered] at heard
    have entered := heard?_entered_of_heard?_ingest consistent batch receivedAt heard
    refine (consistent.keyed.heard?_observeAll batch.sightings entered).imp_right ?_
    rintro ⟨now, seen⟩
    exact ⟨batch, receivedAt, delivered, now.symm, seen⟩

/-- When an object was last heard of was known at the start, or one of the events told it. -/
theorem told_run (consistent : session.Consistent shapes) (events : List (Event α))
    (heard : (session.run events).1.catalog.heard? key = some time) :
    session.catalog.heard? key = some time ∨
      ∃ before renew after, events = before ++ renew :: after ∧ renew.TellsOf key time := by
  induction events generalizing session with
  | nil => exact .inl heard
  | cons event rest ih =>
    rcases ih (consistent.step event) heard with middle | ⟨before, renew, after, split, tells⟩
    · refine (consistent.told_step event middle).imp_right fun tells => ?_
      exact ⟨[], event, rest, rfl, tells⟩
    · exact .inr ⟨event :: before, renew, after, congrArg (event :: ·) split, tells⟩

/-- An object that is dropped is not tracked. -/
theorem heard?_of_forgets (consistent : session.Consistent shapes)
    (forgets : session.Forgets event key time) :
    (session.step event).1.catalog.heard? key = none := by
  obtain ⟨receipt, answer, -, expired⟩ := forgets
  rw [Catalog.heard?, (consistent.forgotten_of_step event answer expired).untracked,
    Option.map_none]

/-- An object that is not tracked is tracked after news of it, at the time of the news. -/
theorem heard?_of_tellsOf (consistent : session.Consistent shapes)
    (untracked : session.catalog.heard? key = none) (tells : event.TellsOf key time) :
    (session.step event).1.catalog.heard? key = some time := by
  obtain ⟨batch, receivedAt, delivered, rfl, told⟩ := tells
  -- what a batch tells of is known after it, and not dropped by it
  obtain ⟨s, member, rfl⟩ := told
  obtain ⟨track, found, -⟩ :=
    (absorbed_ingest consistent.keyed batch receivedAt).known s member
  rw [← congrArg Prod.fst (session.step_of_delivery delivered)] at found
  have heard : (session.step event).1.catalog.heard? s.key = some track.lastUpdate :=
    Catalog.heard?_eq_some_iff.mpr ⟨track, found, rfl⟩
  rcases consistent.told_step event heard with before | ⟨other, at', same, now, -⟩
  · rw [untracked] at before
    cases before
  · rw [delivered, Option.some.injEq, Prod.mk.injEq] at same
    rw [heard, ← now, same.1]

end Consistent

/-- The time at which an object was last heard of goes back only after the object was dropped. If it
is tracked at some point of a run and tracked again later with an earlier time, then there is a
retention, the object was dropped in between by a batch later than the first time by more than the
retention, and after that a batch of exactly the second time told of it. And an object that is not
tracked, whatever was known of it before, is tracked after news of it at the time of that news. -/
theorem time_goes_back_only_after_drop (settings : Settings α) (shapes : ShapeBook α)
    (earlier between : List (Event α)) (key : TrackKey) :
    let session (events : List (Event α)) := ((start settings shapes).run events).1
    (∀ first second, (session earlier).catalog.heard? key = some first →
      (session (earlier ++ between)).catalog.heard? key = some second →
      first ≤ second ∨
        ∃ span before drop middle renew after dropped, settings.retentionMicros = some span ∧
          between = before ++ drop :: (middle ++ renew :: after) ∧
          (session (earlier ++ before)).Forgets drop key dropped ∧
          first.toNat + span.toNat < dropped.toNat ∧ renew.TellsOf key second) ∧
    ((session earlier).catalog.heard? key = none → ∀ event time, event.TellsOf key time →
      (session (earlier ++ [event])).catalog.heard? key = some time) := by
  intro session
  have consistent (events : List (Event α)) : (session events).Consistent shapes :=
    (Consistent.start settings shapes).run events
  have appended (events others : List (Event α)) :
      session (events ++ others) = ((session events).run others).1 := run_append_fst _ events others
  constructor
  · intro first second heard later
    obtain ⟨track, found, last⟩ := Catalog.heard?_eq_some_iff.mp heard
    rw [appended] at later
    rcases (consistent earlier).knows_run between ⟨track, found, UInt64.le_of_eq last.symm⟩ with
      known | ⟨span, before, drop, rest, dropped, retention, split, forgets, late⟩
    · obtain ⟨track, found, news⟩ := known
      rw [Catalog.heard?, found, Option.map_some, Option.some.injEq] at later
      exact .inl (later ▸ news)
    · -- nothing is known of the object once it is dropped, so that its second time was told since
      rw [← appended] at forgets
      have later : ((((session (earlier ++ before)).step drop).1).run rest).1.catalog.heard? key =
          some second := by
        rw [appended earlier before]
        rw [split, run_append_fst] at later
        exact later
      rcases ((consistent (earlier ++ before)).step drop).told_run rest later with
        heard | ⟨middle, renew, after, split', tells⟩
      · rw [(consistent _).heard?_of_forgets forgets] at heard
        cases heard
      · rw [show (session earlier).settings = settings from settings_run _ earlier] at retention
        rw [split'] at split
        exact .inr ⟨span, before, drop, middle, renew, after, dropped, retention, split, forgets,
          late, tells⟩
  · intro untracked event time tells
    rw [appended]
    exact (consistent earlier).heard?_of_tellsOf untracked tells

/-- With a retention of one second, a ship that was heard of at ten seconds is told by a batch of
five seconds. It can only have been dropped in between. -/
theorem ship_was_dropped_in_between :
    let settings : Settings Float := ⟨1.1, some 1.0⟩
    let ship : Sighting Float := ⟨.ship, 1, .zero, .zero, none⟩
    let between : List (Event Float) :=
      [.batch ⟨20000000, [], []⟩ ⟨1⟩, .batch ⟨5000000, [ship], []⟩ ⟨2⟩]
    let session (events : List (Event Float)) := ((start settings .standard).run events).1
    ∃ before, ∃ drop ∈ between, ∃ dropped,
      (session (.batch ⟨10000000, [ship], []⟩ ⟨0⟩ :: before)).Forgets drop ship.key dropped ∧
        10000000 < dropped.toNat := by
  intro settings ship between session
  have times := (time_goes_back_only_after_drop settings .standard
    [.batch ⟨10000000, [ship], []⟩ ⟨0⟩] between ship.key).1 10000000 5000000
    (by decide +kernel) (by decide +kernel)
  obtain ⟨span, before, drop, middle, renew, after, dropped, -, split, forgets, late, -⟩ :=
    times.resolve_left (by decide)
  have member : drop ∈ between := by
    rw [split]
    exact List.mem_append_right before List.mem_cons_self
  exact ⟨before, drop, member, dropped, forgets, (Nat.le_add_right _ span.toNat).trans_lt late⟩

/-- It is not true of all sessions that the time at which an object was last heard of never goes
back: with a retention of one second, a ship that was heard of at ten seconds is dropped at twenty,
and a batch of five seconds brings it back. -/
theorem time_may_go_back :
    ¬∀ (settings : Settings Float) (shapes : ShapeBook Float) (earlier between : List (Event Float))
      (key : TrackKey) (first second : Micros), settings.validate.isOk →
      ((start settings shapes).run earlier).1.catalog.heard? key = some first →
      ((start settings shapes).run (earlier ++ between)).1.catalog.heard? key = some second →
      first ≤ second := by
  intro never
  let ship : Sighting Float := ⟨.ship, 1, .zero, .zero, none⟩
  have same := never ⟨1.1, some 1.0⟩ .standard [.batch ⟨10000000, [ship], []⟩ ⟨0⟩]
    [.batch ⟨20000000, [], []⟩ ⟨1⟩, .batch ⟨5000000, [ship], []⟩ ⟨2⟩] ship.key 10000000 5000000
    (by decide +kernel) (by decide +kernel) (by decide +kernel)
  exact absurd same (by decide)

end Session

end DeadReckoning
