import DeadReckoning.Command.Run
import DeadReckoning.Proofs.Binary64.Special
import DeadReckoning.Proofs.Catalog.News
import DeadReckoning.Proofs.Feed.Agreement
import DeadReckoning.Proofs.Feed.Bodies
import DeadReckoning.Proofs.Feed.Lines
import DeadReckoning.Proofs.Random.Stream

namespace DeadReckoning

open Binary64 Json

/-!
# Recordings — made-up feeds are replayed without a complaint

The batches of a made-up feed come later and later, and each tells of different objects, all of
which can be written. So every message is read, and all that it says is news.

* `Batch.IsReport`, `IsRecording` — what holds of the batches of a made-up feed
* `Plan.always_record` — whatever is drawn, a plan makes a recording
* `Session.run_recording` — a session that hears a recording
* `made_up_feed_replays_cleanly` — a made-up feed, from its plan to the tally of its replay
* `Command.feed_replays_cleanly` — the feed that the command writes
-/

/-- A batch of sound sightings of different objects. -/
structure Batch.IsReport (batch : Batch Float) : Prop where
  sound : ∀ s ∈ batch.sightings, s.IsSound
  distinct : (batch.sightings.map Sighting.key).Nodup

/-- Reports that come later and later. -/
structure IsRecording (batches : List (Batch Float)) : Prop where
  reports : ∀ batch ∈ batches, batch.IsReport
  later : batches.Pairwise (·.serverTime < ·.serverTime)

namespace IsRecording

variable {batch : Batch Float} {batches : List (Batch Float)}

theorem nil : IsRecording [] := ⟨fun _ mem => absurd mem List.not_mem_nil, .nil⟩

/-- A later report can be put behind a recording. -/
theorem concat (recording : IsRecording batches) (report : batch.IsReport)
    (later : ∀ b ∈ batches, b.serverTime < batch.serverTime) :
    IsRecording (batches ++ [batch]) where
  reports b mem := by
    rcases List.mem_append.mp mem with mem | mem
    · exact recording.reports b mem
    · rw [List.mem_singleton.mp mem]
      exact report
  later := List.pairwise_append.mpr ⟨recording.later, List.pairwise_singleton _ _,
    fun b mem c only => List.mem_singleton.mp only ▸ later b mem⟩

end IsRecording

namespace Plan

/-! ### Recording -/

/-- Server times in seconds are counts of 64 bits at most. -/
theorem isWithin_seconds (time : Micros) :
    IsWithin 64 (Scalar.ofMicros time / microsPerSecond : Float) := by
  refine ⟨_, (isMagnitude_seconds time).isValue, ?_⟩
  rw [abs_of_nonneg (nearest_nonneg _)]
  exact nearest_seconds_le time

variable {σ : Type} [Chance σ]

/-- The bodies that are seen make a report, whichever they are. -/
theorem always_report {bodies : List (Body Float)} (swarm : Body.IsSwarm bodies) (time : Micros) :
    Always (report bodies time : StateM σ (Batch Float)) fun batch =>
      batch.IsReport ∧ batch.serverTime = time := by
  refine (Always.filterM _ bodies).bind fun seen part => .pure ⟨⟨?_, ?_⟩, rfl⟩
  · intro s mem
    obtain ⟨body, isSeen, rfl⟩ := List.mem_map.mp mem
    exact (swarm.steady body (part.subset isSeen)).isSound (isWithin_seconds time)
  · show ((seen.map (sightingOf time)).map Sighting.key).Nodup
    rw [List.map_map]
    exact swarm.distinct.sublist (part.map Body.key)

/-- The next batch comes later. -/
theorem lt_of_admits {plan : Plan} {time : Micros} {gap : Nat} (pos : 0 < gap)
    (admits : plan.Admits (time.after gap)) : time < time.after gap := by
  have before := admits.1
  rw [UInt64.lt_iff_toNat_lt]
  rw [Micros.toNat_after] at before ⊢
  omega

/-- Induction along the times of a feed. The next times that are admitted come nearer to the end,
so that a property may be assumed of them. -/
theorem admits_induction (plan : Plan) {P : Micros → Prop}
    (step : ∀ time, (∀ gap, 0 < gap → plan.Admits (time.after gap) → P (time.after gap)) → P time)
    (time : Micros) : P time :=
  step time fun gap _ _ => plan.admits_induction step (time.after gap)
termination_by plan.finish.toNat - time.toNat
decreasing_by exact Admits.nearer ‹_› ‹_›

/-- No two batches come at one time, whatever is drawn. -/
theorem always_nextGap_pos (interval : UInt64) :
    Always (nextGap interval : StateM σ ℕ) fun gap => 0 < gap :=
  (Always.any _).bind fun drawn _ => .pure (gapMicros_pos drawn)

/-- Recording goes on as it began. -/
theorem always_recordFrom (plan : Plan) {bodies : List (Body Float)} (swarm : Body.IsSwarm bodies)
    {earlier : List (Batch Float)} {time : Micros} (recording : IsRecording earlier.reverse)
    (before : ∀ batch ∈ earlier, batch.serverTime < time) :
    Always (recordFrom plan bodies earlier time : StateM σ (List (Batch Float))) IsRecording := by
  induction time using plan.admits_induction generalizing earlier with
  | step time ih =>
    -- the batch at hand is later than those before, and the next time is later than the batch
    rw [recordFrom_eq]
    refine (always_report swarm time).bind fun batch ⟨isReport, isNow⟩ => ?_
    refine (always_nextGap_pos _).bind fun gap pos => ?_
    have extended : IsRecording (batch :: earlier).reverse := by
      rw [List.reverse_cons]
      exact recording.concat isReport fun b mem => isNow ▸ before b (List.mem_reverse.mp mem)
    split
    next admits =>
      have next := lt_of_admits pos admits
      refine ih gap pos admits extended (List.forall_mem_cons.mpr ⟨isNow ▸ next, ?_⟩)
      exact fun b mem => UInt64.lt_trans (before b mem) next
    next => exact .pure extended

/-- Whatever is drawn, a plan makes a recording. -/
theorem always_record [LawfulChance σ] [Trigonometry] [LawfulTrigonometry] (plan : Plan) :
    Always (plan.record : StateM σ (List (Batch Float))) IsRecording :=
  (Body.always_spawnAll plan.ships plan.asteroids).bind fun _ swarm =>
    plan.always_recordFrom swarm .nil fun _ mem => absurd mem List.not_mem_nil

end Plan

/-! ### Hearing a recording -/

/-- A receipt that has nothing to complain of. -/
structure Receipt.IsClean (receipt : Receipt) : Prop where
  stale : receipt.stale = 0
  refusals : receipt.refusals = []

namespace Session

/-- The message of a batch. -/
def tell (receivedAt : Instant) (batch : Batch Float) : Event Float :=
  .message (Batch.write batch.serverTime batch.sightings) receivedAt

/-- A report that is later than all tracks is taken in as a whole. -/
theorem step_report {session : Session Float} (keyed : session.catalog.Keyed) {batch : Batch Float}
    (report : batch.IsReport)
    (news : ∀ key track, session.catalog.get? key = some track →
      track.lastUpdate < batch.serverTime) (receivedAt : Instant) :
    ∃ receipt, (session.step (tell receivedAt batch)).2 = .receipt receipt ∧ receipt.IsClean ∧
      receipt.accepted = batch.sightings.length ∧
      (session.step (tell receivedAt batch)).1.catalog.Keyed ∧
      (session.step (tell receivedAt batch)).1.catalog.UpTo batch.serverTime := by
  let read : Batch Float := ⟨batch.serverTime, batch.sightings.map (·.map reread), []⟩
  have parsed : Batch.parse (Batch.write batch.serverTime batch.sightings) = .ok read :=
    Batch.parse_write _ report.sound
  -- the numbers that are read may be others, but they are told of the same objects
  have distinct : (read.sightings.map Sighting.key).Nodup := by
    show ((batch.sightings.map (·.map reread)).map Sighting.key).Nodup
    rw [List.map_map]
    exact report.distinct
  obtain ⟨stale, keyed', upTo⟩ := ingest_of_news keyed distinct news receivedAt
  rw [tell, session.step_message_ok parsed, map_ofFloat]
  refine ⟨(session.ingest read receivedAt).2, rfl, ⟨stale, ?_⟩, ?_, keyed', upTo⟩
  · exact refusals_ingest session read receivedAt
  · rw [accepted_ingest]
    exact List.length_map _

/-- A session that hears a recording has nothing to complain of. -/
theorem run_recording {session : Session Float} (keyed : session.catalog.Keyed)
    {batches : List (Batch Float)} (recording : IsRecording batches)
    (news : ∀ batch ∈ batches, ∀ key track, session.catalog.get? key = some track →
      track.lastUpdate < batch.serverTime) (receivedAt : Instant) :
    ∃ receipts : List Receipt, (session.run (batches.map (tell receivedAt))).2 =
        receipts.map Reply.receipt ∧
      List.Forall₂ (fun batch receipt => receipt.IsClean ∧
        receipt.accepted = batch.sightings.length) batches receipts := by
  -- all tracks are older than the batches that are still to come
  induction batches generalizing session with
  | nil => exact ⟨[], rfl, .nil⟩
  | cons batch rest ih =>
    obtain ⟨reports, later⟩ := recording
    rw [List.forall_mem_cons] at reports news
    rw [List.pairwise_cons] at later
    obtain ⟨receipt, answer, clean, accepted, keyed', upTo⟩ :=
      step_report keyed reports.1 news.1 receivedAt
    have news' : ∀ next ∈ rest, ∀ key track,
        (session.step (tell receivedAt batch)).1.catalog.get? key = some track →
          track.lastUpdate < next.serverTime := fun next mem key track found =>
      UInt64.lt_of_le_of_lt (upTo key track found) (later.1 next mem)
    obtain ⟨receipts, answers, all⟩ := ih keyed' ⟨reports.2, later.2⟩ news'
    refine ⟨receipt :: receipts, ?_, .cons ⟨clean, accepted⟩ all⟩
    rw [List.map_cons, replies_cons, answer, answers, List.map_cons]

end Session

/-! ### Replaying a recording -/

/-- Every message of a recording is read and gets a clean receipt. -/
theorem receipts_of_recording {batches : List (Batch Float)} (recording : IsRecording batches)
    (settings : Settings Float) (framesPerSecond : UInt64) :
    let cues := replay settings framesPerSecond ((writeFeed batches).map Batch.parse)
    cues.countP Cue.isDropped = 0 ∧
      List.Forall₂ (fun batch receipt => receipt.IsClean ∧
        receipt.accepted = batch.sightings.length) batches (cues.filterMap Cue.receipt?) := by
  have keyed : (Session.start settings .standard).catalog.Keyed := Catalog.keyed_empty
  have news : ∀ batch ∈ batches, ∀ key track,
      (Session.start settings .standard).catalog.get? key = some track →
        track.lastUpdate < batch.serverTime := by
    intro batch _ key track found
    rw [Session.start, Catalog.get?_empty] at found
    cases found
  obtain ⟨receipts, answers, all⟩ := Session.run_recording keyed recording news (.ofMicros 0)
  -- a replay takes in what a session does that hears the same messages
  let messages := batches.map fun batch =>
    (Batch.write batch.serverTime batch.sightings, Instant.ofMicros 0)
  have feed : (writeFeed batches).map Batch.parse = messages.map fun m => Batch.parse m.1 := by
    rw [writeFeed, List.map_map, List.map_map]
    rfl
  have heard : messages.map (fun m => Session.Event.message m.1 m.2) =
      batches.map (Session.tell (.ofMicros 0)) := List.map_map
  obtain ⟨same, dropped⟩ := replay_messages settings framesPerSecond messages
  rw [← feed, heard, answers] at same dropped
  have kept : (receipts.map Session.Reply.receipt).filterMap Session.Reply.receipt? = receipts := by
    rw [List.filterMap_map]
    exact List.filterMap_some
  have noneDropped : (receipts.map Session.Reply.receipt).countP Session.Reply.isDropped = 0 := by
    rw [List.countP_eq_zero]
    intro reply mem
    obtain ⟨receipt, -, rfl⟩ := List.mem_map.mp mem
    exact Bool.false_ne_true
  dsimp only
  rw [same, kept, dropped, noneDropped]
  exact ⟨rfl, all⟩

/-- The counts of clean receipts. -/
theorem Receipt.totals_of_clean {batches : List (Batch Float)} {receipts : List Receipt}
    (all : List.Forall₂ (fun batch receipt => receipt.IsClean ∧
      receipt.accepted = batch.sightings.length) batches receipts) :
    Tally.total receipts (fun receipt => receipt.accepted + receipt.refusals.length) =
        (batches.map (·.sightings.length)).sum ∧
      Tally.total receipts (fun receipt => receipt.refusals.length) = 0 ∧
      Tally.total receipts (fun receipt => receipt.stale) = 0 := by
  induction all with
  | nil => exact ⟨rfl, rfl, rfl⟩
  | @cons batch receipt batches receipts first _ ih =>
    obtain ⟨⟨stale, refusals⟩, accepted⟩ := first
    obtain ⟨items, refused, old⟩ := ih
    unfold Tally.total at *
    simp [stale, refusals, accepted, items, refused, old]

/-- The text of a recording is replayed line by line, and all that it says is news. -/
theorem tally_of_recording {batches : List (Batch Float)} (recording : IsRecording batches)
    (settings : Settings Float) (framesPerSecond : UInt64) :
    let lines := writeFeed batches
    let text := String.join (lines.map (· ++ "\n"))
    let tally := Tally.ofCues (replay settings framesPerSecond (readFeed text.toList))
    tally.batches = lines.length ∧ tally.dropped = 0 ∧ tally.refused = 0 ∧ tally.stale = 0 ∧
      tally.items = (batches.map (·.sightings.length)).sum := by
  intro lines text tally
  obtain ⟨dropped, all⟩ := receipts_of_recording recording settings framesPerSecond
  rw [← readFeed_writeFeed] at dropped all
  obtain ⟨items, refused, stale⟩ := Receipt.totals_of_clean all
  have count : lines.length = batches.length := List.length_map _
  dsimp only [tally, Tally.ofCues]
  exact ⟨all.length_eq.symm.trans count.symm, dropped, refused, stale, items⟩

/-- A made-up feed is replayed without a complaint, whatever was planned and drawn and whatever the
settings: every line is a message, and every sighting in it is news. -/
theorem made_up_feed_replays_cleanly [Trigonometry] [LawfulTrigonometry] {σ : Type} [Chance σ]
    [LawfulChance σ] (plan : Plan) (source : σ) (settings : Settings Float)
    (framesPerSecond : UInt64) :
    let batches := (plan.record source).1
    let lines := writeFeed batches
    let text := String.join (lines.map (· ++ "\n"))
    let tally := Tally.ofCues (replay settings framesPerSecond (readFeed text.toList))
    tally.batches = lines.length ∧ tally.dropped = 0 ∧ tally.refused = 0 ∧ tally.stale = 0 ∧
      tally.items = (batches.map (·.sightings.length)).sum :=
  tally_of_recording (plan.always_record source) settings framesPerSecond

/-- A ship and an asteroid, drawn at the low ends, so that the ship's course is along the first
axis: four sightings in two batches. -/
theorem two_batches_replay_cleanly :
    @LawfulTrigonometry straightAhead ∧ LawfulChance Lowest ∧
      let batches := (@Plan.record Lowest _ straightAhead ⟨1, 1, 0.2, 250⟩ .source).1
      let text := String.join ((writeFeed batches).map (· ++ "\n"))
      let tally := Tally.ofCues (replay .standard 60 (readFeed text.toList))
      tally.batches = 2 ∧ tally.dropped = 0 ∧ tally.refused = 0 ∧ tally.stale = 0 ∧
        tally.items = 4 := by
  refine ⟨lawful_straightAhead, inferInstance, ?_⟩
  -- the plan is recorded once, and how many sightings there are is known from the batches
  have sizes : (@Plan.record Lowest _ straightAhead ⟨1, 1, 0.2, 250⟩ .source).1.map
      (·.sightings.length) = [2, 2] := by decide +kernel
  obtain ⟨count, dropped, refused, stale, items⟩ :=
    @made_up_feed_replays_cleanly straightAhead lawful_straightAhead Lowest _ _
      ⟨1, 1, 0.2, 250⟩ .source .standard 60
  have lines := congrArg List.length sizes
  rw [List.length_map] at lines
  refine ⟨count.trans ?_, dropped, refused, stale, items.trans ?_⟩
  · rw [writeFeed, List.length_map, lines]
    rfl
  · rw [sizes]
    rfl

/-- So is the file that the command writes, for whatever arguments. -/
theorem Command.feed_replays_cleanly [LawfulTrigonometry] (args : List String)
    (settings : Settings Float) (framesPerSecond : UInt64) :
    let lines := Command.feedOf args
    let text := String.join (lines.map (· ++ "\n"))
    let tally :=
      Tally.ofCues (DeadReckoning.replay settings framesPerSecond (readFeed text.toList))
    tally.batches = lines.length ∧ tally.dropped = 0 ∧ tally.refused = 0 ∧ tally.stale = 0 := by
  let source := ChaCha.ofSeed (Arguments.numberOf wordLiteral? "--seed" Command.standardSeed args)
  have written : Command.feedOf args = writeFeed ((Command.planOf args).record source).1 := rfl
  have recording := (Command.planOf args).always_record source
  obtain ⟨count, dropped, refused, stale, -⟩ :=
    tally_of_recording recording settings framesPerSecond
  rw [written]
  exact ⟨count, dropped, refused, stale⟩

end DeadReckoning
