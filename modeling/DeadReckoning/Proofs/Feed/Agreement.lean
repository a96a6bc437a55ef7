import DeadReckoning.Feed.Replay
import DeadReckoning.Proofs.Session.Independence
import Mathlib.Algebra.GroupWithZero.Nat
import Mathlib.Data.List.Basic

namespace DeadReckoning

/-!
# Replay — what is counted does not hang on the frames

A replay takes in the batches of a feed as a session does that hears the same messages. The frames
that it draws in between change the drawing only, and messages that are not readable change nothing.
So the tally of a replay is that of the messages, at every number of frames per second.

* `Session.SameStock` — two sessions that track alike; `SameStock.ingest`: a batch does the same to
  both, whenever it comes
* `Playback.SameAccount` — two replays that differ in their frames
* `Playback.SameShow` — two replays that differ in what was not readable
* `takeAll_messages` — a replay and the messages of its feed
* `Tally.ofCues_unframed`, `Tally.ofCues_undropped` — tallies without frames, or without what was
  not readable
* `replay_agrees_with_messages` — all of it for the text of a feed
-/

namespace Session

variable {α : Type}

/-- Two sessions have the same settings and the same tracks. -/
structure SameStock (s t : Session α) : Prop where
  settings : s.settings = t.settings
  catalog : s.catalog = t.catalog

theorem SameStock.refl (s : Session α) : SameStock s s := ⟨rfl, rfl⟩

/-- Settings and tracks are part of what is tracked. -/
theorem SameStock.of_tracked {s t : Session α} (same : s.tracked = t.tracked) : SameStock s t :=
  ⟨congrArg Tracking.settings same, congrArg Tracking.catalog same⟩

theorem SameStock.trans {r s t : Session α} (first : SameStock r s) (second : SameStock s t) :
    SameStock r t := ⟨first.settings.trans second.settings, first.catalog.trans second.catalog⟩

variable [Scalar α]

/-- What a batch does to the tracks, and what becomes of it, does not depend on when it comes. -/
theorem SameStock.ingest {s t : Session α} (same : SameStock s t) (batch : Batch α)
    (receivedAt otherwise : Instant) :
    SameStock (s.ingest batch receivedAt).1 (t.ingest batch otherwise).1 ∧
      (s.ingest batch receivedAt).2 = (t.ingest batch otherwise).2 := by
  unfold Session.ingest
  dsimp only
  rw [same.settings, same.catalog]
  cases t.settings.retentionMicros with
  | none => exact ⟨⟨rfl, rfl⟩, rfl⟩
  | some span => exact ⟨⟨rfl, rfl⟩, rfl⟩

end Session

namespace Playback

variable {α : Type} [Scalar α] (period : Nat)

/-! ### Frames -/

/-- Frames change the drawing only. -/
@[simp] theorem tracked_drawFrames (count : Nat) (playback : Playback α) :
    (playback.drawFrames period count).session.tracked = playback.session.tracked := by
  induction count generalizing playback with
  | zero => rfl
  | succ count ih => exact ih (playback.drawFrame period)

/-- Frames are drawn at even distances. -/
@[simp] theorem nextFrame_drawFrames (count : Nat) (playback : Playback α) :
    (playback.drawFrames period count).nextFrame = playback.nextFrame + count * period := by
  induction count generalizing playback with
  | zero => simp [drawFrames]
  | succ count ih =>
    rw [drawFrames, ih, Nat.succ_mul]
    show playback.nextFrame + period + count * period = _
    omega

/-- Apart from frames nothing happens while frames are drawn. -/
theorem unframed_drawFrames (count : Nat) (playback : Playback α) :
    (playback.drawFrames period count).cues.filter (!·.isFrame) =
      playback.cues.filter (!·.isFrame) := by
  induction count generalizing playback with
  | zero => rfl
  | succ count ih => exact ih (playback.drawFrame period)

/-- Takes in a batch without drawing frames. -/
def enter (playback : Playback α) (batch : Batch α) (base : Micros) (offset : Nat) : Playback α :=
  let ingested := playback.session.ingest batch (.ofMicros offset)
  let misses := batch.sightings.filterMap (playback.session.catalog.missOf? batch.serverTime)
  { playback with
    session := ingested.1
    base := some base
    cues := .delivery ingested.2 misses :: playback.cues }

/-- A batch is taken in after the frames that are drawn before it. -/
theorem deliver_eq (playback : Playback α) (batch : Batch α) :
    let base := playback.base.getD batch.serverTime
    let offset := arrival base batch.serverTime
    playback.deliver period batch =
      (playback.drawFrames period (framesDue period playback.nextFrame offset)).enter batch base
        offset := rfl

/-! ### Replays that differ in their frames -/

/-- Two replays track alike, and apart from frames the same has happened in both. -/
structure SameAccount (p q : Playback α) : Prop where
  stock : Session.SameStock p.session q.session
  cues : p.cues.filter (!·.isFrame) = q.cues.filter (!·.isFrame)

namespace SameAccount

variable {p q : Playback α} (same : SameAccount p q) (other : Nat)

include same

theorem drawFrames (count otherCount : Nat) :
    SameAccount (p.drawFrames period count) (q.drawFrames other otherCount) := by
  constructor
  · have drawn := Session.SameStock.of_tracked (tracked_drawFrames period count p)
    have otherwise := Session.SameStock.of_tracked (tracked_drawFrames other otherCount q)
    exact ⟨drawn.settings.trans (same.stock.settings.trans otherwise.settings.symm),
      drawn.catalog.trans (same.stock.catalog.trans otherwise.catalog.symm)⟩
  · rw [unframed_drawFrames, unframed_drawFrames]
    exact same.cues

/-- A batch has the same outcome in both, whenever it is taken in. -/
theorem enter (batch : Batch α) (base otherBase : Micros) (offset otherOffset : Nat) :
    SameAccount (p.enter batch base offset) (q.enter batch otherBase otherOffset) := by
  obtain ⟨stock, receipts⟩ := same.stock.ingest batch (.ofMicros offset) (.ofMicros otherOffset)
  refine ⟨stock, ?_⟩
  show Cue.delivery _ _ :: p.cues.filter _ = Cue.delivery _ _ :: q.cues.filter _
  rw [receipts, same.stock.catalog, same.cues]

/-- A message makes the same of both. -/
theorem take (message : Except BatchError (Batch α)) :
    SameAccount (p.take period message) (q.take other message) := by
  cases message with
  | error e => exact ⟨same.stock, congrArg (Cue.dropped e :: ·) same.cues⟩
  | ok batch => exact (same.drawFrames period other _ _).enter batch _ _ _ _

/-- A feed makes the same of both. -/
theorem takeAll (feed : List (Except BatchError (Batch α))) :
    SameAccount (p.takeAll period feed) (q.takeAll other feed) := by
  induction feed generalizing p q with
  | nil => exact same
  | cons message rest ih => exact ih (same.take period other message)

end SameAccount

/-! ### Replays that differ in what was not readable -/

/-- Two replays are in the same state, and apart from what was not readable the same has happened in
both. -/
structure SameShow (p q : Playback α) : Prop where
  session : p.session = q.session
  base : p.base = q.base
  nextFrame : p.nextFrame = q.nextFrame
  cues : p.cues.filter (!·.isDropped) = q.cues.filter (!·.isDropped)

namespace SameShow

variable {p q : Playback α}

/-- A frame shows the same in both. -/
theorem drawFrame (same : SameShow p q) :
    SameShow (p.drawFrame period) (q.drawFrame period) := by
  obtain ⟨session, base, nextFrame, cues⟩ := same
  constructor
  · show (p.session.tick _).1 = (q.session.tick _).1
    rw [session, nextFrame]
  · exact base
  · show p.nextFrame + period = q.nextFrame + period
    rw [nextFrame]
  · show Cue.frame _ _ :: p.cues.filter _ = Cue.frame _ _ :: q.cues.filter _
    rw [session, nextFrame, cues]

theorem drawFrames (same : SameShow p q) (count : Nat) :
    SameShow (p.drawFrames period count) (q.drawFrames period count) := by
  induction count generalizing p q with
  | zero => exact same
  | succ count ih => exact ih (same.drawFrame period)

theorem enter (same : SameShow p q) (batch : Batch α) (base : Micros) (offset : Nat) :
    SameShow (p.enter batch base offset) (q.enter batch base offset) := by
  obtain ⟨session, -, nextFrame, cues⟩ := same
  refine ⟨?_, rfl, nextFrame, ?_⟩
  · show (p.session.ingest _ _).1 = (q.session.ingest _ _).1
    rw [session]
  · show Cue.delivery _ _ :: p.cues.filter _ = Cue.delivery _ _ :: q.cues.filter _
    rw [session, cues]

theorem deliver (same : SameShow p q) (batch : Batch α) :
    SameShow (p.deliver period batch) (q.deliver period batch) := by
  rw [deliver_eq, deliver_eq, same.base, same.nextFrame]
  exact (same.drawFrames period _).enter batch _ _

/-- A replay goes on as it does without what is not readable. -/
theorem takeAll (same : SameShow p q) (feed : List (Except BatchError (Batch α))) :
    SameShow (p.takeAll period feed) (q.takeAll period (feed.filter (·.isOk))) := by
  induction feed generalizing p q with
  | nil => exact same
  | cons message rest ih =>
    cases message with
    | error e => exact ih ⟨same.session, same.base, same.nextFrame, same.cues⟩
    | ok batch => exact ih (same.deliver period batch)

end SameShow

end Playback

/-! ### Tallies -/

namespace Cue

variable {α : Type}

/-- What is left out without a receipt does not change the receipts. -/
theorem receipts_filter {keep : Cue α → Bool}
    (quiet : ∀ cue, keep cue = false → cue.receipt? = none) (cues : List (Cue α)) :
    (cues.filter keep).filterMap receipt? = cues.filterMap receipt? := by
  rw [List.filterMap_filter]
  apply List.filterMap_congr
  intro cue _
  by_cases kept : keep cue
  · rw [if_pos kept]
  · rw [if_neg kept, quiet cue (by simpa using kept)]

/-- What is left out without a miss does not change the misses. -/
theorem misses_filter {keep : Cue α → Bool} (quiet : ∀ cue, keep cue = false → cue.misses = [])
    (cues : List (Cue α)) : (cues.filter keep).flatMap misses = cues.flatMap misses := by
  induction cues with
  | nil => rfl
  | cons cue rest ih =>
    by_cases kept : keep cue
    · rw [List.filter_cons_of_pos kept, List.flatMap_cons, List.flatMap_cons, ih]
    · have none : cue.misses = [] := quiet cue (by simpa using kept)
      rw [List.filter_cons_of_neg kept, List.flatMap_cons, none, List.nil_append, ih]

/-- Frames come without receipts and misses. -/
theorem quiet_of_isFrame (cue : Cue α) (h : (!cue.isFrame) = false) :
    cue.receipt? = none ∧ cue.misses = [] := by
  cases cue with
  | frame offset frame => exact ⟨rfl, rfl⟩
  | delivery receipt misses => cases h
  | dropped e => cases h

/-- So does what was not readable. -/
theorem quiet_of_isDropped (cue : Cue α) (h : (!cue.isDropped) = false) :
    cue.receipt? = none ∧ cue.misses = [] := by
  cases cue with
  | frame offset frame => cases h
  | delivery receipt misses => cases h
  | dropped e => exact ⟨rfl, rfl⟩

/-- Leaving out the frames leaves out no message that was dropped. -/
theorem countP_isDropped_unframed (cues : List (Cue α)) :
    (cues.filter (!·.isFrame)).countP isDropped = cues.countP isDropped := by
  rw [List.countP_filter]
  apply List.countP_congr
  intro cue _
  cases cue <;> simp [isDropped, isFrame]

/-- Leaving out the dropped messages leaves out no frame. -/
theorem countP_isFrame_undropped (cues : List (Cue α)) :
    (cues.filter (!·.isDropped)).countP isFrame = cues.countP isFrame := by
  rw [List.countP_filter]
  apply List.countP_congr
  intro cue _
  cases cue <;> simp [isDropped, isFrame]

end Cue

namespace Tally

variable {α : Type} [Scalar α]

/-- A tally of some of what happened, if nothing that was received or missed is left out. -/
theorem ofCues_filter {keep : Cue α → Bool}
    (quiet : ∀ cue, keep cue = false → cue.receipt? = none ∧ cue.misses = [])
    (cues : List (Cue α)) :
    ofCues (cues.filter keep) = { ofCues cues with
      dropped := (cues.filter keep).countP Cue.isDropped
      frames := (cues.filter keep).countP Cue.isFrame } := by
  unfold ofCues
  rw [Cue.receipts_filter fun cue left => (quiet cue left).1,
    Cue.misses_filter fun cue left => (quiet cue left).2]

/-- The tally without the frames. -/
theorem ofCues_unframed (cues : List (Cue α)) :
    ofCues (cues.filter (!·.isFrame)) = { ofCues cues with frames := 0 } := by
  have none : (cues.filter (!·.isFrame)).countP Cue.isFrame = 0 := by
    rw [List.countP_eq_zero]
    intro cue kept
    simpa using (List.mem_filter.mp kept).2
  rw [ofCues_filter Cue.quiet_of_isFrame, Cue.countP_isDropped_unframed, none]
  rfl

/-- The tally without what was not readable. -/
theorem ofCues_undropped (cues : List (Cue α)) :
    ofCues (cues.filter (!·.isDropped)) = { ofCues cues with dropped := 0 } := by
  have none : (cues.filter (!·.isDropped)).countP Cue.isDropped = 0 := by
    rw [List.countP_eq_zero]
    intro cue kept
    simpa using (List.mem_filter.mp kept).2
  rw [ofCues_filter Cue.quiet_of_isDropped, Cue.countP_isFrame_undropped, none]
  rfl

end Tally

/-! ### Messages of a feed -/

namespace Session

/-- A message was not readable. -/
def Reply.isDropped : Reply → Bool
  | dropped _ => true
  | _ => false

/-- The first event is answered before the others. -/
theorem replies_cons {α : Type} [Scalar α] (session : Session α) (event : Event α)
    (rest : List (Event α)) : (session.run (event :: rest)).2 =
      (session.step event).2 :: ((session.step event).1.run rest).2 := rfl

/-- Doubles are taken over as they are. -/
theorem map_ofFloat (batch : Batch Float) : (batch.map Scalar.ofFloat : Batch Float) = batch := by
  have sighting (s : Sighting Float) : (s.map Scalar.ofFloat : Sighting Float) = s := by
    obtain ⟨kind, id, position, velocity, radius⟩ := s
    cases radius <;> rfl
  obtain ⟨serverTime, sightings, refusals⟩ := batch
  show Batch.mk serverTime (sightings.map fun s => (s.map Scalar.ofFloat : Sighting Float)) _ = _
  simp [sighting]

end Session

namespace Playback

/-- Frames give no receipts. -/
theorem receipts_drawFrames {α : Type} [Scalar α] (period count : Nat) (playback : Playback α) :
    (playback.drawFrames period count).cues.filterMap Cue.receipt? =
      playback.cues.filterMap Cue.receipt? := by
  have quiet (cue : Cue α) (h : (!cue.isFrame) = false) := (Cue.quiet_of_isFrame cue h).1
  rw [← Cue.receipts_filter quiet, unframed_drawFrames, Cue.receipts_filter quiet]

/-- No message is dropped while frames are drawn. -/
theorem countP_isDropped_drawFrames {α : Type} [Scalar α] (period count : Nat)
    (playback : Playback α) :
    (playback.drawFrames period count).cues.countP Cue.isDropped =
      playback.cues.countP Cue.isDropped := by
  rw [← Cue.countP_isDropped_unframed, unframed_drawFrames, Cue.countP_isDropped_unframed]

/-- A batch that is taken in comes to the same receipt as in a session that tracks alike. -/
theorem enter_ingest {α : Type} [Scalar α] {playback : Playback α} {session : Session α}
    (same : Session.SameStock playback.session session) (batch : Batch α) (base : Micros)
    (offset : Nat) (receivedAt : Instant) :
    let after := playback.enter batch base offset
    let heard := session.ingest batch receivedAt
    Session.SameStock after.session heard.1 ∧
      after.cues.filterMap Cue.receipt? = heard.2 :: playback.cues.filterMap Cue.receipt? ∧
      after.cues.countP Cue.isDropped = playback.cues.countP Cue.isDropped := by
  obtain ⟨stock, receipt⟩ := same.ingest batch (.ofMicros offset) receivedAt
  refine ⟨stock, ?_, ?_⟩
  · show (playback.session.ingest _ _).2 :: _ = _
    rw [receipt]
  · exact List.countP_cons_of_neg Bool.false_ne_true

variable (period : Nat) {playback : Playback Float} {session : Session Float}

/-- What a message does to a replay it does to a session that tracks alike. -/
theorem take_message (same : Session.SameStock playback.session session) (text : String)
    (receivedAt : Instant) :
    let after := playback.take period (Batch.parse text)
    let heard := session.step (.message text receivedAt)
    Session.SameStock after.session heard.1 ∧
      after.cues.filterMap Cue.receipt? =
        heard.2.receipt?.toList ++ playback.cues.filterMap Cue.receipt? ∧
      after.cues.countP Cue.isDropped =
        playback.cues.countP Cue.isDropped + if heard.2.isDropped then 1 else 0 := by
  cases parsed : Batch.parse text with
  | error e =>
    rw [session.step_message_error parsed]
    exact ⟨same, rfl, List.countP_cons⟩
  | ok batch =>
    rw [session.step_message_ok parsed, Session.map_ofFloat]
    -- the frames before the batch have left the tracks alone
    have drawn (count : Nat) :
        Session.SameStock (playback.drawFrames period count).session session :=
      (Session.SameStock.of_tracked (tracked_drawFrames period count playback)).trans same
    obtain ⟨stock, receipts, dropped⟩ := (enter_ingest (drawn _) batch _ _ receivedAt)
    refine ⟨stock, receipts.trans ?_, dropped.trans ?_⟩
    · rw [receipts_drawFrames]
      rfl
    · rw [countP_isDropped_drawFrames]
      rfl

/-- A replay of messages comes to the receipts of a session that hears them, and drops as many. -/
theorem takeAll_messages (same : Session.SameStock playback.session session)
    (messages : List (String × Instant)) :
    let after := playback.takeAll period (messages.map fun m => Batch.parse m.1)
    let replies := (session.run (messages.map fun m => .message m.1 m.2)).2
    after.cues.filterMap Cue.receipt? =
        (replies.filterMap Session.Reply.receipt?).reverse ++ playback.cues.filterMap Cue.receipt? ∧
      after.cues.countP Cue.isDropped =
        playback.cues.countP Cue.isDropped + replies.countP Session.Reply.isDropped := by
  induction messages generalizing playback session with
  | nil => exact ⟨rfl, rfl⟩
  | cons message rest ih =>
    obtain ⟨text, receivedAt⟩ := message
    obtain ⟨stock, receipts, dropped⟩ := take_message period same text receivedAt
    -- what happened last stands first in the replay, whereas the session answers in order
    obtain ⟨others, others_dropped⟩ := ih stock
    rw [List.map_cons, List.map_cons, Session.replies_cons]
    dsimp only
    rw [List.filterMap_cons, List.countP_cons]
    constructor
    · refine others.trans ?_
      rw [receipts]
      cases (session.step (.message text receivedAt)).2.receipt? with
      | none => rfl
      | some receipt => simp
    · refine others_dropped.trans ?_
      rw [dropped]
      omega

end Playback

/-! ### Replays of a feed -/

/-- The receipts of a replay are those of a session that hears the messages, and what was dropped is
as much. -/
theorem replay_messages (settings : Settings Float) (framesPerSecond : UInt64)
    (messages : List (String × Instant)) :
    let cues := replay settings framesPerSecond (messages.map fun m => Batch.parse m.1)
    let replies :=
      ((Session.start settings .standard).run (messages.map fun m => .message m.1 m.2)).2
    cues.filterMap Cue.receipt? = replies.filterMap Session.Reply.receipt? ∧
      cues.countP Cue.isDropped = replies.countP Session.Reply.isDropped := by
  have same : Session.SameStock (Playback.start settings).session
      (Session.start settings .standard) := ⟨rfl, rfl⟩
  obtain ⟨receipts, dropped⟩ :=
    Playback.takeAll_messages (framePeriod framesPerSecond) same messages
  dsimp only
  rw [replay, List.filterMap_reverse, List.countP_reverse, receipts, dropped]
  simp [Playback.start]

/-- Apart from frames the same happens at every number of frames per second. -/
theorem replay_unframed {α : Type} [Scalar α] (settings : Settings α) (rate other : UInt64)
    (feed : List (Except BatchError (Batch α))) :
    (replay settings rate feed).filter (!·.isFrame) =
      (replay settings other feed).filter (!·.isFrame) := by
  have same : Playback.SameAccount (Playback.start settings) (Playback.start settings) :=
    ⟨.refl _, rfl⟩
  rw [replay, replay, List.filter_reverse, List.filter_reverse,
    (same.takeAll (framePeriod rate) (framePeriod other) feed).cues]

/-- Apart from what was not readable the same happens without it. -/
theorem replay_undropped {α : Type} [Scalar α] (settings : Settings α) (framesPerSecond : UInt64)
    (feed : List (Except BatchError (Batch α))) :
    (replay settings framesPerSecond feed).filter (!·.isDropped) =
      (replay settings framesPerSecond (feed.filter (·.isOk))).filter (!·.isDropped) := by
  have same : Playback.SameShow (Playback.start settings) (Playback.start settings) :=
    ⟨rfl, rfl, rfl, rfl⟩
  rw [replay, replay, List.filter_reverse, List.filter_reverse,
    (same.takeAll (framePeriod framesPerSecond) feed).cues]

/-- The readable messages of a feed come from the readable lines of its text. -/
theorem filter_isOk_readFeed (text : List Char) :
    (readFeed text).filter (·.isOk) =
      (((Text.lines text).filter fun line => (Batch.parse (String.ofList line)).isOk).filter
        fun line => !Text.isBlank line).map fun line => Batch.parse (String.ofList line) := by
  rw [readFeed, List.filter_map, List.filter_comm]
  rfl

/-- A replay of the text of a feed comes to the counts of a session that hears its messages, blank
lines left out, at whatever instants they come. The number of frames per second makes a difference
to the frames only. Lines that are not readable are counted as dropped and change nothing else,
and blank lines are of no account. -/
theorem replay_agrees_with_messages (settings : Settings Float) (framesPerSecond : UInt64)
    (text : List Char) :
    let tally (rate : UInt64) (text : List Char) :=
      Tally.ofCues (replay settings rate (readFeed text))
    let isMessage (line : List Char) := !Text.isBlank line
    let isReadable (line : List Char) := (Batch.parse (String.ofList line)).isOk
    (∀ instants : Nat → Instant,
      let events := ((Text.lines text).filter isMessage).zipIdx.map fun (line, n) =>
        Session.Event.message (String.ofList line) (instants n)
      let replies := ((Session.start settings .standard).run events).2
      let receipts := replies.filterMap Session.Reply.receipt?
      (tally framesPerSecond text).batches = receipts.length ∧
        (tally framesPerSecond text).dropped = replies.countP Session.Reply.isDropped ∧
        (tally framesPerSecond text).items =
          (receipts.map fun receipt => receipt.accepted + receipt.refusals.length).sum ∧
        (tally framesPerSecond text).refused =
          (receipts.map fun receipt => receipt.refusals.length).sum ∧
        (tally framesPerSecond text).stale = (receipts.map fun receipt => receipt.stale).sum) ∧
    (∀ rate, { tally rate text with frames := 0 } =
      { tally framesPerSecond text with frames := 0 }) ∧
    (∀ other, (Text.lines other).filter isReadable = (Text.lines text).filter isReadable →
      { tally framesPerSecond other with dropped := 0 } =
        { tally framesPerSecond text with dropped := 0 }) ∧
    ∀ other, (Text.lines other).filter isMessage = (Text.lines text).filter isMessage →
      replay settings framesPerSecond (readFeed other) =
        replay settings framesPerSecond (readFeed text) := by
  intro tally isMessage isReadable
  refine ⟨?_, ?_, ?_, ?_⟩
  · intro instants events replies receipts
    -- the instants are those of the session, and a replay makes no use of them
    let messages := ((Text.lines text).filter isMessage).zipIdx.map fun (line, n) =>
      (String.ofList line, instants n)
    have feed : messages.map (fun m => Batch.parse m.1) = readFeed text := by
      calc messages.map (fun m => Batch.parse m.1)
          = (((Text.lines text).filter isMessage).zipIdx.map Prod.fst).map
              fun line => Batch.parse (String.ofList line) := by
            rw [List.map_map, List.map_map]
            rfl
        _ = readFeed text := by
            rw [List.zipIdx_map_fst]
            rfl
    have heard : messages.map (fun m => Session.Event.message m.1 m.2) = events :=
      List.map_map
    obtain ⟨same, dropped⟩ := replay_messages settings framesPerSecond messages
    rw [feed, heard] at same dropped
    simp only [tally, Tally.ofCues, Tally.total, same]
    exact ⟨rfl, dropped, rfl, rfl, rfl⟩
  · intro rate
    dsimp only [tally]
    rw [← Tally.ofCues_unframed, ← Tally.ofCues_unframed, replay_unframed]
  · intro other same
    dsimp only [tally]
    rw [← Tally.ofCues_undropped, ← Tally.ofCues_undropped, replay_undropped,
      filter_isOk_readFeed, same, ← filter_isOk_readFeed, ← replay_undropped]
  · -- blank lines are left out before anything is read
    intro other same
    unfold readFeed
    rw [same]

end DeadReckoning
