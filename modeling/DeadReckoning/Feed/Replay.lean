import DeadReckoning.Session
import DeadReckoning.Text.Blank

namespace DeadReckoning

/-!
# Replay — a recorded feed against a clock of its own

A recorded feed is played to a session. The first batch comes at the start, each later one after the
time by which it is newer than the first; frames are drawn at even distances in between. Before a
batch is taken in, the positions that the session reckons with are compared with those in the batch.

* `readFeed` — the messages of a feed from its text
* `Cue` — what happens during a replay
* `Playback` — a replay under way
* `replay` — everything that happens, in order
* `Tally` — the counts, and how far off the reckoning was
-/

/-- The messages of a feed from its lines; blank lines are none. -/
def readFeed (text : List Char) : List (Except BatchError (Batch Float)) :=
  ((Text.lines text).filter fun line => !Text.isBlank line).map fun line =>
    Batch.parse (String.ofList line)

/-- The microseconds from frame to frame at a number of frames per second, which is kept between one
and a million. -/
def framePeriod (framesPerSecond : UInt64) : Nat :=
  1000000 / (max 1 (min framesPerSecond 1000000)).toNat

/-- What happens during a replay. -/
inductive Cue (α : Type) where
  /-- A frame was drawn, `offset` microseconds after the start. -/
  | frame (offset : Nat) (frame : Frame)
  /-- A batch was taken in, in which objects were as far from where they were reckoned to be as
  `misses` tells. -/
  | delivery (receipt : Receipt) (misses : List α)
  /-- A message was not readable. -/
  | dropped (error : BatchError)

/-- How far an object that is seen at a time is from where it was reckoned to be. Objects not met
before do not count, and neither do sightings that are not newer than their tracks. -/
def Catalog.missOf? {α : Type} [Scalar α] (catalog : Catalog α) (time : Micros) (s : Sighting α) :
    Option α :=
  match catalog.get? s.key with
  | none => none
  | some track =>
    if track.lastUpdate < time then some ((track.positionAt time).distance s.position) else none

/-- A replay under way. -/
structure Playback (α : Type) where
  session : Session α
  /-- The server time of the first batch. -/
  base : Option Micros
  /-- When the next frame is drawn, in microseconds after the start. -/
  nextFrame : Nat
  /-- What has happened, the latest first. -/
  cues : List (Cue α)

namespace Playback

variable {α : Type} [Scalar α]

/-- A replay before its first message. -/
def start (settings : Settings α) : Playback α where
  session := (Session.start settings .standard).setLink .established
  base := none
  nextFrame := 0
  cues := []

/-- Draws the next frame. -/
def drawFrame (period : Nat) (playback : Playback α) : Playback α :=
  let (session, frame) := playback.session.tick (.ofMicros playback.nextFrame)
  { playback with
    session
    nextFrame := playback.nextFrame + period
    cues := .frame playback.nextFrame frame :: playback.cues }

/-- Draws a number of frames. -/
def drawFrames (period : Nat) : Nat → Playback α → Playback α
  | 0, playback => playback
  | count + 1, playback => drawFrames period count (playback.drawFrame period)

/-- How many frames are drawn before an arrival. -/
def framesDue (period nextFrame arrival : Nat) : Nat :=
  (arrival - nextFrame + (period - 1)) / period

/-- How long after the start a batch comes, in microseconds. -/
def arrival (base time : Micros) : Nat := (time.before base).toNat

/-- Takes in a batch, after the frames that are drawn before it. -/
def deliver (period : Nat) (playback : Playback α) (batch : Batch α) : Playback α :=
  let base := playback.base.getD batch.serverTime
  let offset := arrival base batch.serverTime
  let playback := playback.drawFrames period (framesDue period playback.nextFrame offset)
  let misses := batch.sightings.filterMap (playback.session.catalog.missOf? batch.serverTime)
  let (session, receipt) := playback.session.ingest batch (.ofMicros offset)
  { playback with
    session
    base := some base
    cues := .delivery receipt misses :: playback.cues }

/-- The replay after a message. -/
def take (period : Nat) (playback : Playback α) : Except BatchError (Batch α) → Playback α
  | .ok batch => playback.deliver period batch
  | .error e => { playback with cues := .dropped e :: playback.cues }

/-- The replay after several messages. -/
def takeAll (period : Nat) (playback : Playback α) (feed : List (Except BatchError (Batch α))) :
    Playback α :=
  feed.foldl (take period) playback

/-- Lines may be taken in two parts, one after the other. -/
theorem takeAll_append (period : Nat) (playback : Playback α)
    (before after : List (Except BatchError (Batch α))) :
    playback.takeAll period (before ++ after) =
      (playback.takeAll period before).takeAll period after :=
  List.foldl_append

end Playback

/-- Everything that happens when a feed is replayed. -/
def replay {α : Type} [Scalar α] (settings : Settings α) (framesPerSecond : UInt64)
    (feed : List (Except BatchError (Batch α))) : List (Cue α) :=
  ((Playback.start settings).takeAll (framePeriod framesPerSecond) feed).cues.reverse

namespace Cue

variable {α : Type}

/-- The receipt of a batch that was taken in. -/
def receipt? : Cue α → Option Receipt
  | delivery receipt _ => some receipt
  | _ => none

/-- How far the reckoning was off. -/
def misses : Cue α → List α
  | delivery _ misses => misses
  | _ => []

/-- A message was not readable. -/
def isDropped : Cue α → Bool
  | dropped _ => true
  | _ => false

/-- A frame was drawn. -/
def isFrame : Cue α → Bool
  | frame _ _ => true
  | _ => false

end Cue

/-- The counts of a replay, and how far off the reckoning was. -/
structure Tally (α : Type) where
  batches : Nat
  dropped : Nat
  items : Nat
  refused : Nat
  stale : Nat
  frames : Nat
  samples : Nat
  missSum : α
  greatestMiss : α

namespace Tally

variable {α : Type} [Scalar α]

/-- A count summed over receipts. -/
def total (receipts : List Receipt) (count : Receipt → Nat) : Nat :=
  (receipts.map count).foldr (· + ·) 0

/-- The tally of what happened. Misses that are not numbers make no greatest miss. -/
def ofCues (cues : List (Cue α)) : Tally α :=
  let receipts := cues.filterMap Cue.receipt?
  let misses := cues.flatMap Cue.misses
  { batches := receipts.length
    dropped := cues.countP Cue.isDropped
    items := total receipts fun receipt => receipt.accepted + receipt.refusals.length
    refused := total receipts fun receipt => receipt.refusals.length
    stale := total receipts fun receipt => receipt.stale
    frames := cues.countP Cue.isFrame
    samples := misses.length
    missSum := misses.foldl (· + ·) 0.0
    greatestMiss := misses.foldl Scalar.larger 0.0 }

end Tally

end DeadReckoning
