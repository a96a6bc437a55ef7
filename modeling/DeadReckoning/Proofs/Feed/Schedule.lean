import DeadReckoning.Proofs.Feed.Agreement
import Mathlib.Algebra.Order.Floor.Div

namespace DeadReckoning

/-!
# Replay — when frames are drawn

A replay has a clock of its own, which starts with the first batch. Frames are drawn at the
multiples of the period, each before the first batch that comes later and after all batches before
that one. Batches may be older than those before them; the frames go on from the latest.

* `Playback.DrawsUntil` — the loop that draws frames before an arrival; `drawsUntil`: it ends
* `Showing`, `showings` — the frames among what happened
* `arrivals`, `latest` — when batches come, and how far a replay goes
* `showingAt` — a frame as the times of the batches call for it
* `Playback.OnSchedule` — all frames so far are such; `OnSchedule.deliver`, `OnSchedule.takeAll`
* `frames_keep_their_schedule` — all of it for a replay from its start
-/

/-! ### Frames in even distances -/

/-- The time between frames, in natural numbers. -/
theorem framePeriod_eq (framesPerSecond : UInt64) :
    framePeriod framesPerSecond = 1000000 / max 1 (min framesPerSecond.toNat 1000000) := by
  rw [framePeriod, UInt64.toNat_max, UInt64.toNat_min]
  rfl

/-- Frames are at least a microsecond apart. -/
theorem framePeriod_pos (framesPerSecond : UInt64) : 0 < framePeriod framesPerSecond := by
  rw [framePeriod_eq]
  exact Nat.div_pos (by omega) (by omega)

namespace Playback

variable {α : Type} [Scalar α] {period : ℕ}

/-- Frames are drawn one by one as long as the next one is before an arrival. -/
inductive DrawsUntil (period arrival : ℕ) : Playback α → Playback α → Prop
  | done {playback : Playback α} (late : arrival ≤ playback.nextFrame) :
    DrawsUntil period arrival playback playback
  | draw {playback after : Playback α} (early : playback.nextFrame < arrival)
    (rest : DrawsUntil period arrival (playback.drawFrame period) after) :
    DrawsUntil period arrival playback after

/-- The frames that are due, as a quotient that is rounded up. -/
theorem framesDue_eq (nextFrame arrival : ℕ) (pos : 0 < period) :
    framesDue period nextFrame arrival = (arrival - nextFrame) ⌈/⌉ period := by
  rw [framesDue, Nat.ceilDiv_eq_add_pred_div, Nat.add_sub_assoc pos]

/-- The frames that are due are all those before the arrival. -/
theorem framesDue_le_iff (nextFrame arrival count : ℕ) (pos : 0 < period) :
    framesDue period nextFrame arrival ≤ count ↔ arrival ≤ nextFrame + count * period := by
  rw [framesDue_eq nextFrame arrival pos, ceilDiv_le_iff_le_mul pos, Nat.mul_comm]
  omega

/-- One frame less is due after one was drawn. -/
theorem framesDue_succ {nextFrame arrival : ℕ} (pos : 0 < period) (early : nextFrame < arrival) :
    framesDue period nextFrame arrival = framesDue period (nextFrame + period) arrival + 1 := by
  refine eq_of_forall_ge_iff fun count => ?_
  cases count with
  | zero =>
    have some := framesDue_le_iff nextFrame arrival 0 pos
    omega
  | succ count =>
    rw [Nat.add_le_add_iff_right, framesDue_le_iff _ _ _ pos, framesDue_le_iff _ _ _ pos,
      Nat.succ_mul]
    omega

/-- The loop ends, and has drawn the frames that were due. -/
theorem drawsUntil (pos : 0 < period) (arrival : ℕ) (playback : Playback α) :
    DrawsUntil period arrival playback
      (playback.drawFrames period (framesDue period playback.nextFrame arrival)) := by
  generalize due : framesDue period playback.nextFrame arrival = count
  induction count generalizing playback with
  | zero =>
    have none := (framesDue_le_iff playback.nextFrame arrival 0 pos).mp due.le
    exact .done (by omega)
  | succ count ih =>
    have early : playback.nextFrame < arrival := by
      by_contra late
      have none := (framesDue_le_iff playback.nextFrame arrival 0 pos).mpr (by omega)
      omega
    rw [framesDue_succ pos early, Nat.add_right_cancel_iff] at due
    exact .draw early (ih (playback.drawFrame period) due)

end Playback

/-! ### Frames among what happened -/

/-- A frame of a replay. -/
structure Showing where
  /-- When it was drawn, in microseconds after the start. -/
  offset : ℕ
  /-- How many batches were taken in before it. -/
  delivered : ℕ
  serverTime : Micros

section Showings

variable {α : Type}

/-- The frames among what happened after some batches. -/
def showings (delivered : ℕ) : List (Cue α) → List Showing
  | [] => []
  | .frame offset frame :: rest => ⟨offset, delivered, frame.serverTime⟩ :: showings delivered rest
  | .delivery _ _ :: rest => showings (delivered + 1) rest
  | .dropped _ :: rest => showings delivered rest

/-- Frames go on counting the batches before them. -/
theorem showings_append (delivered : ℕ) (before after : List (Cue α)) :
    showings delivered (before ++ after) =
      showings delivered before ++
        showings (delivered + (before.filterMap Cue.receipt?).length) after := by
  induction before generalizing delivered with
  | nil => rfl
  | cons cue rest ih =>
    cases cue with
    | frame offset frame => exact congrArg (_ :: ·) (ih delivered)
    | delivery receipt misses =>
      refine (ih (delivered + 1)).trans ?_
      rw [Nat.add_assoc, Nat.add_comm 1]
      rfl
    | dropped e => exact ih delivered

/-- There are as many showings as frames. -/
theorem length_showings (delivered : ℕ) (cues : List (Cue α)) :
    (showings delivered cues).length = cues.countP Cue.isFrame := by
  induction cues generalizing delivered with
  | nil => rfl
  | cons cue rest ih =>
    cases cue with
    | frame offset frame =>
      rw [List.countP_cons_of_pos rfl, ← ih delivered]
      rfl
    | delivery receipt misses =>
      rw [List.countP_cons_of_neg Bool.false_ne_true, ← ih (delivered + 1)]
      rfl
    | dropped e =>
      rw [List.countP_cons_of_neg Bool.false_ne_true, ← ih delivered]
      rfl

end Showings

namespace Playback

variable {α : Type} [Scalar α] {period : ℕ}

/-- The frames that were drawn. -/
def shown (playback : Playback α) : List Showing := showings 0 playback.cues.reverse

/-- The server times of the batches that were taken in. -/
def delivered (playback : Playback α) : List Micros :=
  (playback.cues.reverse.filterMap Cue.receipt?).map (·.serverTime)

/-- Frames take in no batches. -/
@[simp] theorem delivered_drawFrames (count : ℕ) (playback : Playback α) :
    (playback.drawFrames period count).delivered = playback.delivered := by
  rw [delivered, List.filterMap_reverse, receipts_drawFrames, ← List.filterMap_reverse, ← delivered]

/-- A batch that is taken in is the last one. -/
theorem delivered_enter (playback : Playback α) (batch : Batch α) (base : Micros) (offset : ℕ) :
    (playback.enter batch base offset).delivered = playback.delivered ++ [batch.serverTime] := by
  have receipt : (playback.session.ingest batch (.ofMicros offset)).2.serverTime =
      batch.serverTime := by
    unfold Session.ingest
    dsimp only
    cases playback.session.settings.retentionMicros <;> rfl
  simp [delivered, enter, Cue.receipt?, receipt]

theorem shown_enter (playback : Playback α) (batch : Batch α) (base : Micros) (offset : ℕ) :
    (playback.enter batch base offset).shown = playback.shown := by
  simp [shown, enter, showings_append, showings]

/-- A frame shows the time that the clock tells at its offset. -/
theorem shown_drawFrame (playback : Playback α) :
    (playback.drawFrame period).shown = playback.shown ++
      [⟨playback.nextFrame, playback.delivered.length,
        playback.session.clock.now (.ofMicros playback.nextFrame)⟩] := by
  simp [shown, drawFrame, showings_append, showings, delivered, Session.tick]

/-- Frames are drawn at even distances, without batches in between. -/
theorem shown_drawFrames (count : ℕ) (playback : Playback α) :
    (playback.drawFrames period count).shown = playback.shown ++
      (List.range count).map fun k => ⟨playback.nextFrame + k * period, playback.delivered.length,
        playback.session.clock.now (.ofMicros (playback.nextFrame + k * period))⟩ := by
  induction count generalizing playback with
  | zero => simp [drawFrames]
  | succ count ih =>
    have delivered : (playback.drawFrame period).delivered = playback.delivered :=
      delivered_drawFrames 1 playback
    have clock : (playback.drawFrame period).session.clock = playback.session.clock := rfl
    -- after one frame the others are due a period later
    have later (k : ℕ) : (playback.drawFrame period).nextFrame + k * period =
        playback.nextFrame + (k + 1) * period := by
      show playback.nextFrame + period + k * period = _
      rw [Nat.succ_mul]
      omega
    rw [drawFrames, ih, shown_drawFrame, delivered, clock, List.range_succ_eq_map]
    simp [later, Function.comp_def]

end Playback

/-! ### What the times of the batches call for -/

/-- When batches come, in microseconds after the first. Those older than the first come with it. -/
def arrivals (times : List Micros) : List ℕ :=
  times.map fun time => time.toNat - (times.headD 0).toNat

/-- When the last batch comes. -/
def latest (times : List Micros) : ℕ := (arrivals times).foldr max 0

/-- The clock after batches came. -/
def clockAfter (times : List Micros) : ServerClock :=
  ⟨times.getLast?.map fun time => (time, .ofMicros (time.toNat - (times.headD 0).toNat))⟩

/-- The frame of a number: it is drawn before the first batch that comes later, and shows the server
time that the clock then tells. -/
def showingAt (period : ℕ) (times : List Micros) (k : ℕ) : Showing :=
  let delivered := (arrivals times).findIdx (k * period < ·)
  ⟨k * period, delivered, (clockAfter (times.take delivered)).now (.ofMicros (k * period))⟩

section Times

variable {times : List Micros} {time : Micros} {period k : ℕ}

/-- The first batch comes at the start, each other one by as much later as it is newer. -/
theorem arrivals_append :
    arrivals (times ++ [time]) = arrivals times ++ [time.toNat - (times.headD time).toNat] := by
  cases times with
  | nil => rfl
  | cons first rest => simp [arrivals]

theorem length_arrivals (times : List Micros) : (arrivals times).length = times.length :=
  List.length_map _

/-- The last batch comes by a time if all of them do. -/
theorem latest_le_iff {bound : ℕ} :
    latest times ≤ bound ↔ ∀ offset ∈ arrivals times, offset ≤ bound := by
  rw [latest]
  induction arrivals times with
  | nil => simp
  | cons offset rest ih => simp [ih]

/-- Another batch comes later than all, or not. -/
theorem latest_append :
    latest (times ++ [time]) = max (latest times) (time.toNat - (times.headD time).toNat) := by
  refine eq_of_forall_ge_iff fun bound => ?_
  rw [max_le_iff, latest_le_iff, latest_le_iff, arrivals_append, List.forall_mem_append,
    List.forall_mem_singleton]

/-- Before the last batch there is one to come. -/
theorem exists_of_lt_latest (early : k < latest times) : ∃ offset ∈ arrivals times, k < offset := by
  by_contra none
  push Not at none
  exact absurd (latest_le_iff.mpr none) (by omega)

/-- The frames before the latest batch, and those due before one that comes after it. -/
theorem ceilDiv_latest_append (pos : 0 < period) :
    latest (times ++ [time]) ⌈/⌉ period = latest times ⌈/⌉ period +
      Playback.framesDue period (latest times ⌈/⌉ period * period)
        (time.toNat - (times.headD time).toNat) := by
  refine eq_of_forall_ge_iff fun count => ?_
  rw [latest_append, ceilDiv_le_iff_le_mul pos, max_le_iff, ← ceilDiv_le_iff_le_mul pos,
    Nat.mul_comm]
  -- as many more frames are due as fit between the latest batch so far and the new one
  have due (extra : ℕ) := Playback.framesDue_le_iff (latest times ⌈/⌉ period * period)
    (time.toNat - (times.headD time).toNat) extra pos
  constructor
  · rintro ⟨before, comes⟩
    obtain ⟨extra, rfl⟩ := Nat.exists_eq_add_of_le before
    rw [Nat.add_mul, ← due] at comes
    omega
  · intro enough
    obtain ⟨extra, rfl⟩ := Nat.exists_eq_add_of_le (Nat.le_of_add_right_le enough)
    rw [Nat.add_mul, ← due]
    omega

/-- A frame before the last batch has a first one that comes after it. -/
theorem findIdx_arrivals_lt (early : k * period < latest times) :
    (arrivals times).findIdx (k * period < ·) < (arrivals times).length := by
  obtain ⟨offset, comes, later⟩ := exists_of_lt_latest early
  exact List.findIdx_lt_length_of_exists ⟨offset, comes, decide_eq_true later⟩

/-- A frame before a batch that came stays as it is when others come. -/
theorem showingAt_append (early : k * period < latest times) :
    showingAt period (times ++ [time]) k = showingAt period times k := by
  have found := findIdx_arrivals_lt early
  have place : (arrivals (times ++ [time])).findIdx (k * period < ·) =
      (arrivals times).findIdx (k * period < ·) := by
    rw [arrivals_append, List.findIdx_append, if_pos found]
  have within := found.le
  rw [length_arrivals] at within
  unfold showingAt
  dsimp only
  rw [place, List.take_append_of_le_length within]

/-- A frame after all batches that came is drawn before the next. -/
theorem showingAt_append_late (late : latest times ≤ k * period)
    (early : k * period < time.toNat - (times.headD time).toNat) :
    showingAt period (times ++ [time]) k =
      ⟨k * period, times.length, (clockAfter times).now (.ofMicros (k * period))⟩ := by
  have passed : (arrivals times).findIdx (k * period < ·) = times.length := by
    rw [← length_arrivals, List.findIdx_eq_length]
    intro offset comes
    exact decide_eq_false (not_lt.mpr (latest_le_iff.mp late offset comes))
  have place : (arrivals (times ++ [time])).findIdx (k * period < ·) = times.length := by
    rw [arrivals_append, List.findIdx_append, passed, length_arrivals, if_neg (lt_irrefl _),
      List.findIdx_singleton, if_pos (decide_eq_true early), Nat.zero_add]
  unfold showingAt
  dsimp only
  rw [place, List.take_left]

/-- If no batch is older than the first, the clock goes on evenly, whatever the order of the
others. -/
theorem serverTime_showingAt (ordered : ∀ other ∈ times, times.headD 0 ≤ other)
    (early : k * period < latest times) :
    (showingAt period times k).serverTime.toNat = (times.headD 0).toNat + k * period := by
  have found := findIdx_arrivals_lt early
  unfold showingAt
  dsimp only
  generalize place : (arrivals times).findIdx (k * period < ·) = delivered at found
  obtain ⟨next, passed⟩ := (List.findIdx_eq found).mp place
  rw [length_arrivals] at found
  simp only [arrivals, List.getElem_map, decide_eq_true_eq, decide_eq_false_iff_not,
    not_lt] at next passed
  cases delivered with
  | zero =>
    -- the first batch comes at the start, which is not later than any frame
    obtain ⟨first, rest, rfl⟩ := List.exists_cons_of_ne_nil (List.ne_nil_of_length_pos found)
    simp at next
  | succ last =>
    have heard := passed last (Nat.lt_succ_self last)
    have notBefore := UInt64.le_iff_toNat_le.mp (ordered times[last] (List.getElem_mem _))
    have greatest := (times[last + 1]).toNat_lt_size
    have clock : clockAfter (times.take (last + 1)) =
        ⟨some (times[last], .ofMicros (times[last].toNat - (times.headD 0).toNat))⟩ := by
      have newest : (times.take (last + 1)).getLast? = some times[last] := by
        simp [List.getLast?_take, List.getElem?_eq_getElem (Nat.lt_of_succ_lt found)]
      have oldest : (times.take (last + 1)).headD 0 = times.headD 0 := by
        cases times <;> rfl
      rw [clockAfter, newest, oldest]
      rfl
    rw [clock]
    show (Micros.after _ _).toNat = _
    rw [Micros.toNat_after, Instant.microsSince_ofMicros]
    omega

end Times

namespace Playback

variable {α : Type} [Scalar α] {period : ℕ} {times : List Micros} {playback : Playback α}

/-- A replay that has taken in batches of some times. -/
structure OnSchedule (period : ℕ) (times : List Micros) (playback : Playback α) : Prop where
  base : playback.base = times.head?
  clock : playback.session.clock = clockAfter times
  delivered : playback.delivered = times
  nextFrame : playback.nextFrame = latest times ⌈/⌉ period * period
  shown : playback.shown = (List.range (latest times ⌈/⌉ period)).map (showingAt period times)

/-- At the start no batch has come and no frame was drawn. -/
theorem onSchedule_start (settings : Settings α) : OnSchedule period [] (start settings) := by
  have none : latest [] ⌈/⌉ period = 0 := zero_ceilDiv period
  refine ⟨rfl, rfl, rfl, ?_, ?_⟩
  · rw [none, Nat.zero_mul]
    rfl
  · rw [none]
    rfl

/-- A batch keeps the schedule. -/
theorem OnSchedule.deliver (onSchedule : OnSchedule period times playback) (pos : 0 < period)
    (batch : Batch α) :
    OnSchedule period (times ++ [batch.serverTime]) (playback.deliver period batch) := by
  obtain ⟨base, clock, delivered, nextFrame, shown⟩ := onSchedule
  have offset : arrival (playback.base.getD batch.serverTime) batch.serverTime =
      batch.serverTime.toNat - (times.headD batch.serverTime).toNat := by
    rw [arrival, Micros.toNat_before, base, List.headD_eq_head?_getD]
  have clock_drawn (count : ℕ) :
      (playback.drawFrames period count).session.clock = playback.session.clock :=
    congrArg Session.Tracking.clock (tracked_drawFrames period count playback)
  rw [deliver_eq, offset]
  constructor
  · show some (playback.base.getD batch.serverTime) = _
    rw [base]
    cases times <;> rfl
  · refine (Session.clock_ingest _ _ _).trans ?_
    simp [clockAfter]
  · rw [delivered_enter, delivered_drawFrames, delivered]
  · show (playback.drawFrames period _).nextFrame = _
    rw [nextFrame_drawFrames, nextFrame, ceilDiv_latest_append pos, Nat.add_mul]
  · rw [shown_enter, shown_drawFrames, shown, ceilDiv_latest_append pos, List.range_add,
      List.map_append, List.map_map, nextFrame, delivered, clock]
    -- the frames that were shown stay those of their numbers, and the new ones see all batches so
    -- far
    congr 1
    · refine List.map_congr_left fun k listed => ?_
      have early : k < latest times ⌈/⌉ period := List.mem_range.mp listed
      rw [← not_le, ceilDiv_le_iff_le_mul pos, not_le, Nat.mul_comm] at early
      exact (showingAt_append early).symm
    · refine List.map_congr_left fun k listed => ?_
      have due : k < framesDue period _ _ := List.mem_range.mp listed
      rw [← not_le, framesDue_le_iff _ _ _ pos, not_le, ← Nat.add_mul] at due
      have come : latest times ≤ (latest times ⌈/⌉ period + k) * period := by
        rw [Nat.mul_comm, ← ceilDiv_le_iff_le_mul pos]
        exact Nat.le_add_right _ _
      rw [← Nat.add_mul]
      exact (showingAt_append_late come due).symm

omit [Scalar α] in
/-- So does what was not readable. -/
theorem OnSchedule.drop (onSchedule : OnSchedule period times playback) (e : BatchError) :
    OnSchedule period times { playback with cues := .dropped e :: playback.cues } := by
  obtain ⟨base, clock, delivered, nextFrame, shown⟩ := onSchedule
  refine ⟨base, clock, ?_, nextFrame, ?_⟩
  · rw [← delivered]
    simp [Playback.delivered, Cue.receipt?]
  · rw [← shown]
    simp [Playback.shown, showings_append, showings]

/-- A replay keeps the schedule of all the batches that could be read. -/
theorem OnSchedule.takeAll (onSchedule : OnSchedule period times playback) (pos : 0 < period)
    (feed : List (Except BatchError (Batch α))) :
    OnSchedule period (times ++ feed.filterMap fun message => message.toOption.map (·.serverTime))
      (playback.takeAll period feed) := by
  induction feed generalizing times playback with
  | nil =>
    rw [List.filterMap_nil, List.append_nil]
    exact onSchedule
  | cons message rest ih =>
    cases message with
    | error e => exact ih (onSchedule.drop e)
    | ok batch =>
      have taken := ih (onSchedule.deliver pos batch)
      rw [List.append_assoc] at taken
      exact taken

end Playback

/-- When the frames of a replay are drawn. They are at least a microsecond apart, so that every loop
that draws them ends. There are as many as periods, the last one begun, until the latest batch
comes; each is drawn at its multiple of the period, after all batches before the first that comes
later. If no batch is older than the first, each shows the server time that has gone by as many
microseconds as were played, so that the times shown increase even where batches come out of order.
-/
theorem frames_keep_their_schedule {α : Type} [Scalar α] (settings : Settings α)
    (framesPerSecond : UInt64) (feed : List (Except BatchError (Batch α))) :
    let period := framePeriod framesPerSecond
    let cues := replay settings framesPerSecond feed
    let times := feed.filterMap fun message => message.toOption.map (·.serverTime)
    let base := times.headD 0
    let arrivals := times.map fun time => time.toNat - base.toNat
    let shown := showings 0 cues
    (0 < period ∧ period = 1000000 / max 1 (min framesPerSecond.toNat 1000000)) ∧
    (∀ (playback : Playback α) (arrival : ℕ), Playback.DrawsUntil period arrival playback
      (playback.drawFrames period (Playback.framesDue period playback.nextFrame arrival))) ∧
    (cues.filterMap Cue.receipt?).map (·.serverTime) = times ∧
    (Tally.ofCues cues).frames = arrivals.foldr max 0 ⌈/⌉ period ∧
    (Tally.ofCues cues).frames = shown.length ∧
    (∀ k showing, shown[k]? = some showing → showing.offset = k * period ∧
      showing.delivered = arrivals.findIdx (k * period < ·) ∧
      showing.delivered < arrivals.length) ∧
    ((∀ time ∈ times, base ≤ time) →
      (∀ showing ∈ shown, showing.serverTime.toNat = base.toNat + showing.offset) ∧
      (shown.map (·.serverTime)).Pairwise (· < ·)) := by
  intro period cues times base arrivals shown
  have pos : 0 < period := framePeriod_pos framesPerSecond
  have onSchedule := (Playback.onSchedule_start settings).takeAll pos feed
  rw [List.nil_append] at onSchedule
  have isShown : shown = (List.range (latest times ⌈/⌉ period)).map (showingAt period times) :=
    onSchedule.shown
  have frames : (Tally.ofCues cues).frames = shown.length := (length_showings 0 cues).symm
  -- a frame that is drawn comes before the latest batch
  have early {k : ℕ} (drawn : k < latest times ⌈/⌉ period) : k * period < latest times := by
    rwa [← not_le, ceilDiv_le_iff_le_mul pos, not_le, Nat.mul_comm] at drawn
  refine ⟨⟨pos, framePeriod_eq framesPerSecond⟩, fun playback arrival =>
    Playback.drawsUntil pos arrival playback, onSchedule.delivered, ?_, frames, ?_, ?_⟩
  · rw [frames, isShown, List.length_map, List.length_range]
    rfl
  · intro k showing isAt
    rw [isShown, List.getElem?_map, Option.map_eq_some_iff] at isAt
    obtain ⟨n, listed, rfl⟩ := isAt
    obtain ⟨within, rfl⟩ := List.getElem?_eq_some_iff.mp listed
    rw [List.getElem_range]
    rw [List.length_range] at within
    exact ⟨rfl, rfl, findIdx_arrivals_lt (early within)⟩
  · intro ordered
    constructor
    · intro showing listed
      rw [isShown, List.mem_map] at listed
      obtain ⟨k, drawn, rfl⟩ := listed
      exact serverTime_showingAt ordered (early (List.mem_range.mp drawn))
    · rw [isShown, List.map_map, List.pairwise_map]
      refine List.pairwise_lt_range.imp_of_mem fun {j k} first second order => ?_
      -- times shown grow with the offsets, since no batch is older than the first
      have sooner := serverTime_showingAt ordered (early (List.mem_range.mp first))
      have later := serverTime_showingAt ordered (early (List.mem_range.mp second))
      have apart := Nat.mul_lt_mul_of_pos_right order pos
      rw [Function.comp_apply, Function.comp_apply, UInt64.lt_iff_toNat_lt]
      omega

end DeadReckoning
