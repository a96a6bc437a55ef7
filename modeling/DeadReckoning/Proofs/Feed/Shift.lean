import DeadReckoning.Proofs.Catalog.Shift
import DeadReckoning.Proofs.Exact
import DeadReckoning.Proofs.Feed.Agreement
import DeadReckoning.Proofs.Session.Retention
import Mathlib.Data.List.Forall2

namespace DeadReckoning

/-!
# Replay — feeds that are later by a span

A replay starts its own clock with the first batch, so that only the distances between the times of
its batches count. A feed all of whose batches are later by the same span is replayed alike: the
same frames are due, the same becomes of each batch, and positions are compared for the same
sightings. They are found equally far off where the numbers are exact; on doubles the greater times
may round otherwise.

* `Cue.Shifted`, `Playback.Shifted` — what happens, and replays under way
* `Playback.Shifted.deliver`, `Playback.Shifted.takeAll` — a batch, and several
* `Tally.ofCues_shifted`, `Tally.ofCues_eq_of_shifted` — the counts, and how far off they were
* `only_relative_times_count` — all of it for the replay of a list of batches
-/

/-! ### Sessions -/

/-- Sessions with the same settings and the same tracks, later by a span. -/
structure Session.Shifted {α : Type} (span : Micros) (session later : Session α) : Prop where
  settings : session.settings = later.settings
  catalog : Catalog.Shifted span session.catalog later.catalog

/-- A batch does the same to both sessions, whenever it comes. -/
protected theorem Session.Shifted.ingest {α : Type} [Scalar α] {span : Micros}
    {session later : Session α} (shifted : Session.Shifted span session later) {batch : Batch α}
    (fits : batch.serverTime.toNat + span.toNat < UInt64.size) (receivedAt otherwise : Instant) :
    Session.Shifted span (session.ingest batch receivedAt).1
        (later.ingest (batch.later span) otherwise).1 ∧
      (session.ingest batch receivedAt).2.Shifted span
        (later.ingest (batch.later span) otherwise).2 := by
  obtain ⟨entered, receipts⟩ := shifted.catalog.ingest fits
  have settings : (session.ingest batch receivedAt).1.settings =
      (later.ingest (batch.later span) otherwise).1.settings := by
    rw [(session.ingest_frame batch receivedAt).1, (later.ingest_frame _ otherwise).1,
      shifted.settings]
  -- without a retention nothing is dropped, and else the same objects in some order
  cases retention : session.settings.retentionMicros with
  | none =>
    have retention' : later.settings.retentionMicros = none := shifted.settings ▸ retention
    rw [receipt_of_forever retention, receipt_of_forever retention']
    refine ⟨⟨settings, ?_⟩, receipts⟩
    rw [(ingest_of_forever retention batch receivedAt).1,
      (ingest_of_forever retention' _ otherwise).1]
    exact entered
  | some silence =>
    have retention' : later.settings.retentionMicros = some silence := shifted.settings ▸ retention
    obtain ⟨left, expired⟩ := entered.expire (Batch.shifted_later fits) silence
    rw [(ingest_of_retention retention batch receivedAt).2,
      (ingest_of_retention retention' _ otherwise).2]
    refine ⟨⟨settings, ?_⟩, receipts.time, expired, ?_⟩
    · rw [(ingest_of_retention retention batch receivedAt).1,
        (ingest_of_retention retention' _ otherwise).1]
      exact left
    · rw [← receipts.rest]

/-! ### Positions that are compared -/

section Misses

variable {α : Type} [Scalar α] {span : Micros} {agree : α → α → Prop}

/-- Positions reckoned with tracks that are later by a span, at times that are, agree. -/
def ReckonsAlike (span : Micros) (agree : α → α → Prop) : Prop :=
  ∀ (track later : Track α) (time time' : Micros), Track.Shifted span track later →
    Micros.Shifted span time time' → ∀ point,
      agree ((track.positionAt time).distance point) ((later.positionAt time').distance point)

/-- The same sightings are compared with tracks, and are as far off. -/
theorem Catalog.Shifted.missOf? {catalog later : Catalog α}
    (shifted : Catalog.Shifted span catalog later) (alike : ReckonsAlike span agree)
    {time time' : Micros} (times : Micros.Shifted span time time') (s : Sighting α) :
    Option.Rel agree (catalog.missOf? time s) (later.missOf? time' s) := by
  have tracks := shifted.tracks s.key
  unfold Catalog.missOf?
  generalize catalog.get? s.key = track?, later.get? s.key = later? at tracks
  cases tracks with
  | none => exact .none
  | @some track other same =>
    dsimp only
    -- a sighting is compared in both or in neither
    by_cases newer : track.lastUpdate < time
    · rw [if_pos newer, if_pos ((same.time.lt_iff times).mp newer)]
      exact .some (alike track other time time' same times s.position)
    · rw [if_neg newer, if_neg (mt (same.time.lt_iff times).mpr newer)]
      exact .none

/-- Exact positions are the same. -/
theorem reckonsAlike_exact (i : Irrational) (span : Micros) :
    ReckonsAlike span (Eq : Exact i → Exact i → Prop) := by
  intro track later time time' same times point
  have lookahead : later.lookahead time' = track.lookahead time := by
    refine Exact.ext ?_
    show ((time'.toNat : ℚ) - later.lastUpdate.toNat) / _ =
      ((time.toNat : ℚ) - track.lastUpdate.toNat) / _
    rw [times, same.time, Nat.cast_add, Nat.cast_add, add_sub_add_right_eq_sub]
  have position : later.positionAt time' = track.positionAt time := by
    unfold Track.positionAt
    rw [lookahead, ← same.rest]
  rw [position]

end Misses

/-! ### What happens -/

/-- The same happened in a replay of a feed that is later by a span: a frame was drawn as long after
the start, or a batch was taken in. -/
inductive Cue.Shifted {α : Type} (span : Micros) (agree : α → α → Prop) : Cue α → Cue α → Prop
  | frame (offset : ℕ) (frame later : Frame) :
    Shifted span agree (.frame offset frame) (.frame offset later)
  | delivery {receipt later : Receipt} {misses others : List α}
    (receipts : receipt.Shifted span later) (agreed : List.Forall₂ agree misses others) :
    Shifted span agree (.delivery receipt misses) (.delivery later others)

namespace Playback

/-- A replay of a feed that is later by a span has come as far. -/
structure Shifted {α : Type} (span : Micros) (agree : α → α → Prop) (playback later : Playback α) :
    Prop where
  session : Session.Shifted span playback.session later.session
  base : Option.Rel (Micros.Shifted span) playback.base later.base
  nextFrame : playback.nextFrame = later.nextFrame
  cues : List.Forall₂ (Cue.Shifted span agree) playback.cues later.cues

namespace Shifted

variable {α : Type} [Scalar α] {span : Micros} {agree : α → α → Prop} {playback later : Playback α}

theorem start (settings : Settings α) :
    Shifted span agree (Playback.start settings) (Playback.start settings) :=
  ⟨⟨rfl, .empty⟩, .none, rfl, .nil⟩

variable (shifted : Shifted span agree playback later) (period : ℕ)

include shifted

/-- A frame is drawn as long after the start. -/
theorem drawFrame : Shifted span agree (playback.drawFrame period) (later.drawFrame period) := by
  obtain ⟨session, base, nextFrame, cues⟩ := shifted
  refine ⟨⟨session.settings, session.catalog⟩, base, congrArg (· + period) nextFrame, ?_⟩
  refine .cons ?_ cues
  rw [nextFrame]
  exact .frame _ _ _

theorem drawFrames (count : ℕ) :
    Shifted span agree (playback.drawFrames period count) (later.drawFrames period count) := by
  induction count generalizing playback later with
  | zero => exact shifted
  | succ count ih => exact ih (shifted.drawFrame period)

variable (alike : ReckonsAlike span agree) {batch : Batch α}
  (fits : batch.serverTime.toNat + span.toNat < UInt64.size)

include alike fits

/-- A batch that is later by the span does the same. -/
theorem enter {base base' : Micros} (bases : Micros.Shifted span base base') (offset : ℕ) :
    Shifted span agree (playback.enter batch base offset)
      (later.enter (batch.later span) base' offset) := by
  obtain ⟨session, receipts⟩ := shifted.session.ingest fits (.ofMicros offset) (.ofMicros offset)
  refine ⟨session, .some bases, shifted.nextFrame, .cons (.delivery receipts ?_) shifted.cues⟩
  refine List.rel_filterMap (R := Eq) ?_ (List.forall₂_refl batch.sightings)
  rintro s _ rfl
  exact shifted.session.catalog.missOf? alike (Batch.shifted_later fits) s

/-- A batch is taken in after as many frames. -/
theorem deliver :
    Shifted span agree (playback.deliver period batch)
      (later.deliver period (batch.later span)) := by
  have times := Batch.shifted_later fits
  have bases : Micros.Shifted span (playback.base.getD batch.serverTime)
      (later.base.getD (batch.later span).serverTime) := by
    have bases := shifted.base
    generalize playback.base = base?, later.base = later? at bases
    cases bases with
    | none => exact times
    | some bases => exact bases
  rw [deliver_eq, deliver_eq, arrival, arrival, bases.toNat_before times, ← shifted.nextFrame]
  exact (shifted.drawFrames period _).enter alike fits bases _

omit fits in
/-- A feed and the feed that is later come as far. -/
theorem takeAll {batches : List (Batch α)}
    (fits : ∀ batch ∈ batches, batch.serverTime.toNat + span.toNat < UInt64.size) :
    Shifted span agree (playback.takeAll period (batches.map .ok))
      (later.takeAll period ((batches.map (·.later span)).map .ok)) := by
  induction batches generalizing playback later with
  | nil => exact shifted
  | cons batch rest ih =>
    refine ih (shifted.deliver period alike (fits batch List.mem_cons_self)) ?_
    exact fun other member => fits other (List.mem_cons_of_mem batch member)

end Shifted

end Playback

/-! ### Tallies -/

section Tallies

variable {α : Type} {span : Micros} {agree : α → α → Prop} {cues later : List (Cue α)}
  (same : List.Forall₂ (Cue.Shifted span agree) cues later)

include same

/-- The receipts are the same, later by the span. -/
theorem Cue.receipts_shifted :
    List.Forall₂ (Receipt.Shifted span) (cues.filterMap Cue.receipt?)
      (later.filterMap Cue.receipt?) := by
  refine List.rel_filterMap ?_ same
  rintro _ _ (_ | ⟨receipts, _⟩)
  · exact .none
  · exact .some receipts

/-- The positions are as far off. -/
theorem Cue.misses_shifted :
    List.Forall₂ agree (cues.flatMap Cue.misses) (later.flatMap Cue.misses) := by
  refine List.rel_flatMap same ?_
  rintro _ _ (_ | ⟨_, agreed⟩)
  · exact .nil
  · exact agreed

/-- What does not depend on times is counted as often. -/
theorem Cue.countP_shifted {counts : Cue α → Bool}
    (alike : ∀ cue other, Cue.Shifted span agree cue other → counts other = counts cue) :
    later.countP counts = cues.countP counts := by
  induction same with
  | nil => rfl
  | cons first _ ih => rw [List.countP_cons, List.countP_cons, ih, alike _ _ first]

omit same in
/-- What does not depend on times adds up to the same. -/
theorem Tally.total_shifted {receipts others : List Receipt} {count : Receipt → ℕ}
    (same : List.Forall₂ (Receipt.Shifted span) receipts others)
    (alike : ∀ receipt other : Receipt, receipt.Shifted span other → count other = count receipt) :
    total others count = total receipts count := by
  induction same with
  | nil => rfl
  | cons first _ ih => exact congrArg₂ (· + ·) (alike _ _ first) ih

variable [Scalar α]

/-- The counts are the same. -/
theorem Tally.ofCues_shifted :
    { ofCues later with
      missSum := (ofCues cues).missSum
      greatestMiss := (ofCues cues).greatestMiss } = ofCues cues := by
  have receipts := Cue.receipts_shifted same
  -- each count adds up something that does not depend on times
  have dropped : later.countP Cue.isDropped = cues.countP Cue.isDropped :=
    Cue.countP_shifted same fun _ _ alike => by cases alike <;> rfl
  have frames : later.countP Cue.isFrame = cues.countP Cue.isFrame :=
    Cue.countP_shifted same fun _ _ alike => by cases alike <;> rfl
  have items : total (later.filterMap Cue.receipt?)
        (fun receipt => receipt.accepted + receipt.refusals.length) =
      total (cues.filterMap Cue.receipt?)
        fun receipt => receipt.accepted + receipt.refusals.length :=
    total_shifted receipts fun _ _ alike => by rw [← alike.rest]; rfl
  have refused : total (later.filterMap Cue.receipt?) (fun receipt => receipt.refusals.length) =
      total (cues.filterMap Cue.receipt?) fun receipt => receipt.refusals.length :=
    total_shifted receipts fun _ _ alike => by rw [← alike.rest]
  have stale : total (later.filterMap Cue.receipt?) (fun receipt => receipt.stale) =
      total (cues.filterMap Cue.receipt?) fun receipt => receipt.stale :=
    total_shifted receipts fun _ _ alike => by rw [← alike.rest]
  unfold ofCues
  dsimp only
  rw [dropped, frames, items, refused, stale, receipts.length_eq,
    (Cue.misses_shifted same).length_eq]

omit same in
/-- So is how far off the positions were, if they were as far off each. -/
theorem Tally.ofCues_eq_of_shifted (same : List.Forall₂ (Cue.Shifted span Eq) cues later) :
    ofCues later = ofCues cues := by
  have misses : cues.flatMap Cue.misses = later.flatMap Cue.misses := by
    have misses := Cue.misses_shifted same
    rwa [List.forall₂_eq_eq_eq] at misses
  rw [← ofCues_shifted same]
  simp only [ofCues, misses]

end Tallies

/-- Only the distances between server times count. If all batches of a list are later by one span,
and none comes to be later than the greatest time there is, the replay has the same counts at every
number of frames per second. The same becomes of each batch, and the same objects are dropped after
it; after each batch the same objects are tracked, and each was last heard of later by exactly the
span. In exact arithmetic positions are found off by as much, too. -/
theorem only_relative_times_count (framesPerSecond : UInt64) (span : Micros) :
    (∀ (α : Type) [Scalar α] (settings : Settings α) (batches : List (Batch α)),
      (∀ batch ∈ batches, batch.serverTime.toNat + span.toNat < UInt64.size) →
      let others := batches.map (·.later span)
      let cues := replay settings framesPerSecond (batches.map .ok)
      let later := replay settings framesPerSecond (others.map .ok)
      let session (batches : List (Batch α)) := ((Playback.start settings).takeAll
        (framePeriod framesPerSecond) (batches.map .ok)).session
      { Tally.ofCues later with
          missSum := (Tally.ofCues cues).missSum
          greatestMiss := (Tally.ofCues cues).greatestMiss } = Tally.ofCues cues ∧
        List.Forall₂ (Receipt.Shifted span) (cues.filterMap Cue.receipt?)
          (later.filterMap Cue.receipt?) ∧
        ∀ count key, ((session (others.take count)).catalog.heard? key).map UInt64.toNat =
          ((session (batches.take count)).catalog.heard? key).map
            fun time => time.toNat + span.toNat) ∧
    ∀ (i : Irrational) (settings : Settings (Exact i)) (batches : List (Batch (Exact i))),
      (∀ batch ∈ batches, batch.serverTime.toNat + span.toNat < UInt64.size) →
      Tally.ofCues (replay settings framesPerSecond ((batches.map (·.later span)).map .ok)) =
        Tally.ofCues (replay settings framesPerSecond (batches.map .ok)) := by
  constructor
  · intro α scalar settings batches fits others cues later session
    -- nothing is asked of the numbers here
    have alike : ReckonsAlike span fun _ _ : α => True := fun _ _ _ _ _ _ _ => trivial
    have same : List.Forall₂ (Cue.Shifted span fun _ _ : α => True) cues later :=
      List.forall₂_reverse_iff.mpr
        ((Playback.Shifted.start settings).takeAll (framePeriod framesPerSecond) alike fits).cues
    refine ⟨Tally.ofCues_shifted same, Cue.receipts_shifted same, fun count key => ?_⟩
    have fewer : ∀ batch ∈ batches.take count, batch.serverTime.toNat + span.toNat < UInt64.size :=
      fun batch member => fits batch (List.mem_of_mem_take member)
    have shifted :=
      (Playback.Shifted.start settings).takeAll (framePeriod framesPerSecond) alike fewer
    rw [show others.take count = (batches.take count).map (·.later span) from List.map_take.symm]
    exact shifted.session.catalog.heard?_eq key
  · intro i settings batches fits
    have shifted := (Playback.Shifted.start settings).takeAll (framePeriod framesPerSecond)
      (reckonsAlike_exact i span) fits
    exact Tally.ofCues_eq_of_shifted (List.forall₂_reverse_iff.mpr shifted.cues)

/-- A ship that falls silent for two seconds, with a retention of one, is replayed alike an hour
later. -/
theorem silent_ship_is_replayed_alike :
    let i : Irrational := ⟨fun x => x, fun y _ => y⟩
    let settings : Settings (Exact i) := ⟨⟨3 / 2⟩, some ⟨1⟩⟩
    let seen (kind : Kind) (id : UInt64) : Sighting (Exact i) := ⟨kind, id, .zero, .zero, none⟩
    let batches : List (Batch (Exact i)) := [⟨0, [seen .ship 1], []⟩,
      ⟨2000000, [seen .asteroid 5], []⟩, ⟨2500000, [seen .asteroid 5], []⟩]
    let hour : Micros := 3600000000
    (∀ batch ∈ batches, batch.serverTime.toNat + hour.toNat < UInt64.size) ∧
      Tally.ofCues (replay settings 60 ((batches.map (·.later hour)).map .ok)) =
        Tally.ofCues (replay settings 60 (batches.map .ok)) := by
  intro i settings seen batches hour
  have fits : ∀ batch ∈ batches, batch.serverTime.toNat + hour.toNat < UInt64.size := by decide
  exact ⟨fits, (only_relative_times_count 60 hour).2 i settings batches fits⟩

end DeadReckoning
