import DeadReckoning.Proofs.Catalog.Counts
import DeadReckoning.Proofs.Catalog.News
import DeadReckoning.Proofs.Feed.Agreement
import Mathlib.Algebra.BigOperators.Group.Finset.Basic
import Mathlib.Algebra.Order.BigOperators.Group.Finset

namespace DeadReckoning

/-!
# Replay — what the reckoning is measured by

Before a batch is taken in, every sighting of it that is later than the track of its object is
compared with where the object was reckoned to be. Of these sightings the first one of each object
updates the track. The others are stale by then, and were compared all the same: an object that a
batch tells of several times is measured several times.

* `Catalog.renewed` — the objects that a batch updates; `Batch.tellings` — how often it tells of one
* `Catalog.isSome_missOf?_iff`, `Catalog.length_misses` — which sightings are compared, and how many
* `Keyed.isUpdate_iff` — which of them count
* `replay_concat_ok`, `replay_concat_error` — what one more message adds to a replay
* `updates_le_samples` — how the samples of a feed compare with its updates
* `samples_are_tellings` — what is compared, what counts, and what the totals come to
* `ship_is_sampled_twice` — a feed where samples and updates differ
-/

open scoped BigOperators

variable {α : Type}

/-- How often a batch tells of an object. -/
def Batch.tellings (batch : Batch α) (key : TrackKey) : Nat :=
  (batch.sightings.map Sighting.key).count key

namespace Catalog

variable {catalog : Catalog α} {batch : Batch α}

/-- The objects that a batch updates: it tells of them, and their tracks are older. -/
def renewed (catalog : Catalog α) (batch : Batch α) : Finset TrackKey :=
  {key ∈ Sighting.objects batch.sightings |
    ∃ track ∈ catalog.get? key, track.lastUpdate < batch.serverTime}

/-- A batch tells of what it updates. -/
theorem tellings_pos {key : TrackKey} (renewed : key ∈ catalog.renewed batch) :
    1 ≤ batch.tellings key :=
  List.count_pos_iff.mpr (List.mem_toFinset.mp (Finset.mem_of_mem_filter key renewed))

/-- A batch tells at least once of each object that it updates. -/
theorem card_renewed_le (catalog : Catalog α) (batch : Batch α) :
    (catalog.renewed batch).card ≤ ∑ key ∈ catalog.renewed batch, batch.tellings key := by
  rw [Finset.card_eq_sum_ones]
  exact Finset.sum_le_sum fun _ mem => tellings_pos mem

/-- It tells as often as there are such objects if and only if it tells once of each. -/
theorem sum_tellings_eq_card_iff (catalog : Catalog α) (batch : Batch α) :
    ∑ key ∈ catalog.renewed batch, batch.tellings key = (catalog.renewed batch).card ↔
      ∀ key ∈ catalog.renewed batch, batch.tellings key = 1 := by
  rw [Finset.card_eq_sum_ones, eq_comm,
    Finset.sum_eq_sum_iff_of_le fun _ mem => tellings_pos mem]
  exact forall₂_congr fun _ _ => eq_comm

variable [Scalar α]

/-! ### Sightings that are compared -/

/-- A sighting is compared with the track if there is one that is older. -/
theorem isSome_missOf?_iff (catalog : Catalog α) (time : Micros) (s : Sighting α) :
    (catalog.missOf? time s).isSome ↔ ∃ track ∈ catalog.get? s.key, track.lastUpdate < time := by
  unfold missOf?
  cases catalog.get? s.key with
  | none => simp
  | some track =>
    by_cases later : track.lastUpdate < time
    · simp [later]
    · simp [later]

/-- The sightings that are compared are all those of objects that the batch updates. -/
theorem length_misses (catalog : Catalog α) (batch : Batch α) :
    (batch.sightings.filterMap (catalog.missOf? batch.serverTime)).length =
      ∑ key ∈ catalog.renewed batch, batch.tellings key := by
  let later (key : TrackKey) : Bool :=
    ∃ track ∈ catalog.get? key, track.lastUpdate < batch.serverTime
  let compared := (batch.sightings.map Sighting.key).filter later
  -- whether a sighting is compared depends on its key only, so the keys can be counted instead
  have objects : compared.toFinset = catalog.renewed batch := by
    ext key
    simp [compared, later, renewed, Sighting.objects]
  calc (batch.sightings.filterMap (catalog.missOf? batch.serverTime)).length
      = batch.sightings.countP fun s => later s.key := by
        rw [List.length_filterMap_eq_countP]
        refine List.countP_congr fun s _ => ?_
        rw [isSome_missOf?_iff]
        exact decide_eq_true_iff.symm
    _ = compared.length := by
        rw [← List.countP_eq_length_filter, List.countP_map]
        rfl
    _ = ∑ key ∈ catalog.renewed batch, compared.count key := by
        rw [← objects, List.sum_toFinset_count_eq_length]
    _ = ∑ key ∈ catalog.renewed batch, batch.tellings key := by
        refine Finset.sum_congr rfl fun key mem => List.count_filter ?_
        exact decide_eq_true (Finset.mem_filter.mp mem).2

/-- The sightings that update a track are the first ones of the objects that the batch updates. -/
theorem Keyed.isUpdate_iff (keyed : catalog.Keyed) {earlier later : List (Sighting α)}
    {s : Sighting α} (told : batch.sightings = earlier ++ s :: later) :
    ((catalog.observeAll batch.serverTime earlier).1.observe s batch.serverTime).2 = .updated ↔
      s.key ∈ catalog.renewed batch ∧ s.key ∉ Sighting.objects earlier := by
  have mem : s.key ∈ Sighting.objects batch.sightings :=
    Sighting.mem_objects.mpr ⟨s, by simp [told], rfl⟩
  rw [keyed.intake_of_next, renewed, Finset.mem_filter]
  by_cases again : s.key ∈ Sighting.objects earlier
  · simp [again]
  · rw [if_neg again, intakeOf_eq_updated_iff]
    simp [again, mem]

end Catalog

/-! ### Tallies -/

namespace Tally

variable [Scalar α] (cues others : List (Cue α))

/-- How many updates the receipts tell of. -/
def updates (cues : List (Cue α)) : Nat := total (cues.filterMap Cue.receipt?) (·.updated)

theorem samples_append :
    (ofCues (cues ++ others)).samples = (ofCues cues).samples + (ofCues others).samples := by
  simp [ofCues]

/-- Frames take no samples. -/
theorem samples_unframed :
    (ofCues (cues.filter (!·.isFrame))).samples = (ofCues cues).samples := by
  rw [ofCues_unframed]

omit [Scalar α] in
theorem updates_append : updates (cues ++ others) = updates cues + updates others := by
  unfold updates total
  rw [List.filterMap_append]
  induction cues.filterMap Cue.receipt? with
  | nil => exact (Nat.zero_add _).symm
  | cons receipt rest ih =>
    rw [List.cons_append, List.map_cons, List.foldr_cons, ih, List.map_cons, List.foldr_cons,
      Nat.add_assoc]

omit [Scalar α] in
/-- Frames update nothing. -/
theorem updates_unframed : updates (cues.filter (!·.isFrame)) = updates cues := by
  rw [updates, Cue.receipts_filter fun cue left => (Cue.quiet_of_isFrame cue left).1, updates]

end Tally

/-! ### One more message -/

section Messages

variable [Scalar α] (settings : Settings α) (framesPerSecond : UInt64)
  (feed : List (Except BatchError (Batch α)))

/-- Frames leave the tracks alone. -/
theorem Playback.catalog_drawFrames (period count : Nat) (playback : Playback α) :
    (playback.drawFrames period count).session.catalog = playback.session.catalog :=
  congrArg Session.Tracking.catalog (tracked_drawFrames period count playback)

/-- What is tracked when a feed has been replayed. -/
def catalogAfter : Catalog α :=
  ((Playback.start settings).takeAll (framePeriod framesPerSecond) feed).session.catalog

/-- Each track is under its own key when a feed has been replayed. -/
theorem keyed_catalogAfter : (catalogAfter settings framesPerSecond feed).Keyed := by
  induction feed using List.reverseRecOn with
  | nil => exact Catalog.keyed_empty
  | append_singleton earlier message ih =>
    rw [catalogAfter, Playback.takeAll_append]
    cases message with
    | error e => exact ih
    | ok batch =>
      refine Session.keyed_ingest ?_ batch _
      rw [Playback.catalog_drawFrames (α := α)]
      exact ih

/-- A message that is not readable adds nothing but a note of it. -/
theorem replay_concat_error (e : BatchError) :
    replay settings framesPerSecond (feed ++ [.error e]) =
      replay settings framesPerSecond feed ++ [.dropped e] := by
  rw [replay, Playback.takeAll_append]
  exact List.reverse_cons

/-- A batch adds, frames apart, its receipt and what was compared before it. -/
theorem replay_concat_ok (batch : Batch α) :
    ∃ receipt : Receipt, receipt.updated =
        ((catalogAfter settings framesPerSecond feed).renewed batch).card ∧
      (replay settings framesPerSecond (feed ++ [.ok batch])).filter (!·.isFrame) =
        (replay settings framesPerSecond feed).filter (!·.isFrame) ++
          [.delivery receipt (batch.sightings.filterMap
            ((catalogAfter settings framesPerSecond feed).missOf? batch.serverTime))] := by
  let period := framePeriod framesPerSecond
  let playback := (Playback.start settings).takeAll period feed
  let base := playback.base.getD batch.serverTime
  let offset := Playback.arrival base batch.serverTime
  let drawn := playback.drawFrames period (Playback.framesDue period playback.nextFrame offset)
  -- frames come before the batch, but the tracks are those of the feed before
  have catalog : drawn.session.catalog = catalogAfter settings framesPerSecond feed :=
    playback.catalog_drawFrames period _
  refine ⟨(drawn.session.ingest batch (.ofMicros offset)).2, ?_, ?_⟩
  · rw [Session.receipt_ingest]
    show (drawn.session.catalog.ingest batch).2.updated = _
    rw [catalog]
    exact (keyed_catalogAfter settings framesPerSecond feed).updated_ingest batch
  · have taken : replay settings framesPerSecond (feed ++ [.ok batch]) =
        (drawn.enter batch base offset).cues.reverse := by
      rw [replay, Playback.takeAll_append]
      rfl
    rw [taken, ← catalog, List.filter_reverse, replay, List.filter_reverse]
    show (Cue.delivery _ _ :: drawn.cues.filter _).reverse = _
    rw [List.reverse_cons, Playback.unframed_drawFrames]

/-- A batch adds as many samples as it tells of objects that it updates. -/
theorem samples_concat_ok (batch : Batch α) :
    let known := catalogAfter settings framesPerSecond feed
    let before := replay settings framesPerSecond feed
    let after := replay settings framesPerSecond (feed ++ [.ok batch])
    (Tally.ofCues after).samples =
        (Tally.ofCues before).samples + ∑ key ∈ known.renewed batch, batch.tellings key ∧
      Tally.updates after = Tally.updates before + (known.renewed batch).card := by
  intro known before after
  obtain ⟨receipt, updated, added⟩ := replay_concat_ok settings framesPerSecond feed batch
  rw [← Tally.samples_unframed after, ← Tally.updates_unframed after, added, Tally.samples_append,
    Tally.updates_append, Tally.samples_unframed, Tally.updates_unframed,
    ← known.length_misses batch, ← updated]
  constructor
  · simp [Tally.ofCues, Cue.misses, known, before]
  · rfl

/-- A message that is dropped takes no samples and updates nothing. -/
theorem samples_concat_error (e : BatchError) :
    let before := replay settings framesPerSecond feed
    let after := replay settings framesPerSecond (feed ++ [.error e])
    (Tally.ofCues after).samples = (Tally.ofCues before).samples ∧
      Tally.updates after = Tally.updates before := by
  intro before after
  have added : after = before ++ [.dropped e] := replay_concat_error settings framesPerSecond feed e
  rw [added, Tally.samples_append, Tally.updates_append]
  exact ⟨rfl, rfl⟩

/-- No batch of a feed tells more than once of an object that it updates. -/
def EachOnce : Prop :=
  ∀ before batch, before ++ [.ok batch] <+: feed →
    ∀ key ∈ (catalogAfter settings framesPerSecond before).renewed batch, batch.tellings key = 1

theorem eachOnce_nil : EachOnce settings framesPerSecond [] := by
  intro before batch first
  simp at first

/-- A message that is dropped tells of nothing. -/
theorem eachOnce_concat_error (e : BatchError) :
    EachOnce settings framesPerSecond (feed ++ [.error e]) ↔
      EachOnce settings framesPerSecond feed := by
  simp [EachOnce, List.prefix_concat_iff]

/-- One more batch must not tell twice of what it updates. -/
theorem eachOnce_concat_ok (batch : Batch α) :
    EachOnce settings framesPerSecond (feed ++ [.ok batch]) ↔
      EachOnce settings framesPerSecond feed ∧
        ∀ key ∈ (catalogAfter settings framesPerSecond feed).renewed batch,
          batch.tellings key = 1 := by
  simp only [EachOnce, List.prefix_concat_iff, or_imp, forall_and]
  constructor
  · rintro ⟨last, others⟩
    exact ⟨others, last feed batch rfl⟩
  · rintro ⟨others, last⟩
    refine ⟨fun before other same => ?_, others⟩
    obtain ⟨rfl, same⟩ := List.append_inj' same rfl
    obtain rfl : other = batch := by simpa using same
    exact last

/-- There are never fewer samples than updates, and as many if each object is told of once. -/
theorem updates_le_samples :
    let cues := replay settings framesPerSecond feed
    Tally.updates cues ≤ (Tally.ofCues cues).samples ∧
      ((Tally.ofCues cues).samples = Tally.updates cues ↔
        EachOnce settings framesPerSecond feed) := by
  intro cues
  -- the last message adds at least as many samples as updates
  induction feed using List.reverseRecOn with
  | nil => exact ⟨le_rfl, fun _ => eachOnce_nil settings framesPerSecond, fun _ => rfl⟩
  | append_singleton before message ih =>
    obtain ⟨fewer, even⟩ := ih
    cases message with
    | error e =>
      obtain ⟨sampled, updated⟩ := samples_concat_error settings framesPerSecond before e
      rw [sampled, updated, eachOnce_concat_error]
      exact ⟨fewer, even⟩
    | ok batch =>
      obtain ⟨sampled, updated⟩ := samples_concat_ok settings framesPerSecond before batch
      have more := (catalogAfter settings framesPerSecond before).card_renewed_le batch
      rw [sampled, updated, eachOnce_concat_ok, ← even, ← Catalog.sum_tellings_eq_card_iff]
      omega

end Messages

/-- The samples of a replay are tellings, not updates. A batch adds a sample for each sighting of an
object that it updates, whereas of these sightings the first alone is an update. So there are never
fewer samples than updates, and there are as many if and only if no batch of the feed tells more
than once of an object that it updates. -/
theorem samples_are_tellings [Scalar α] (settings : Settings α) (framesPerSecond : UInt64)
    (feed : List (Except BatchError (Batch α))) :
    let known := catalogAfter settings framesPerSecond feed
    let samples (feed : List (Except BatchError (Batch α))) :=
      (Tally.ofCues (replay settings framesPerSecond feed)).samples
    let updates (feed : List (Except BatchError (Batch α))) :=
      Tally.updates (replay settings framesPerSecond feed)
    (∀ batch : Batch α,
      samples (feed ++ [.ok batch]) =
          samples feed + ∑ key ∈ known.renewed batch, batch.tellings key ∧
        updates (feed ++ [.ok batch]) = updates feed + (known.renewed batch).card ∧
        ∀ earlier s later, batch.sightings = earlier ++ s :: later →
          ((known.missOf? batch.serverTime s).isSome ↔ s.key ∈ known.renewed batch) ∧
          (((known.observeAll batch.serverTime earlier).1.observe s batch.serverTime).2 =
              .updated ↔
            s.key ∈ known.renewed batch ∧ s.key ∉ Sighting.objects earlier)) ∧
      updates feed ≤ samples feed ∧
      (samples feed = updates feed ↔ EachOnce settings framesPerSecond feed) := by
  intro known samples updates
  refine ⟨fun batch => ?_, updates_le_samples settings framesPerSecond feed⟩
  obtain ⟨sampled, updated⟩ := samples_concat_ok settings framesPerSecond feed batch
  refine ⟨sampled, updated, fun earlier s later told => ⟨?_, ?_⟩⟩
  · -- a sighting is compared whether its object was told of before or not
    have mem : s.key ∈ Sighting.objects batch.sightings :=
      Sighting.mem_objects.mpr ⟨s, by simp [told], rfl⟩
    rw [Catalog.isSome_missOf?_iff, Catalog.renewed, Finset.mem_filter]
    exact ⟨fun older => ⟨mem, older⟩, And.right⟩
  · exact (keyed_catalogAfter settings framesPerSecond feed).isUpdate_iff told

/-- A ship is seen, and a second later it is seen twice in one batch: it is updated once, the other
sighting is stale, and both are sampled. -/
theorem ship_is_sampled_twice :
    let seen (x : Float) : Sighting Float := ⟨.ship, 1, ⟨x, 0.0⟩, ⟨1.0, 0.0⟩, none⟩
    let feed : List (Except BatchError (Batch Float)) :=
      [.ok ⟨0, [seen 0.0], []⟩, .ok ⟨1000000, [seen 1.0, seen 1.0], []⟩]
    let cues := replay .standard 1 feed
    (Tally.ofCues cues).samples = 2 ∧ Tally.updates cues = 1 ∧ (Tally.ofCues cues).stale = 1 := by
  decide +kernel

end DeadReckoning
