import Mathlib.Data.List.Nodup
import DeadReckoning.Proofs.Catalog.History
import DeadReckoning.Session

namespace DeadReckoning

/-!
# Catalog — batches that are delivered in another order

Where an object is last seen hangs on the latest sighting of it alone, in whatever order the
sightings come. Its acceleration and radius come from the sightings that counted, and those depend
on the order; they stay the same as long as the sightings of each object stay in order.

* `Course`, `Track.course` — what the latest sighting tells of an object
* `Course.latest_comm` — sightings of different times can be swapped
* `Catalog.course_observeDated` — the course of an object after a history
* `Catalog.SameEffect` — lists of sightings that come to the same; `sameEffect_of_filter`: so they
  do if each object is told of in the same order
* `Catalog.ingestAll` — several batches
* `delivery_order_does_not_matter` — batches in another order, and their items
-/

variable {α : Type}

/-- What the latest sighting tells of an object. -/
structure Course (α : Type) where
  time : Micros
  position : Vec2 α
  velocity : Vec2 α
  heading : Option α

/-- The sightings of a batch, all of its time. -/
def Batch.dated (batch : Batch α) : List (Dated α) := batch.sightings.map (⟨·, batch.serverTime⟩)

namespace Batch

/-- The same sightings of the same time, in any order. -/
structure Permuted (b c : Batch α) : Prop where
  serverTime : b.serverTime = c.serverTime
  sightings : b.sightings.Perm c.sightings

/-- The same sightings of the same time, where those of each object are in the same order. -/
structure Rearranged (b c : Batch α) : Prop where
  serverTime : b.serverTime = c.serverTime
  sightings (key : TrackKey) :
    b.sightings.filter (·.key = key) = c.sightings.filter (·.key = key)

end Batch

/-- How many objects of a batch were created, updated and stale. -/
def Receipt.counts (receipt : Receipt) : Nat × Nat × Nat :=
  (receipt.created, receipt.updated, receipt.stale)

variable [Scalar α]

/-- What a sighting tells of its object. -/
def Dated.course (s : Dated α) : Course α :=
  ⟨s.time, s.sighting.position, s.sighting.velocity, s.sighting.velocity.heading?⟩

/-- What a track says of the latest sighting. -/
def Track.course (track : Track α) : Course α :=
  ⟨track.lastUpdate, track.position, track.velocity, track.heading?⟩

/-! ### The latest sighting -/

namespace Course

/-- What is told after one more sighting: that of a sighting which is not later does not count. -/
def latest (known? : Option (Course α)) (s : Dated α) : Option (Course α) :=
  match known? with
  | none => some s.course
  | some known => if s.time ≤ known.time then some known else some s.course

theorem latest_none (s : Dated α) : latest none s = some s.course := rfl

/-- Another sighting counts if it is later. -/
theorem latest_some (known : Course α) (s : Dated α) :
    latest (some known) s = some (if s.time ≤ known.time then known else s.course) :=
  (apply_ite some _ _ _).symm

/-- Two sightings of different times can be swapped. -/
theorem latest_comm (known? : Option (Course α)) {s t : Dated α}
    (distinct : s.time = t.time → s = t) :
    latest (latest known? s) t = latest (latest known? t) s := by
  by_cases same : s = t
  · rw [same]
  · have apart : s.time ≠ t.time := mt distinct same
    have ofS : s.course.time = s.time := rfl
    have ofT : t.course.time = t.time := rfl
    -- of two different times one is later, and its sighting wins in either order
    rw [ne_eq, ← UInt64.toNat_inj] at apart
    cases known? with
    | none =>
      simp only [latest_none, latest_some, UInt64.le_iff_toNat_le, ofS, ofT]
      grind
    | some known =>
      simp only [latest_some, UInt64.le_iff_toNat_le]
      grind

end Course

namespace Catalog

variable {catalog : Catalog α}

/-- What a sighting makes of the course of its object. -/
theorem course_entered (track? : Option (Track α)) (s : Dated α) :
    some (entered track? s.sighting s.time).course = Course.latest (track?.map Track.course) s := by
  cases track? with
  | none => rfl
  | some track =>
    show some ((track.advance? s.sighting s.time).getD track).course =
      if s.time ≤ track.lastUpdate then _ else _
    unfold Track.advance?
    split
    · rfl
    · rfl

/-- The course of an object after a history is that of its own sightings, one after the other. -/
theorem course_observeDated (keyed : catalog.Keyed) (history : List (Dated α)) (key : TrackKey) :
    ((catalog.observeDated history).1.get? key).map Track.course =
      (sightingsOf key history).foldl Course.latest ((catalog.get? key).map Track.course) := by
  induction history generalizing catalog with
  | nil => rfl
  | cons s rest ih =>
    have step := ih (keyed.observe s.sighting s.time)
    rw [keyed.get?_observe] at step
    refine step.trans ?_
    unfold sightingsOf
    by_cases own : s.sighting.key = key
    · rw [if_pos own, Option.map_some, course_entered,
        List.filter_cons, if_pos (decide_eq_true own)]
      rfl
    · rw [if_neg own, List.filter_cons, if_neg (by simpa using own)]

/-- If no object is seen twice at one time, histories with the same sightings lead to the same
courses. -/
theorem course_of_perm (keyed : catalog.Keyed) {history other : List (Dated α)}
    (distinct : (history.map fun s => (s.sighting.key, s.time)).Nodup)
    (perm : history.Perm other) (key : TrackKey) :
    ((catalog.observeDated history).1.get? key).map Track.course =
      ((catalog.observeDated other).1.get? key).map Track.course := by
  rw [course_observeDated keyed, course_observeDated keyed]
  refine (perm.filter _).foldl_eq' (fun s seen t seen' known? => ?_) _
  obtain ⟨listed, own⟩ := List.mem_filter.mp seen
  obtain ⟨listed', own'⟩ := List.mem_filter.mp seen'
  refine Course.latest_comm known? fun sameTime => ?_
  refine List.inj_on_of_nodup_map distinct listed listed' (Prod.ext ?_ sameTime)
  exact (of_decide_eq_true own).trans (of_decide_eq_true own').symm

/-! ### Sightings of one batch -/

/-- Lists of sightings that lead to the same tracks at any time, with as many sightings created,
updated and stale. -/
def SameEffect (xs ys : List (Sighting α)) : Prop :=
  ∀ (catalog : Catalog α) (time : Micros), catalog.Keyed →
    (catalog.observeAll time xs).1 = (catalog.observeAll time ys).1 ∧
      (catalog.observeAll time xs).2.Perm (catalog.observeAll time ys).2

namespace SameEffect

variable {xs ys zs : List (Sighting α)} {s t : Sighting α}

theorem refl (xs : List (Sighting α)) : SameEffect xs xs := fun _ _ _ => ⟨rfl, .refl _⟩

theorem trans (first : SameEffect xs ys) (second : SameEffect ys zs) : SameEffect xs zs := by
  intro catalog time keyed
  obtain ⟨tracks, intakes⟩ := first catalog time keyed
  obtain ⟨tracks', intakes'⟩ := second catalog time keyed
  exact ⟨tracks.trans tracks', intakes.trans intakes'⟩

theorem cons (s : Sighting α) (same : SameEffect xs ys) : SameEffect (s :: xs) (s :: ys) := by
  intro catalog time keyed
  obtain ⟨tracks, intakes⟩ := same _ time (keyed.observe s time)
  exact ⟨tracks, intakes.cons _⟩

/-- Sightings of different objects can be swapped. -/
theorem swap (other : s.key ≠ t.key) (rest : List (Sighting α)) :
    SameEffect (s :: t :: rest) (t :: s :: rest) := by
  intro catalog time keyed
  -- each of the two sightings is entered into a track that the other does not touch
  have tracks : ((catalog.observe s time).1.observe t time).1 =
      ((catalog.observe t time).1.observe s time).1 := by
    ext1 key
    rw [(keyed.observe s time).get?_observe, (keyed.observe t time).get?_observe,
      keyed.get?_observe, keyed.get?_observe]
    by_cases first : s.key = key
    · rw [if_pos first, if_pos first, if_neg (first ▸ Ne.symm other),
        if_neg (first ▸ Ne.symm other)]
    · rw [if_neg first, if_neg first]
  have intake : ((catalog.observe s time).1.observe t time).2 = (catalog.observe t time).2 := by
    rw [observe_snd, observe_snd, keyed.get?_observe, if_neg other]
  have intake' : ((catalog.observe t time).1.observe s time).2 = (catalog.observe s time).2 := by
    rw [observe_snd, observe_snd, keyed.get?_observe, if_neg (Ne.symm other)]
  simp only [observeAll, tracks, intake, intake']
  exact ⟨trivial, .swap _ _ _⟩

/-- A sighting can be put before those of other objects. -/
theorem front (others : ∀ t ∈ xs, t.key ≠ s.key) (rest : List (Sighting α)) :
    SameEffect (s :: (xs ++ rest)) (xs ++ s :: rest) := by
  induction xs with
  | nil => exact .refl _
  | cons t xs ih =>
    have other : s.key ≠ t.key := (others t List.mem_cons_self).symm
    have moved := ih fun u listed => others u (List.mem_cons_of_mem t listed)
    exact (swap other _).trans (moved.cons t)

end SameEffect

/-- Lists of sightings come to the same if each object is told of in the same order. -/
theorem sameEffect_of_filter {xs ys : List (Sighting α)}
    (same : ∀ key, xs.filter (·.key = key) = ys.filter (·.key = key)) : SameEffect xs ys := by
  -- the first sighting of the one is, in the other, the first of its object
  induction xs generalizing ys with
  | nil =>
    cases ys with
    | nil => exact .refl _
    | cons t ys =>
      have own := same t.key
      simp at own
  | cons s xs ih =>
    have own := same s.key
    rw [List.filter_cons, if_pos (decide_eq_true rfl)] at own
    obtain ⟨before, rest, rfl, others, -, -⟩ := List.filter_eq_cons_iff.mp own.symm
    have others : ∀ t ∈ before, t.key ≠ s.key := fun t listed => by simpa using others t listed
    refine ((ih fun key => ?_).cons s).trans (SameEffect.front others rest)
    have told := same key
    rw [List.filter_append, List.filter_cons, List.filter_cons] at told
    rw [List.filter_append]
    by_cases isOwn : s.key = key
    · have unseen : before.filter (·.key = key) = [] := by
        rw [List.filter_eq_nil_iff]
        intro t listed
        simpa [← isOwn] using others t listed
      rw [if_pos (decide_eq_true isOwn), if_pos (decide_eq_true isOwn), unseen] at told
      rw [unseen]
      exact (List.cons.inj told).2
    · rw [if_neg (by simpa using isOwn), if_neg (by simpa using isOwn)] at told
      exact told

/-! ### Batches -/

/-- The catalog after several batches, and what became of each. -/
def ingestAll (catalog : Catalog α) : List (Batch α) → Catalog α × List Receipt
  | [] => (catalog, [])
  | batch :: rest =>
    let (catalog, receipt) := catalog.ingest batch
    let (catalog, receipts) := ingestAll catalog rest
    (catalog, receipt :: receipts)

/-- Histories may be taken in two parts, one after the other. -/
theorem observeDated_append (catalog : Catalog α) (before after : List (Dated α)) :
    (catalog.observeDated (before ++ after)).1 =
      ((catalog.observeDated before).1.observeDated after).1 := by
  induction before generalizing catalog with
  | nil => rfl
  | cons s rest ih => exact ih _

/-- The sightings of a batch are all of one time. -/
theorem observeDated_map (catalog : Catalog α) (time : Micros) (sightings : List (Sighting α)) :
    (catalog.observeDated (sightings.map (⟨·, time⟩))).1 =
      (catalog.observeAll time sightings).1 := by
  induction sightings generalizing catalog with
  | nil => rfl
  | cons s rest ih => exact ih _

/-- Several batches are the history of their sightings. -/
theorem ingestAll_eq (catalog : Catalog α) (batches : List (Batch α)) :
    (catalog.ingestAll batches).1 = (catalog.observeDated (batches.flatMap Batch.dated)).1 := by
  induction batches generalizing catalog with
  | nil => rfl
  | cons batch rest ih =>
    rw [List.flatMap_cons, observeDated_append, Batch.dated, observeDated_map]
    exact ih _

omit [Scalar α] in
/-- The history of batches has the same sightings if their order and that of their items changes. -/
theorem perm_dated {first middle second : List (Batch α)} (order : first.Perm middle)
    (items : List.Forall₂ Batch.Permuted middle second) :
    (first.flatMap Batch.dated).Perm (second.flatMap Batch.dated) := by
  refine (order.flatMap_right _).trans ?_
  clear order
  induction items with
  | nil => exact .refl _
  | @cons b c bs cs permuted _ ih =>
    rw [List.flatMap_cons, List.flatMap_cons]
    have dated : b.dated.Perm c.dated := by
      rw [Batch.dated, Batch.dated, permuted.serverTime]
      exact permuted.sightings.map _
    exact dated.append ih

/-- A batch whose items are rearranged does the same. -/
theorem ingest_rearranged (keyed : catalog.Keyed) {b c : Batch α} (same : b.Rearranged c) :
    (catalog.ingest b).1 = (catalog.ingest c).1 ∧
      (catalog.ingest b).2.counts = (catalog.ingest c).2.counts := by
  obtain ⟨tracks, intakes⟩ := sameEffect_of_filter same.sightings catalog b.serverTime keyed
  unfold ingest Receipt.counts
  dsimp only
  rw [← same.serverTime, tracks, intakes.count_eq, intakes.count_eq, intakes.count_eq]
  exact ⟨rfl, rfl⟩

/-- Batches whose items are rearranged do the same, one after the other. -/
theorem ingestAll_rearranged (keyed : catalog.Keyed) {first second : List (Batch α)}
    (same : List.Forall₂ Batch.Rearranged first second) :
    (catalog.ingestAll first).1 = (catalog.ingestAll second).1 ∧
      (catalog.ingestAll first).2.map Receipt.counts =
        (catalog.ingestAll second).2.map Receipt.counts := by
  induction same generalizing catalog with
  | nil => exact ⟨rfl, rfl⟩
  | @cons b c bs cs rearranged _ ih =>
    obtain ⟨tracks, counts⟩ := ingest_rearranged keyed rearranged
    have keyed : (catalog.ingest b).1.Keyed := keyed.observeAll b.serverTime b.sightings
    obtain ⟨others, otherCounts⟩ := ih keyed
    rw [tracks] at others otherCounts
    exact ⟨(congrArg (fun catalog => (ingestAll catalog bs).1) tracks).trans others,
      List.cons_eq_cons.mpr ⟨counts, (congrArg (fun catalog =>
        (ingestAll catalog bs).2.map Receipt.counts) tracks).trans otherCounts⟩⟩

/-- Batches may be delivered in any order. If no object is seen twice at one time, the same objects
are tracked after any order of the batches and of the items in each, and the time, position,
velocity and heading of every track are the same. Where the batches stay in order and so do the
items of each object, all of every track is the same, and so are the counts of every batch. -/
theorem delivery_order_does_not_matter (keyed : catalog.Keyed) :
    (∀ first middle second : List (Batch α),
      ((first.flatMap Batch.dated).map fun s => (s.sighting.key, s.time)).Nodup →
      first.Perm middle → List.Forall₂ Batch.Permuted middle second → ∀ key,
        ((catalog.ingestAll first).1.get? key).map Track.course =
          ((catalog.ingestAll second).1.get? key).map Track.course) ∧
    ∀ first second : List (Batch α), List.Forall₂ Batch.Rearranged first second →
      (catalog.ingestAll first).1 = (catalog.ingestAll second).1 ∧
        (catalog.ingestAll first).2.map Receipt.counts =
          (catalog.ingestAll second).2.map Receipt.counts := by
  refine ⟨fun first middle second distinct order items key => ?_, fun first second same =>
    ingestAll_rearranged keyed same⟩
  rw [ingestAll_eq, ingestAll_eq]
  exact course_of_perm keyed distinct (perm_dated order items) key

/-- Two batches of a ship and an asteroid, delivered in either order. -/
theorem either_delivery_order_will_do :
    let ship : Sighting Float := ⟨.ship, 1, .zero, .zero, none⟩
    let rock : Sighting Float := ⟨.asteroid, 1, .zero, .zero, none⟩
    let early : Batch Float := ⟨3, [ship, rock], []⟩
    let late : Batch Float := ⟨5, [rock], []⟩
    (∀ key, (((empty : Catalog Float).ingestAll [early, late]).1.get? key).map Track.course =
      (((empty : Catalog Float).ingestAll [late, ⟨3, [rock, ship], []⟩]).1.get? key).map
        Track.course) ∧
    ((empty : Catalog Float).ingestAll [early, late]).1 =
      ((empty : Catalog Float).ingestAll [⟨3, [rock, ship], []⟩, late]).1 := by
  intro ship rock early late
  obtain ⟨reordered, rearranged⟩ := delivery_order_does_not_matter (keyed_empty (α := Float))
  refine ⟨reordered [early, late] [late, early] [late, ⟨3, [rock, ship], []⟩] ?_ (.swap _ _ _) ?_,
    (rearranged [early, late] [⟨3, [rock, ship], []⟩, late] ?_).1⟩
  · decide
  · exact .cons ⟨rfl, .refl _⟩ (.cons ⟨rfl, .swap _ _ _⟩ .nil)
  · refine .cons ⟨rfl, fun key => ?_⟩ (.cons ⟨rfl, fun _ => rfl⟩ .nil)
    have apart : ship.key ≠ rock.key := by decide
    simp only [early, List.filter_cons, List.filter_nil]
    by_cases isShip : ship.key = key
    · simp [isShip, (isShip ▸ apart).symm]
    · simp [isShip]

end Catalog

end DeadReckoning
