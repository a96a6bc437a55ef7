import DeadReckoning.Proofs.Catalog.Silence
import DeadReckoning.Session
import Mathlib.Data.List.Perm.Basic
import Mathlib.Data.Option.Basic

namespace DeadReckoning

/-!
# Catalog — batches that are all later by one span

Tracks are told apart by which of two times is later, and moved by how far two times are apart. Both
stay what they are when all times are later by the same span. So a catalog that hears the same
batches at later times holds the same tracks at later times.

* `Micros.Shifted`, `Track.Shifted`, `Receipt.Shifted` — the same, later by a span
* `Catalog.Shifted` — catalogs with the same tracks, later by a span
* `Catalog.Shifted.expire`, `Catalog.Shifted.observeAll` — tracks that are dropped, and sightings
* `Batch.later`, `Catalog.Shifted.ingest` — a batch
-/

/-! ### Times -/

/-- A time is later than another by a span, without wrapping round. -/
def Micros.Shifted (span time later : Micros) : Prop := later.toNat = time.toNat + span.toNat

namespace Micros.Shifted

variable {span time time' other other' : Micros} (shifted : Micros.Shifted span time time')
  (shifted' : Micros.Shifted span other other')

include shifted shifted'

/-- Both times being later by the span, their order stays. -/
theorem le_iff : time ≤ other ↔ time' ≤ other' := by
  rw [UInt64.le_iff_toNat_le, UInt64.le_iff_toNat_le, shifted, shifted', Nat.add_le_add_iff_right]

theorem lt_iff : time < other ↔ time' < other' := by
  rw [← UInt64.not_le, ← UInt64.not_le, shifted'.le_iff shifted]

/-- Two times stay as far apart as they are. -/
theorem sub_eq (le : time ≤ other) : other' - time' = other - time := by
  have le' := (shifted.le_iff shifted').mp le
  refine UInt64.toNat.inj ?_
  rw [UInt64.toNat_sub_of_le _ _ le, UInt64.toNat_sub_of_le _ _ le', shifted, shifted']
  omega

/-- Differences that stop at zero stay what they are, too. -/
theorem toNat_before : (other'.before time').toNat = (other.before time).toNat := by
  rw [Micros.toNat_before, Micros.toNat_before, shifted, shifted']
  omega

/-- Whether a track has been silent for longer than a retention does not depend on the span, also
where the retention goes back to before the first of all times. -/
theorem lt_before_iff (retention : Micros) :
    time < other.before retention ↔ time' < other'.before retention := by
  rw [UInt64.lt_iff_toNat_lt, UInt64.lt_iff_toNat_lt, Micros.toNat_before, Micros.toNat_before,
    shifted, shifted']
  omega

end Micros.Shifted

/-! ### Tracks -/

variable {α : Type} {span : Micros}

/-- The same track, later by a span. -/
structure Track.Shifted (span : Micros) (track later : Track α) : Prop where
  time : Micros.Shifted span track.lastUpdate later.lastUpdate
  rest : { track with lastUpdate := later.lastUpdate } = later

/-- The same tracks, later by a span. -/
structure Catalog.Shifted (span : Micros) (catalog later : Catalog α) : Prop where
  keyed : catalog.Keyed
  keyed' : later.Keyed
  tracks (key : TrackKey) : Option.Rel (Track.Shifted span) (catalog.get? key) (later.get? key)

namespace Catalog.Shifted

theorem empty : Shifted span (.empty : Catalog α) .empty where
  keyed := keyed_empty
  keyed' := keyed_empty
  tracks key := by
    rw [get?_empty]
    exact .none

variable {catalog later : Catalog α}

/-- The same objects are tracked, and each was last heard of later by the span. -/
theorem heard?_eq (shifted : Shifted span catalog later) (key : TrackKey) :
    (later.heard? key).map UInt64.toNat =
      (catalog.heard? key).map fun time => time.toNat + span.toNat := by
  have tracks := shifted.tracks key
  unfold heard?
  generalize catalog.get? key = track?, later.get? key = later? at tracks
  cases tracks with
  | none => rfl
  | some same => exact congrArg some same.time

/-! ### Dropped tracks -/

variable {time time' : Micros} (shifted : Shifted span catalog later)
  (times : Micros.Shifted span time time')

include shifted times

/-- The same objects have been silent for longer than a retention. -/
theorem mem_expire_iff (retention : Micros) (key : TrackKey) :
    key ∈ (catalog.expire (time.before retention)).2 ↔
      key ∈ (later.expire (time'.before retention)).2 := by
  have tracks := shifted.tracks key
  rw [shifted.keyed.mem_expire, shifted.keyed'.mem_expire]
  generalize catalog.get? key = track?, later.get? key = later? at tracks
  cases tracks with
  | none => simp
  | some same => simpa using same.time.lt_before_iff times retention

/-- The same tracks are dropped from both, in some order each. -/
protected theorem expire (retention : Micros) :
    Shifted span (catalog.expire (time.before retention)).1
        (later.expire (time'.before retention)).1 ∧
      (catalog.expire (time.before retention)).2.Perm
        (later.expire (time'.before retention)).2 := by
  have expired := shifted.mem_expire_iff times retention
  refine ⟨⟨shifted.keyed.expire _, shifted.keyed'.expire _, fun key => ?_⟩, ?_⟩
  · show Option.Rel _ ((catalog.eraseAll (catalog.expire _).2).get? key)
      ((later.eraseAll (later.expire _).2).get? key)
    rw [get?_eraseAll, get?_eraseAll]
    by_cases dropped : key ∈ (catalog.expire (time.before retention)).2
    · rw [if_pos dropped, if_pos ((expired key).mp dropped)]
      exact .none
    · rw [if_neg dropped, if_neg (mt (expired key).mpr dropped)]
      exact shifted.tracks key
  · -- the two lists have the same members and none twice
    exact (List.perm_ext_iff_of_nodup (shifted.keyed.nodup_expire _)
      (shifted.keyed'.nodup_expire _)).mpr expired

/-! ### Sightings -/

variable [Scalar α]

omit shifted in
/-- What is known after a sighting is the same, later by the span. -/
theorem entered_shifted {track? later? : Option (Track α)}
    (tracks : Option.Rel (Track.Shifted span) track? later?) (s : Sighting α) :
    Track.Shifted span (entered track? s time) (entered later? s time') := by
  cases tracks with
  | none => exact ⟨times, rfl⟩
  | @some track other same =>
    obtain ⟨heard, rest⟩ := same
    rw [entered, entered, Track.advance?, Track.advance?]
    -- a sighting is stale for both or for neither
    by_cases old : time ≤ track.lastUpdate
    · rw [if_pos old, if_pos ((times.le_iff heard).mp old)]
      exact ⟨heard, rest⟩
    · rw [if_neg old, if_neg (mt (times.le_iff heard).mpr old)]
      refine ⟨times, ?_⟩
      have seconds : (Track.secondsBetween other.lastUpdate time' : α) =
          Track.secondsBetween track.lastUpdate time := by
        rw [Track.secondsBetween, Track.secondsBetween,
          heard.sub_eq times (UInt64.le_of_lt (UInt64.not_le.mp old))]
      rw [← rest] at seconds ⊢
      simp only [Option.getD_some, Track.advance, seconds]

/-- A sighting does the same to both. -/
protected theorem observe (s : Sighting α) :
    Shifted span (catalog.observe s time).1 (later.observe s time').1 ∧
      (catalog.observe s time).2 = (later.observe s time').2 := by
  refine ⟨⟨shifted.keyed.observe s time, shifted.keyed'.observe s time', fun key => ?_⟩, ?_⟩
  · rw [shifted.keyed.get?_observe, shifted.keyed'.get?_observe]
    by_cases own : s.key = key
    · rw [if_pos own, if_pos own]
      exact .some (entered_shifted times (shifted.tracks key) s)
    · rw [if_neg own, if_neg own]
      exact shifted.tracks key
  · have tracks := shifted.tracks s.key
    rw [observe_snd, observe_snd]
    -- what becomes of the sighting depends on nothing but the track of its object
    generalize catalog.get? s.key = track?, later.get? s.key = later? at tracks
    cases tracks with
    | none => rfl
    | some same => simp only [intakeOf, times.le_iff same.time]

protected theorem observeAll (sightings : List (Sighting α)) :
    Shifted span (catalog.observeAll time sightings).1 (later.observeAll time' sightings).1 ∧
      (catalog.observeAll time sightings).2 = (later.observeAll time' sightings).2 := by
  induction sightings generalizing catalog later with
  | nil => exact ⟨shifted, rfl⟩
  | cons s rest ih =>
    obtain ⟨observed, intake⟩ := shifted.observe times s
    obtain ⟨others, intakes⟩ := ih observed
    exact ⟨others, congrArg₂ List.cons intake intakes⟩

end Catalog.Shifted

/-! ### Batches -/

/-- The same batch at a time later by a span. -/
def Batch.later (span : Micros) (batch : Batch α) : Batch α :=
  { batch with serverTime := batch.serverTime + span }

/-- A span by which a batch can be later without wrapping round. -/
theorem Batch.shifted_later {batch : Batch α}
    (fits : batch.serverTime.toNat + span.toNat < UInt64.size) :
    Micros.Shifted span batch.serverTime (batch.later span).serverTime := by
  show (batch.serverTime + span).toNat = _
  rw [UInt64.toNat_add]
  exact Nat.mod_eq_of_lt fits

/-- The same became of a batch at a time later by a span; the dropped objects are the same. -/
structure Receipt.Shifted (span : Micros) (receipt later : Receipt) : Prop where
  time : Micros.Shifted span receipt.serverTime later.serverTime
  expired : receipt.expired.Perm later.expired
  rest : { receipt with serverTime := later.serverTime, expired := later.expired } = later

/-- A batch does the same to both catalogs. -/
protected theorem Catalog.Shifted.ingest [Scalar α] {catalog later : Catalog α}
    (shifted : Catalog.Shifted span catalog later) {batch : Batch α}
    (fits : batch.serverTime.toNat + span.toNat < UInt64.size) :
    Catalog.Shifted span (catalog.ingest batch).1 (later.ingest (batch.later span)).1 ∧
      (catalog.ingest batch).2.Shifted span (later.ingest (batch.later span)).2 := by
  have times := Batch.shifted_later fits
  obtain ⟨entered, intakes⟩ := shifted.observeAll times batch.sightings
  unfold Catalog.ingest
  dsimp only [Batch.later] at entered intakes times ⊢
  rw [intakes]
  exact ⟨entered, times, .refl _, rfl⟩

end DeadReckoning
