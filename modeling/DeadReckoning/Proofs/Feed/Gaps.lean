import DeadReckoning.Proofs.Binary64.Truncation
import DeadReckoning.Proofs.Feed.Recording

namespace DeadReckoning

/-!
# Gaps — the times of the batches of a made-up feed

The gap from one batch to the next is drawn from half to one and a half times the mean. No gap is
zero, so a feed comes to its end, and none is longer than that, so the last batch is close to it.

* `OrderlyChance` — sources whose natural numbers are in the range that was asked for
* `Plan.leastGap`, `Plan.greatestGap` — the bounds of the gaps
* `Plan.Schedule` — times with such gaps, from one of them up to the end
* `Plan.always_recordFrom_schedule` — a feed is recorded at such times, whatever is drawn
* `Plan.times_of_record` — what follows for the first, the last and the number of the batches
-/

open Binary64

/-- A source whose natural numbers are in the range that is asked for. -/
class OrderlyChance (σ : Type) [Chance σ] : Prop where
  natural {low high : UInt64} (ordered : low ≤ high) :
    Always (Chance.natural low high : StateM σ UInt64) fun n => low ≤ n ∧ n ≤ high

instance : OrderlyChance Lowest where
  natural ordered := .pure ⟨UInt64.le_refl _, ordered⟩

namespace ChaCha

/-- Offsets below the size of a range lead into it. -/
theorem add_ofNat_mem_range {low high : UInt64} {offset : ℕ}
    (small : offset < high.toNat + 1 - low.toNat) :
    low ≤ low + UInt64.ofNat offset ∧ low + UInt64.ofNat offset ≤ high := by
  have top := high.toNat_lt
  have fits : offset < 2 ^ 64 := by omega
  have sum : (low + UInt64.ofNat offset).toNat = low.toNat + offset := by
    rw [UInt64.toNat_add, UInt64.toNat_ofNat_of_lt' fits]
    exact Nat.mod_eq_of_lt (by omega)
  rw [UInt64.le_iff_toNat_le, UInt64.le_iff_toNat_le, sum]
  omega

/-- A number that counts as drawn is in its range: no word is spread beyond it. -/
theorem always_tryNatural {low high : UInt64} (ordered : low ≤ high) :
    Always (tryNatural low (high.toNat + 1 - low.toNat)) fun n? =>
      ∀ n, n? = some n → low ≤ n ∧ n ≤ high := by
  refine (Always.any word).bind fun w _ => .pure ?_
  intro n drawn
  obtain ⟨-, isSum⟩ := Option.ite_none_right_eq_some.mp drawn
  obtain rfl := Option.some.inj isSum
  have nonempty : 0 < high.toNat + 1 - low.toNat := by
    rw [UInt64.le_iff_toNat_le] at ordered
    omega
  refine add_ofNat_mem_range (Nat.div_lt_of_lt_mul ?_)
  exact Nat.mul_lt_mul_of_pos_right w.toNat_lt nonempty

instance : OrderlyChance ChaCha where
  natural ordered := always_firstSuccess (always_tryNatural ordered) ⟨UInt64.le_refl _, ordered⟩
    patience

end ChaCha

namespace Plan

/-! ### The bounds of the gaps -/

/-- The mean gap of a plan in milliseconds. -/
def meanGap (plan : Plan) : ℕ := max 1 (min plan.interval.toNat 3600000)

/-- The shortest gap that may be drawn, in microseconds. -/
def leastGap (plan : Plan) : ℕ := max 1 (plan.meanGap / 2) * 1000

/-- The longest gap that may be drawn, in microseconds. -/
def greatestGap (plan : Plan) : ℕ := (plan.meanGap + plan.meanGap / 2) * 1000

theorem meanGap_le (plan : Plan) : plan.meanGap ≤ 3600000 := by
  unfold meanGap
  omega

/-- No gap is empty. -/
theorem leastGap_pos (plan : Plan) : 0 < plan.leastGap := by
  unfold leastGap
  omega

/-- The mean that is used is the one asked for, within its bounds. -/
theorem toNat_clampInterval (plan : Plan) : (clampInterval plan.interval).toNat = plan.meanGap := by
  have hour : greatestInterval.toNat = 3600000 := rfl
  have one : (1 : UInt64).toNat = 1 := rfl
  unfold clampInterval meanGap
  rw [UInt64.toNat_max, UInt64.toNat_min, hour, one]

/-- The ends of the range that is drawn from, in natural numbers: their sum does not wrap round. -/
theorem toNat_ends (plan : Plan) :
    (clampInterval plan.interval / 2).toNat = plan.meanGap / 2 ∧
      (clampInterval plan.interval + clampInterval plan.interval / 2).toNat =
        plan.meanGap + plan.meanGap / 2 := by
  have hour := plan.meanGap_le
  have two : (2 : UInt64).toNat = 2 := rfl
  rw [UInt64.toNat_add, UInt64.toNat_div, toNat_clampInterval, two]
  exact ⟨rfl, Nat.mod_eq_of_lt (by omega)⟩

/-- There is something to draw from. -/
theorem ends_ordered (plan : Plan) : clampInterval plan.interval / 2 ≤
    clampInterval plan.interval + clampInterval plan.interval / 2 := by
  rw [UInt64.le_iff_toNat_le, plan.toNat_ends.1, plan.toNat_ends.2]
  exact Nat.le_add_left _ _

/-- What is drawn makes a gap within the bounds, and this is a word in microseconds as well. -/
theorem gap_of_drawn (plan : Plan) {drawn : UInt64}
    (above : clampInterval plan.interval / 2 ≤ drawn)
    (below : drawn ≤ clampInterval plan.interval + clampInterval plan.interval / 2) :
    (plan.leastGap ≤ gapMicros drawn ∧ gapMicros drawn ≤ plan.greatestGap) ∧
      (max drawn 1 * 1000).toNat = gapMicros drawn := by
  rw [UInt64.le_iff_toNat_le, plan.toNat_ends.1] at above
  rw [UInt64.le_iff_toNat_le, plan.toNat_ends.2] at below
  have pos : 1 ≤ plan.meanGap := le_max_left _ _
  have hour := plan.meanGap_le
  have one : (1 : UInt64).toNat = 1 := rfl
  have thousand : (1000 : UInt64).toNat = 1000 := rfl
  rw [UInt64.toNat_mul, UInt64.toNat_max, one, thousand]
  unfold leastGap greatestGap gapMicros
  refine ⟨⟨?_, ?_⟩, Nat.mod_eq_of_lt ?_⟩ <;> omega

variable {σ : Type} [Chance σ]

/-- The gaps between batches are within the bounds, whatever is drawn. -/
theorem always_nextGap [OrderlyChance σ] (plan : Plan) :
    Always (nextGap plan.interval : StateM σ ℕ) fun gap =>
      plan.leastGap ≤ gap ∧ gap ≤ plan.greatestGap :=
  (OrderlyChance.natural plan.ends_ordered).bind fun _ ⟨above, below⟩ =>
    .pure (plan.gap_of_drawn above below).1

/-! ### Schedules -/

/-- Times with gaps within the bounds, the first of which is given, while the last is not a gap away
from the end. -/
inductive Schedule (plan : Plan) : Micros → List Micros → Prop where
  | last {time : Micros} (admitted : time ≤ plan.finish)
    (near : plan.finish.toNat ≤ time.toNat + plan.greatestGap) : Schedule plan time [time]
  | next {time later : Micros} {times : List Micros} (admitted : time ≤ plan.finish)
    (least : time.toNat + plan.leastGap ≤ later.toNat)
    (greatest : later.toNat ≤ time.toNat + plan.greatestGap) (rest : Schedule plan later times) :
    Schedule plan time (time :: times)

/-- A report is of the time that it is made at. -/
theorem serverTime_report (bodies : List (Body Float)) (time : Micros) :
    Always (report bodies time : StateM σ (Batch Float)) (·.serverTime = time) :=
  (Always.any _).bind fun _ _ => .pure rfl

/-- Whatever is drawn, recording goes on at the times of a schedule. -/
theorem always_recordFrom_schedule [OrderlyChance σ] (plan : Plan) (bodies : List (Body Float))
    {earlier : List (Batch Float)} {time : Micros} (admitted : time ≤ plan.finish) :
    Always (recordFrom plan bodies earlier time : StateM σ (List (Batch Float))) fun batches =>
      ∃ later, batches = earlier.reverse ++ later ∧
        plan.Schedule time (later.map (·.serverTime)) := by
  induction time using plan.admits_induction generalizing earlier with
  | step time ih =>
    rw [recordFrom_eq]
    refine (serverTime_report bodies time).bind fun batch isNow => ?_
    refine plan.always_nextGap.bind fun gap ⟨least, greatest⟩ => ?_
    have sum := Micros.toNat_after time gap
    have pos := plan.leastGap_pos.trans_le least
    split
    next admits =>
      -- the next time is below the greatest there is, so the sum was not cut
      have uncut := admits.1
      refine (ih gap pos admits admits.2).mono fun batches goesOn => ?_
      obtain ⟨later, all, rest⟩ := goesOn
      refine ⟨batch :: later, by simpa using all, ?_⟩
      rw [List.map_cons, isNow]
      exact .next admitted (by omega) (by omega) rest
    next ends =>
      -- the next time is behind the end, or it is the greatest there is
      have top := plan.finish.toNat_lt_size
      rw [Admits, UInt64.le_iff_toNat_le] at ends
      refine .pure ⟨[batch], List.reverse_cons, ?_⟩
      rw [List.map_singleton, isNow]
      exact .last admitted (by omega)

namespace Schedule

variable {plan : Plan} {time : Micros} {times : List Micros}

theorem head?_eq (schedule : plan.Schedule time times) : times.head? = some time := by
  cases schedule <;> rfl

theorem le_finish (schedule : plan.Schedule time times) : ∀ t ∈ times, t ≤ plan.finish := by
  induction schedule with
  | last admitted => simpa using admitted
  | next admitted _ _ _ ih => exact List.forall_mem_cons.mpr ⟨admitted, ih⟩

/-- Each time is followed by one whose gap is within the bounds. -/
theorem isChain (schedule : plan.Schedule time times) :
    times.IsChain fun t u =>
      t.toNat + plan.leastGap ≤ u.toNat ∧ u.toNat ≤ t.toNat + plan.greatestGap := by
  induction schedule with
  | last => exact .singleton _
  | next _ least greatest rest ih =>
    cases rest with
    | last => exact .cons_cons ⟨least, greatest⟩ ih
    | next => exact .cons_cons ⟨least, greatest⟩ ih

/-- Times grow, since no gap is empty. -/
theorem pairwise_lt (schedule : plan.Schedule time times) : times.Pairwise (· < ·) := by
  have pos := plan.leastGap_pos
  rw [← List.isChain_iff_pairwise]
  refine schedule.isChain.imp fun t u gap => ?_
  rw [UInt64.lt_iff_toNat_lt]
  omega

/-- All gaps but the last one end in time. -/
theorem length_mul_leastGap_le (schedule : plan.Schedule time times) :
    time.toNat + times.length * plan.leastGap ≤ plan.finish.toNat + plan.leastGap := by
  induction schedule with
  | last admitted =>
    have := UInt64.le_iff_toNat_le.mp admitted
    rw [List.length_singleton]
    omega
  | next _ least _ _ ih =>
    rw [List.length_cons, Nat.succ_mul]
    omega

/-- As many gaps as there are times reach to the end. -/
theorem finish_le (schedule : plan.Schedule time times) :
    plan.finish.toNat ≤ time.toNat + times.length * plan.greatestGap := by
  induction schedule with
  | last _ near =>
    rw [List.length_singleton]
    omega
  | next _ _ greatest _ ih =>
    rw [List.length_cons, Nat.succ_mul]
    omega

end Schedule

/-- A feed is recorded at the times of a schedule that begins at zero. -/
theorem always_record_schedule [OrderlyChance σ] [Trigonometry] (plan : Plan) :
    Always (plan.record : StateM σ (List (Batch Float))) fun batches =>
      plan.Schedule 0 (batches.map (·.serverTime)) := by
  refine (Always.any _).bind fun bodies _ => ?_
  have zero : (0 : Micros) ≤ plan.finish := UInt64.le_iff_toNat_le.mpr (Nat.zero_le _)
  refine (plan.always_recordFrom_schedule bodies zero).mono fun batches ⟨later, all, schedule⟩ => ?_
  rwa [all]

/-! ### The end, and the numbers on the way to it -/

/-- The end is the whole part of what the duration is in microseconds. Where there is no such word,
it is the first or the last of the words. -/
theorem finish_eq (plan : Plan) :
    let span := plan.duration * microsPerSecond
    (∀ v, IsValue span v → plan.finish.toNat = min ⌊v⌋₊ (UInt64.size - 1)) ∧
      (span.isNaN → plan.finish.toNat = 0) ∧
      (¬span.isFinite → (0.0 < span → plan.finish.toNat = UInt64.size - 1) ∧
        (span < 0.0 → plan.finish.toNat = 0)) := by
  refine ⟨fun v hv => hv.toNat_toUInt64, fun nan => ?_, fun infinite => ⟨?_, fun below => ?_⟩⟩
  · rw [finish, toUInt64_of_isNaN nan]
    rfl
  · exact (toUInt64_of_infinite infinite).1
  · rw [finish, (toUInt64_of_infinite infinite).2 below]
    rfl

/-- There are fewer batches than words. -/
theorem Schedule.length_lt {plan : Plan} {time : Micros} {times : List Micros}
    (schedule : plan.Schedule time times) : times.length < UInt64.size := by
  have size : UInt64.size = 2 ^ 64 := rfl
  have top := plan.finish.toNat_lt
  have least : 1000 ≤ plan.leastGap := by
    unfold leastGap
    omega
  have all := schedule.length_mul_leastGap_le
  have gaps : (times.length - 1) * 1000 ≤ plan.finish.toNat := by
    refine (Nat.mul_le_mul_left _ least).trans ?_
    rw [Nat.sub_one_mul]
    omega
  omega

/-- The times of a made-up feed, whatever is planned and drawn. There is a batch at zero, and the
others follow in gaps within their bounds up to the end, which they miss by a gap at most. The
numbers to draw from are never lacking, and no word on the way wraps round. -/
theorem times_of_record [OrderlyChance σ] [Trigonometry] (plan : Plan) (source : σ) :
    let times := (plan.record source).1.map (·.serverTime)
    let mean := max 1 (min plan.interval.toNat 3600000)
    let least := max 1 (mean / 2) * 1000
    let greatest := (mean + mean / 2) * 1000
    let span := plan.duration * microsPerSecond
    (times.head? = some 0 ∧ times.Pairwise (· < ·) ∧ (∀ t ∈ times, t ≤ plan.finish) ∧
        times.IsChain fun t u => t.toNat + least ≤ u.toNat ∧ u.toNat ≤ t.toNat + greatest) ∧
      (1 ≤ times.length ∧ times.length < UInt64.size ∧
        (times.length - 1) * least ≤ plan.finish.toNat ∧
        plan.finish.toNat ≤ times.length * greatest) ∧
      (∃ low high : UInt64, (drawGap plan.interval : StateM σ UInt64) = Chance.natural low high ∧
        low ≤ high ∧ low.toNat = mean / 2 ∧ high.toNat = mean + mean / 2 ∧
        ∀ drawn, low ≤ drawn → drawn ≤ high →
          (max drawn 1 * 1000).toNat = max drawn.toNat 1 * 1000 ∧
            least ≤ gapMicros drawn ∧ gapMicros drawn ≤ greatest) ∧
      (∀ v, IsValue span v → plan.finish.toNat = min ⌊v⌋₊ (UInt64.size - 1)) ∧
      (span.isNaN → plan.finish.toNat = 0) ∧
      (¬span.isFinite → (0.0 < span → plan.finish.toNat = UInt64.size - 1) ∧
        (span < 0.0 → plan.finish.toNat = 0)) := by
  intro times mean least greatest span
  have schedule : plan.Schedule 0 times := plan.always_record_schedule source
  have fewest := schedule.length_mul_leastGap_le
  have most := schedule.finish_le
  have start : (0 : Micros).toNat = 0 := rfl
  rw [start, Nat.zero_add] at fewest most
  -- no schedule is empty, since it has a last time
  have nonempty : 1 ≤ times.length := by
    rw [Nat.one_le_iff_ne_zero]
    intro none
    rw [List.length_eq_zero_iff.mp none] at schedule
    cases schedule
  refine ⟨⟨schedule.head?_eq, schedule.pairwise_lt, schedule.le_finish, schedule.isChain⟩,
    ⟨nonempty, schedule.length_lt, ?_, most⟩, ⟨_, _, rfl, plan.ends_ordered, plan.toNat_ends.1,
      plan.toNat_ends.2, ?_⟩, plan.finish_eq⟩
  · rw [Nat.sub_one_mul]
    exact Nat.sub_le_of_le_add fewest
  · intro drawn above below
    -- the ends that are drawn between are those of the mean
    obtain ⟨bounds, isWord⟩ := plan.gap_of_drawn above below
    exact ⟨isWord, bounds⟩

/-- Three batches at the shortest gaps: an eighth of a second between them, and the end is not an
eighth of a second behind the last. -/
theorem three_batches_in_time :
    OrderlyChance Lowest ∧
      let plan : Plan := ⟨1, 1, 0.3, 250⟩
      let times := (@Plan.record Lowest _ straightAhead plan .source).1.map (·.serverTime)
      times = [0, 125000, 250000] ∧ times.Pairwise (· < ·) ∧
        2 * 125000 ≤ plan.finish.toNat ∧ plan.finish.toNat ≤ 3 * 375000 := by
  refine ⟨inferInstance, ?_⟩
  intro plan times
  have isList : times = [0, 125000, 250000] := by decide +kernel
  obtain ⟨⟨-, later, -⟩, ⟨-, -, fewest, most⟩, -⟩ :=
    @times_of_record Lowest _ inferInstance straightAhead plan .source
  have count : times.length = 3 := congrArg List.length isList
  have interval : plan.interval.toNat = 250 := rfl
  rw [count, interval] at fewest most
  exact ⟨isList, later, fewest, most⟩

end Plan

end DeadReckoning
