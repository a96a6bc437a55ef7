import DeadReckoning.Feed.Body
import DeadReckoning.Wire.Printer

namespace DeadReckoning

/-!
# Made-up feeds — messages about bodies in motion

A feed is a list of batches at irregular times, the first at time zero. Each body is part of a batch
or not by chance.

* `Plan` — how many bodies, for how long, how often
* `Plan.nextGap` — the time from one batch to the next
* `Plan.recordFrom_eq` — batches are recorded one gap after the other
* `Plan.record` — the batches of a feed
* `writeFeed` — their text
-/

/-- What a made-up feed is to be like. -/
structure Plan where
  ships : UInt64
  asteroids : UInt64
  /-- How many seconds the feed lasts. -/
  duration : Float
  /-- The mean time from batch to batch, in milliseconds. -/
  interval : UInt64

namespace Plan

/-- The plan where nothing is chosen. -/
def standard : Plan := ⟨4, 16, 60.0, 250⟩

/-- The longest mean time from batch to batch, in milliseconds: an hour. -/
def greatestInterval : UInt64 := 3600000

/-- A mean time within its bounds. -/
def clampInterval (interval : UInt64) : UInt64 := max 1 (min interval greatestInterval)

/-- The last time at which there may be a batch. -/
def finish (plan : Plan) : Micros := (plan.duration * microsPerSecond).toUInt64

/-- The time to the next batch in microseconds, for a number of milliseconds drawn; never zero. -/
def gapMicros (drawn : UInt64) : Nat := max drawn.toNat 1 * 1000

/-- No gap is empty. -/
theorem gapMicros_pos (drawn : UInt64) : 0 < gapMicros drawn := by
  unfold gapMicros
  omega

/-- The body's part in a batch at a time. -/
def sightingOf (time : Micros) (body : Body Float) : Sighting Float :=
  body.sightingAt (Scalar.ofMicros time / microsPerSecond)

/-- There may be a batch at a time. The greatest time is left out, because nothing can follow it. -/
def Admits (plan : Plan) (time : Micros) : Prop := time.toNat < UInt64.size - 1 ∧ time ≤ plan.finish

instance (plan : Plan) (time : Micros) : Decidable (plan.Admits time) :=
  inferInstanceAs (Decidable (_ ∧ _))

/-- Later times that are admitted come nearer to the end. -/
theorem Admits.nearer {plan : Plan} {time : Micros} {gap : Nat} (pos : 0 < gap)
    (h : plan.Admits (time.after gap)) :
    plan.finish.toNat - (time.after gap).toNat < plan.finish.toNat - time.toNat := by
  have before := h.1
  have within := UInt64.le_iff_toNat_le.1 h.2
  rw [Micros.toNat_after] at before within ⊢
  omega

variable {σ : Type} [Chance σ]

/-- The milliseconds to the next batch: half to one and a half times the mean. -/
def drawGap (interval : UInt64) : StateM σ UInt64 :=
  let mean := clampInterval interval
  Chance.natural (mean / 2) (mean + mean / 2)

/-- The microseconds to the next batch. -/
def nextGap (interval : UInt64) : StateM σ Nat := do return gapMicros (← drawGap interval)

/-- A batch at a time, with the bodies that chance selects. -/
def report (bodies : List (Body Float)) (time : Micros) : StateM σ (Batch Float) := do
  let seen ← bodies.filterM fun body => Chance.yes body.rate
  return { serverTime := time, sightings := seen.map (sightingOf time), refusals := [] }

/-- The batches from a time on, behind those that came before, which are given last one first. -/
def recordFrom (plan : Plan) (bodies : List (Body Float)) (earlier : List (Batch Float))
    (time : Micros) : StateM σ (List (Batch Float)) := do
  let batch ← report bodies time
  let drawn ← drawGap plan.interval
  let next := time.after (gapMicros drawn)
  if _h : plan.Admits next then recordFrom plan bodies (batch :: earlier) next
  else return (batch :: earlier).reverse
termination_by plan.finish.toNat - time.toNat
decreasing_by exact _h.nearer (gapMicros_pos drawn)

/-- A batch is reported, and recording goes on after the next gap as long as the time behind it is
admitted. -/
theorem recordFrom_eq (plan : Plan) (bodies : List (Body Float)) (earlier : List (Batch Float))
    (time : Micros) :
    (recordFrom plan bodies earlier time : StateM σ (List (Batch Float))) = do
      let batch ← report bodies time
      let gap ← nextGap plan.interval
      if plan.Admits (time.after gap) then
        recordFrom plan bodies (batch :: earlier) (time.after gap)
      else return (batch :: earlier).reverse := by
  rw [recordFrom]
  rfl

/-- The batches of a feed. -/
def record [Trigonometry] (plan : Plan) : StateM σ (List (Batch Float)) := do
  let bodies ← Body.spawnAll plan.ships plan.asteroids
  recordFrom plan bodies [] 0

end Plan

/-- The text of a feed, one message a line. -/
def writeFeed (batches : List (Batch Float)) : List String :=
  batches.map fun batch => Batch.write batch.serverTime batch.sightings

end DeadReckoning
