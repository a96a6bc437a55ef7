import DeadReckoning.Micros

namespace DeadReckoning

/-!
# The server clock — server time between messages

Each message pins the server time that it carries to the local instant at which it came. The server
time at a later instant is that time and the whole microseconds gone by since.

* `Instant` — a local time
* `ServerClock.pin` — a message came
* `ServerClock.now` — the server time at an instant
-/

/-- A local time, in nanoseconds from some start. -/
structure Instant where
  nanos : Nat
  deriving DecidableEq, Repr

namespace Instant

/-- The instant some microseconds from the start. -/
def ofMicros (n : Nat) : Instant := ⟨n * 1000⟩

/-- The whole microseconds from one instant to another; none if the other is not later. -/
def microsSince (now earlier : Instant) : Nat := (now.nanos - earlier.nanos) / 1000

/-- Between instants that are given in microseconds, the time is their difference, and never
negative. -/
@[simp] theorem microsSince_ofMicros (m n : Nat) :
    (ofMicros m).microsSince (ofMicros n) = m - n := by
  rw [microsSince, ofMicros, ofMicros, ← Nat.sub_mul, Nat.mul_div_cancel _ (by decide)]

end Instant

/-- The last server time that was received, and when; nothing before the first. -/
structure ServerClock where
  anchor : Option (Micros × Instant)
  deriving DecidableEq, Repr

namespace ServerClock

/-- A clock that has heard nothing. -/
def start : ServerClock := ⟨none⟩

/-- The clock after a message with a server time came. An earlier time than before counts too. -/
def pin (_ : ServerClock) (serverTime : Micros) (receivedAt : Instant) : ServerClock :=
  ⟨some (serverTime, receivedAt)⟩

/-- The server time at an instant; zero before the first message. -/
def now (clock : ServerClock) (instant : Instant) : Micros :=
  match clock.anchor with
  | some (serverTime, receivedAt) => serverTime.after (instant.microsSince receivedAt)
  | none => 0

/-- A clock that was never set stands at zero. -/
@[simp] theorem now_start (instant : Instant) : start.now instant = 0 := rfl

/-- A clock that was set goes on from the server time with the time that has passed since. -/
@[simp] theorem now_pin (clock : ServerClock) (serverTime : Micros) (receivedAt instant : Instant) :
    (clock.pin serverTime receivedAt).now instant =
      serverTime.after (instant.microsSince receivedAt) := rfl

/-- The last server time received. -/
def lastReceived? (clock : ServerClock) : Option Micros := clock.anchor.map (·.1)

end ServerClock

end DeadReckoning
