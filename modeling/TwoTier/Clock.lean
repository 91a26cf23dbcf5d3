import TwoTier.Duration

/-!
# Clocks

A clock has two hands. The wall clock shows the time since the beginning of 1970, may be set at
will, and is **read** in nanoseconds clamped to `0 … maxReading`; deadlines are compared with
readings. The uptime only ever grows.
-/

namespace TwoTier

/-- The greatest reading of a wall clock, in nanoseconds. -/
def maxReading : Nat := UInt64.size - 1

/-- A time of the wall clock. -/
structure UnixTime where
  /-- Nanoseconds since the beginning of 1970; negative before it. -/
  nanos : Int
deriving DecidableEq, Repr

namespace UnixTime

/-- A number of seconds, and nanoseconds added to it. -/
def ofParts (secs : Int) (nanos : Nat) : UnixTime := ⟨secs * nanosPerSec + nanos⟩

/-- The time as deadlines are compared with it. -/
def reading (t : UnixTime) : Nat := min t.nanos.toNat maxReading

theorem reading_le (t : UnixTime) : t.reading ≤ maxReading := Nat.min_le_right _ _

end UnixTime

/-- The two hands of a clock. -/
structure Clock where
  wall : UnixTime
  /-- Nanoseconds since the clock started. -/
  uptime : Nat := 0
deriving DecidableEq, Repr

namespace Clock

/-- The reading of the wall clock. -/
def now (c : Clock) : Nat := c.wall.reading

/-- The clock some time later. -/
def advance (c : Clock) (d : Duration) : Clock :=
  ⟨⟨c.wall.nanos + d.toNanos⟩, c.uptime + d.toNanos⟩

/-- The clock with its wall clock set. -/
def setWall (c : Clock) (t : UnixTime) : Clock := { c with wall := t }

end Clock

end TwoTier
