import StoreFeed.Word

/-!
# Sensors

Small accumulators that are recorded into and measured: a count, a maximum, an average, and a
latency, which is an average and a maximum recorded together.
-/

namespace StoreFeed.Sensor

/-- How many events were recorded. -/
structure Count where
  count : Nat

namespace Count

/-- Nothing recorded. -/
def empty : Count := ⟨0⟩

/-- Record an event. -/
def record (c : Count) : Count := ⟨c.count + 1⟩

/-- The number of events. -/
def measure (c : Count) : Float := Word.toFloat c.count

end Count

private def negativeInfinity : Float := -1 / 0

/-- The largest recorded value. -/
structure Maximum where
  /-- Negative infinity while nothing was recorded. -/
  largest : Float

namespace Maximum

/-- Nothing recorded. -/
def empty : Maximum := ⟨negativeInfinity⟩

/-- Record a value. -/
def record (m : Maximum) (value : Float) : Maximum := if value > m.largest then ⟨value⟩ else m

/-- The largest value, or zero if there is none. -/
def measure (m : Maximum) : Float := if m.largest == negativeInfinity then 0 else m.largest

end Maximum

/-- The mean of recorded values. -/
structure Average where
  sum : Float
  count : Nat

namespace Average

/-- Nothing recorded. -/
def empty : Average := ⟨0, 0⟩

/-- Record a value. -/
def record (a : Average) (value : Float) : Average := ⟨a.sum + value, a.count + 1⟩

/-- The mean, or zero if there is no value. -/
def measure (a : Average) : Float := if a.count = 0 then 0 else a.sum / Word.toFloat a.count

end Average

/-- Mean and maximum of how long something takes, in milliseconds. -/
structure Latency where
  average : Average
  maximum : Maximum

namespace Latency

/-- Nothing recorded. -/
def empty : Latency := ⟨Average.empty, Maximum.empty⟩

/-- Record a duration. -/
def record (l : Latency) (value : Float) : Latency :=
  ⟨l.average.record value, l.maximum.record value⟩

end Latency

end StoreFeed.Sensor
