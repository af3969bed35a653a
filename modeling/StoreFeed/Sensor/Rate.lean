import StoreFeed.Sensor.Basic

/-!
# Rolling rate

Recorded values are summed in two buckets of one window each. Before a value is recorded or the rate
is measured, the buckets roll: once the current bucket is a window old it becomes the previous one,
and once it is two windows old both are emptied. So a value counts for at least one window and for
less than two.

Instants are milliseconds on any clock. The buckets are defined for values of any kind that can be
added; the rate itself is a float.
-/

namespace StoreFeed.Sensor

/-- Values summed over a rolling window. -/
structure Rate (α : Type) where
  /-- Length of a bucket in milliseconds. -/
  window : Nat
  /-- The start of the time that the buckets cover. -/
  oldestStart : Int
  /-- The start of the current bucket. -/
  currentStart : Int
  previous : α
  current : α

namespace Rate

variable {α : Type}

/-- The window of every rate that does not choose its own. -/
def standardWindow : Nat := 30000

/-- How long ago an instant is; nothing if it lies ahead. -/
def elapsed (since now : Int) : Nat := (now - since).toNat

/-- A rate that starts now. -/
def start [Zero α] (window : Nat) (now : Int) : Rate α := ⟨window, now, now, 0, 0⟩

/-- Bring the buckets up to an instant. -/
def roll [Zero α] (r : Rate α) (now : Int) : Rate α :=
  let age := elapsed r.currentStart now
  if 2 * r.window ≤ age then
    { r with oldestStart := now, currentStart := now, previous := 0, current := 0 }
  else if r.window ≤ age then
    { r with
      oldestStart := r.currentStart
      currentStart := r.currentStart + r.window
      previous := r.current
      current := 0 }
  else r

/-- Record a value at an instant. -/
def record [Zero α] [Add α] (r : Rate α) (now : Int) (value : α) : Rate α :=
  let r := r.roll now
  { r with current := r.current + value }

/-- What both buckets hold together. -/
def total [Add α] (r : Rate α) : α := r.previous + r.current

/-- Milliseconds in seconds. -/
def seconds (ms : Nat) : Float :=
  Word.toFloat (ms / 1000) + Word.toFloat (ms % 1000 * 1000000) / 1000000000

/-- The recorded sum per second of the covered time, which counts as one second at least, and the
rolled buckets. -/
def measure (r : Rate Float) (now : Int) : Float × Rate Float :=
  let r := r.roll now
  let sum := r.total
  if sum == 0 then (0, r)
  else
    let covered := seconds (elapsed r.oldestStart now)
    (sum / (if covered < 1 then 1 else covered), r)

end Rate

end StoreFeed.Sensor
