import StoreFeed.Settings

/-!
# Pauses between retries

Each pause is twice the one before, up to a limit. Times are in milliseconds.
-/

namespace StoreFeed

/-- A series of pauses. -/
structure Backoff where
  initial : Nat
  limit : Nat
  /-- The next pause. -/
  current : Nat
deriving DecidableEq

namespace Backoff

/-- The start of a series. -/
def start (initial limit : Nat) : Backoff := ⟨initial, limit, initial⟩

/-- The series that a host's settings ask for. -/
def ofSettings (s : HostSettings) : Backoff := start s.initialBackoff s.maxBackoff

/-- The next pause, and the series after it. -/
def next (b : Backoff) : Nat × Backoff :=
  (b.current, { b with current := min (b.current * 2) b.limit })

/-- Back to the first pause. -/
def reset (b : Backoff) : Backoff := { b with current := b.initial }

end Backoff

end StoreFeed
