import StoreFeed.Error
import StoreFeed.SortedMap

/-!
# Producer handles

Leaders of all partitions of a version publish into one topic, so a host opens one producer for a
topic and shares it. A handle that nobody asked for during `idleLimit` is closed. Looking whether a
handle is open is not a use of it.
-/

namespace StoreFeed

/-- The open handles, by topic, each with the instant of its last use in milliseconds. -/
structure Producers where
  lastUse : SortedMap String Nat

namespace Producers

/-- No handle is open. -/
def empty : Producers := ⟨SortedMap.empty⟩

/-- How long a handle stays open without use, in milliseconds. -/
def idleLimit : Nat := 3600000

/-- Whether the handle of a topic is open. -/
def contains (p : Producers) (now : Nat) (topic : String) : Bool :=
  match p.lastUse.find? topic with
  | some used => now - used < idleLimit
  | none => false

/-- Use the handle of a topic, which is open from then on. -/
def use (p : Producers) (now : Nat) (topic : String) : Producers := ⟨p.lastUse.insert topic now⟩

/-- Why there is no handle of a topic that could not be opened. -/
def openFailure (topic : String) (cause : IngestionError) : IngestionError :=
  .sourceUnavailable ("producer for " ++ topic ++ ": " ++ cause.message)

/-- Close the handle of a topic. -/
def invalidate (p : Producers) (topic : String) : Producers := ⟨p.lastUse.erase topic⟩

end Producers

end StoreFeed
