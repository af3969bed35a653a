import StoreFeed.Metrics.Family
import StoreFeed.Replica.Lifecycle
import StoreFeed.Word

/-!
# Metrics of replicas

Counts of what all replicas do, whichever host they are on. A sample is listed from the first time
it was counted, also where it went back to zero.
-/

namespace StoreFeed.Metrics

/-- Samples by the values of their labels. -/
abbrev Labelled (α : Type) := SortedMap (List String) α

/-- Counts of what replicas do. -/
structure ReplicaMetrics where
  /-- Replicas that were started and not stopped. -/
  active : Int
  /-- Replicas in each state. -/
  states : SortedMap ReplicaState Int
  /-- By the state before and the state after. -/
  stateChanges : Labelled Nat
  /-- By the new role. -/
  roleChanges : Labelled Nat
  /-- By kind of error and phase of the push. -/
  errors : Labelled Nat
  /-- By operation. -/
  retries : Labelled Nat
  /-- By role. -/
  batchSizes : Labelled Histogram
  /-- By outcome. -/
  merges : Labelled Nat
  /-- By store. -/
  mergeSeconds : Labelled Histogram

namespace ReplicaMetrics

/-- Nothing counted yet. -/
def empty : ReplicaMetrics :=
  { active := 0
    states := SortedMap.empty
    stateChanges := SortedMap.empty
    roleChanges := SortedMap.empty
    errors := SortedMap.empty
    retries := SortedMap.empty
    batchSizes := SortedMap.empty
    merges := SortedMap.empty
    mergeSeconds := SortedMap.empty }

instance : Inhabited ReplicaMetrics := ⟨empty⟩

/-! ## Counting -/

/-- Bounds of the number of records in a poll. -/
def batchSizeBounds : List Float := [0, 1, 10, 50, 100, 500, 1000, 5000]

/-- Bounds of the duration of a merge, in seconds. -/
def mergeSecondsBounds : List Float :=
  [0.00001, 0.00005, 0.0001, 0.0005, 0.001, 0.005, 0.01, 0.05]

/-- Count one more. -/
def count (m : Labelled Nat) (labels : List String) : Labelled Nat :=
  m.insert labels (m.findD labels 0 + 1)

/-- Observe a value. -/
def observe (m : Labelled Histogram) (bounds : List Float) (labels : List String) (value : Float) :
    Labelled Histogram :=
  m.insert labels ((m.findD labels (Histogram.withBounds bounds)).observe value)

/-- Move the number of replicas in a state. -/
def moveState (m : ReplicaMetrics) (s : ReplicaState) (change : Int) : ReplicaMetrics :=
  { m with states := m.states.insert s (m.states.findD s 0 + change) }

/-- A replica goes from one state to another. -/
def changeState (m : ReplicaMetrics) (before after : ReplicaState) : ReplicaMetrics :=
  let m := { m with stateChanges := count m.stateChanges [before.label, after.label] }
  (m.moveState before (-1)).moveState after 1

/-- A replica takes a new role. -/
def changeRole (m : ReplicaMetrics) (role : Role) : ReplicaMetrics :=
  { m with roleChanges := count m.roleChanges [role.label] }

/-- The phase of the push that an error fell into. -/
def phaseLabel (endOfPush : Bool) : String :=
  if endOfPush then "after_end_of_push" else "before_end_of_push"

/-- Processing failed. -/
def failed (m : ReplicaMetrics) (kind : String) (endOfPush : Bool) : ReplicaMetrics :=
  { m with errors := count m.errors [kind, phaseLabel endOfPush] }

/-- An operation is going to be tried again. -/
def retried (m : ReplicaMetrics) (operation : String) : ReplicaMetrics :=
  { m with retries := count m.retries [operation] }

/-- A poll brought so many records. -/
def polled (m : ReplicaMetrics) (role : Role) (records : Nat) : ReplicaMetrics :=
  { m with
    batchSizes := observe m.batchSizes batchSizeBounds [role.label] (Word.toFloat records) }

/-- A merge ended. It takes no time on the clock that everything here is measured by. -/
def merged (m : ReplicaMetrics) (store : String) (success : Bool) : ReplicaMetrics :=
  { m with
    mergeSeconds := observe m.mergeSeconds mergeSecondsBounds [store] 0
    merges := count m.merges [if success then "success" else "failure"] }

/-! ## Listing -/

/-- A family of counts. -/
def counters (name help : String) (labelNames : List String) (m : Labelled Nat) : Family :=
  ⟨name, help, .counter, m.entries.map fun (labels, n) =>
    ⟨labelNames.zip labels, .value (Word.toFloat n)⟩⟩

/-- A family of histograms. -/
def histograms (name help labelName : String) (m : Labelled Histogram) : Family :=
  ⟨name, help, .histogram, m.entries.map fun (labels, h) =>
    ⟨[labelName].zip labels, .histogram h⟩⟩

/-- Everything counted. -/
def families (m : ReplicaMetrics) : List Family :=
  gather
    [⟨"replicore_replicas_active", "Number of partition replicas with a running consumption task",
      .gauge, [⟨[], .value (Float.ofInt m.active)⟩]⟩,
     ⟨"replicore_replica_states", "Partition replicas by lifecycle state", .gauge,
      m.states.entries.map fun (s, n) => ⟨[("state", s.label)], .value (Float.ofInt n)⟩⟩,
     counters "replicore_state_transitions_total" "Total replica state transitions" ["from", "to"]
      m.stateChanges,
     counters "replicore_role_transitions_total" "Total replica role transitions" ["to"]
      m.roleChanges,
     counters "replicore_ingestion_errors_total" "Total ingestion errors" ["kind", "phase"]
      m.errors,
     counters "replicore_source_retries_total" "Total retried source operations" ["operation"]
      m.retries,
     histograms "replicore_poll_batch_size" "Records returned per poll" "role" m.batchSizes,
     counters "replicore_write_compute_merges_total" "Total write-compute merges" ["outcome"]
      m.merges,
     histograms "replicore_write_compute_merge_latency_seconds"
      "Write-compute merge latency in seconds" "store" m.mergeSeconds]

end ReplicaMetrics

end StoreFeed.Metrics
