import StoreFeed.Stats.Gauges

/-!
# Statistics of a host

All replicas of a host record into one aggregator, which keeps the statistics of every version and
every store it has seen.
-/

namespace StoreFeed.Stats

/-- The statistics of a host. -/
structure Aggregator where
  /-- The host's own region, which the names of regional figures start with. -/
  localRegion : String
  registry : Registry IngestionStats

namespace Aggregator

/-- Statistics without stores. -/
def create (localRegion : String) : Aggregator :=
  ⟨localRegion, Registry.empty IngestionStats.baseGauges⟩

/-- Name of the family that a scrape collects. -/
def familyName : String := "replicore_ingestion_stats"

/-- Explanation of the family that a scrape collects. -/
def familyHelp : String := "Versioned ingestion stats by store, version and sensor"

/-- The group that the figures of hybrid versions form. -/
def hybridGroup : String := "hybrid"

/-- The group that the figures of a region form. -/
def regionGroup (region : RegionId) : String := "region:" ++ toString region.toNat

/-- Add the figures that a profile needs to a reporter. -/
def extend (localRegion : String) (profile : ReplicaProfile) (r : Reporter IngestionStats) :
    Reporter IngestionStats :=
  let r :=
    if profile.hybrid then (r.registerOnce hybridGroup IngestionStats.hybridGauges).2 else r
  if profile.activeActive then
    profile.regions.entries.foldl (fun r (region, name) =>
      (r.registerOnce (regionGroup region)
        (IngestionStats.regionGauges (regionStem localRegion name) region)).2) r
  else r

/-- Change the registry. -/
def modify (a : Aggregator) (f : Registry IngestionStats → Registry IngestionStats) : Aggregator :=
  { a with registry := f a.registry }

/-- Make sure that a version and its store have statistics with the figures a profile needs. -/
def register (a : Aggregator) (now : Int) (store : String) (version : UInt32)
    (profile : ReplicaProfile) : Aggregator :=
  a.modify fun r =>
    let r := r.getOrCreate store version (IngestionStats.start now profile)
    let r := r.withBoth store version (·.ensureRegions now profile)
    let r := r.modifyReporter ⟨store, .version version⟩ (extend a.localRegion profile)
    r.modifyReporter ⟨store, .total⟩ (extend a.localRegion profile)

/-- Register the version that a topic belongs to; other topics are ignored. -/
def registerTopic (a : Aggregator) (now : Int) (topic : String) (profile : ReplicaProfile) :
    Aggregator :=
  match parseTopic? topic with
  | some (.version store version) => a.register now store version profile
  | _ => a

/-- Record an event of a version. -/
def record (a : Aggregator) (now : Int) (store : String) (version : UInt32) (e : Event) :
    Aggregator :=
  a.modify (·.withBoth store version (·.record now e))

/-- Keep the report of a partition. -/
def report (a : Aggregator) (store : String) (version partition : UInt32)
    (report : PartitionReport) : Aggregator :=
  a.modify (·.withBoth store version (·.report ⟨version, partition⟩ report))

/-- Forget the report of a partition. -/
def removePartition (a : Aggregator) (store : String) (version partition : UInt32) : Aggregator :=
  a.modify (·.withBoth store version (·.removePartition ⟨version, partition⟩))

/-- Raise or lower the error flag of a version. -/
def setErrored (a : Aggregator) (store : String) (version : UInt32) (raised : Bool) : Aggregator :=
  a.modify (·.modifyHeld ⟨store, .version version⟩ fun s => { s with errored := raised })

/-- Raise or lower the push-timeout flag of a version. -/
def setPushTimeout (a : Aggregator) (store : String) (version : UInt32) (raised : Bool) :
    Aggregator :=
  a.modify (·.modifyHeld ⟨store, .version version⟩ fun s => { s with pushTimeout := raised })

/-- Drop the statistics of a version, and its reports from the store's total. -/
def removeVersion (a : Aggregator) (store : String) (version : UInt32) : Aggregator :=
  a.modify fun r =>
    ((r.modifyHeld ⟨store, .total⟩ (·.removeVersion version)).removeVersion store version).2

/-- Drop the statistics of a store. -/
def removeStore (a : Aggregator) (store : String) : Aggregator := a.modify (·.removeStore store)

/-- Read one figure. -/
def readGauge (a : Aggregator) (now : Int) (key : ScopeKey) (name : String) :
    Option (Except Overflow Float) × Aggregator :=
  let (v, r) := a.registry.read now key name
  (v, { a with registry := r })

/-- Read everything for a scrape. -/
def collect (a : Aggregator) (now : Int) : Except Overflow (List Metrics.Family) × Aggregator :=
  let (families, r) := a.registry.collect now familyName familyHelp
  (families, { a with registry := r })

end Aggregator

end StoreFeed.Stats
