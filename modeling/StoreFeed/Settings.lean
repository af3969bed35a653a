import StoreFeed.Error
import StoreFeed.Topic

/-!
# Settings

`HostSettings` apply to every replica of a host, `VersionSettings` to every replica of a version of
a store. Times are in milliseconds.
-/

namespace StoreFeed

/-- Settings shared by all replicas of a host. -/
structure HostSettings where
  /-- Most records that one poll returns. -/
  pollBatchSize : Nat
  /-- Pause after a poll that brought nothing. -/
  pollInterval : Nat
  /-- Time within which the push is expected to end. -/
  bootstrapTimeout : Nat
  /-- Time of failing calls after which a replica is stale. -/
  staleGrace : Nat
  /-- First pause of a series of retries. -/
  initialBackoff : Nat
  /-- Longest pause between retries. -/
  maxBackoff : Nat
  /-- Name of the host's own region. -/
  localRegion : String
  /-- Most producer handles kept open. -/
  producerCacheCapacity : Nat
deriving DecidableEq

/-- How long it is, in the largest unit that gives a whole part. -/
def durationText (ms : Nat) : String :=
  if ms = 0 then "0ns"
  else if ms < 1000 then toString ms ++ "ms"
  else
    let digits := Nat.toDigits 10 (1000 + ms % 1000) |>.drop 1
    let kept := (digits.reverse.dropWhile (· = '0')).reverse
    toString (ms / 1000) ++ (if kept.isEmpty then "" else "." ++ String.ofList kept) ++ "s"

namespace HostSettings

/-- What holds where nothing else is set. -/
def standard : HostSettings :=
  { pollBatchSize := 500
    pollInterval := 50
    bootstrapTimeout := 3600000
    staleGrace := 30000
    initialBackoff := 100
    maxBackoff := 5000
    localRegion := "local"
    producerCacheCapacity := 1024 }

instance : Inhabited HostSettings := ⟨standard⟩

/-- A host can run with these settings. -/
def validate (s : HostSettings) : Except IngestionError Unit :=
  if s.pollBatchSize = 0 then .error (.configuration "poll_batch_size must be positive")
  else if s.initialBackoff = 0 ∨ s.maxBackoff < s.initialBackoff then
    .error (.configuration ("invalid backoff range " ++ durationText s.initialBackoff ++ ".." ++
      durationText s.maxBackoff))
  else .ok ()

/-- A number from the environment, if the variable is set. -/
def environmentNumber? (env : List (String × String)) (name : String) :
    Except IngestionError (Option Nat) :=
  match env.lookup name with
  | none => .ok none
  | some text =>
    match Decimal.unsigned? Decimal.maxWord64 text with
    | some n => .ok (some n)
    | none => .error (.configuration (name ++ " is not valid: " ++ text))

/-- The standard settings with what environment variables override, checked. -/
def ofEnvironment (env : List (String × String)) : Except IngestionError HostSettings := do
  let size ← environmentNumber? env "REPLICORE_POLL_BATCH_SIZE"
  let interval ← environmentNumber? env "REPLICORE_POLL_INTERVAL_MS"
  let timeout ← environmentNumber? env "REPLICORE_BOOTSTRAP_TIMEOUT_MS"
  let grace ← environmentNumber? env "REPLICORE_STALE_GRACE_MS"
  let settings : HostSettings :=
    { standard with
      pollBatchSize := size.getD standard.pollBatchSize
      pollInterval := interval.getD standard.pollInterval
      bootstrapTimeout := timeout.getD standard.bootstrapTimeout
      staleGrace := grace.getD standard.staleGrace
      localRegion := (env.lookup "REPLICORE_LOCAL_REGION").getD standard.localRegion }
  settings.validate
  pure settings

end HostSettings

/-- How a hybrid version reads its real-time topics. -/
structure HybridSettings where
  /-- How far back a leader starts that has no position yet. -/
  rewindSeconds : Nat
  /-- Real-time lag up to which the version serves reads. -/
  lagThreshold : Nat
deriving DecidableEq

/-- What readings a version needs. -/
structure ReplicaProfile where
  hybrid : Bool
  activeActive : Bool
  /-- Regions and their aliases. -/
  regions : SortedMap RegionId String
deriving DecidableEq

/-- A version without real-time topics. -/
def ReplicaProfile.plain : ReplicaProfile := ⟨false, false, SortedMap.empty⟩

instance : Inhabited ReplicaProfile := ⟨ReplicaProfile.plain⟩

/-- Settings of one version of a store. -/
structure VersionSettings where
  hybrid : Option HybridSettings
  /-- Whether every region has a real-time topic of its own. -/
  activeActive : Bool
  /-- Regions and their aliases. -/
  regions : SortedMap RegionId String
  /-- The schema that partial updates are merged with. -/
  schema : Schema

namespace VersionSettings

/-- A version that is pushed once. -/
def standard : VersionSettings := ⟨none, false, SortedMap.empty, Schema.empty⟩

instance : Inhabited VersionSettings := ⟨standard⟩

/-- Whether the version has real-time topics. -/
def isHybrid (s : VersionSettings) : Bool := s.hybrid.isSome

/-- Real-time lag up to which the version serves reads. -/
def lagThreshold? (s : VersionSettings) : Option Nat := s.hybrid.map (·.lagThreshold)

/-- The regions whose real-time topics a leader reads; without regions it is the one topic that
belongs to none. -/
def realTimeRegions (s : VersionSettings) : List (Option RegionId) :=
  if s.activeActive then s.regions.keys.map some else [none]

/-- What readings the version needs. -/
def profile (s : VersionSettings) : ReplicaProfile := ⟨s.isHybrid, s.activeActive, s.regions⟩

/-- A replica can run with these settings. -/
def validate (s : VersionSettings) : Except IngestionError Unit :=
  if s.activeActive ∧ !s.isHybrid then
    .error (.configuration "active-active replication requires a hybrid version")
  else if s.activeActive ∧ s.regions.isEmpty then
    .error (.configuration "active-active replication requires at least one region")
  else .ok ()

/-- Equality of settings. -/
def same (a b : VersionSettings) : Bool :=
  a.hybrid == b.hybrid && a.activeActive == b.activeActive && a.regions == b.regions &&
    a.schema.same b.schema

end VersionSettings

end StoreFeed
