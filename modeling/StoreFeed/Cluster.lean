import StoreFeed.Host.Coordinator

/-!
# Hosts around one log

Time stands still while replicas work. It moves only when it is told to, and then from one end of a
pause to the next, so that every replica goes on at the very time its pause is over.
-/

namespace StoreFeed

/-- Hosts by name, around one log. -/
structure Cluster where
  hosts : SortedMap String Host
  commons : Commons

namespace Cluster

/-- The time at which every cluster starts, in milliseconds since the epoch. -/
def startTime : Nat := 1700000000000

/-- Hosts without replicas around a log without records. -/
def create (settings : SortedMap String HostSettings) : Except IngestionError Cluster := do
  let hosts ← settings.entries.mapM fun (name, s) => do
    pure (name, ← Host.build ⟨s, true, true, none⟩)
  return ⟨SortedMap.ofList hosts, ⟨startTime, Log.empty, Metrics.ReplicaMetrics.empty⟩⟩

/-- Put a host back with what it changed. -/
def putBack (c : Cluster) (name : String) (s : HostRun) : Cluster :=
  ⟨c.hosts.insert name s.host, s.commons⟩

/-- Let the replicas of all hosts run until they wait, but for some. -/
def settleBut (c : Cluster) (skip : String → ReplicaId → Bool) : Cluster :=
  c.hosts.keys.foldl
    (fun c name =>
      match c.hosts.find? name with
      | some host => c.putBack name (HostRun.settleBut ⟨host, c.commons⟩ (skip name))
      | none => c)
    c

/-- Let the replicas of all hosts run until they wait. -/
def settle (c : Cluster) : Cluster := c.settleBut fun _ _ => false

/-! ## Calls to a host

While a call waits for the task of a replica to end, all other replicas run. -/

/-- Call a host. -/
def onHost {α : Type} (c : Cluster) (name : String) (f : HostRun → α × HostRun) :
    Option (α × Cluster) :=
  (c.hosts.find? name).map fun host =>
    let (answer, s) := f ⟨host, c.commons⟩
    (answer, c.putBack name s)

/-- The replicas that a call has to wait for: those that `among` accepts and whose tasks have not
ended. The others run. -/
def waitFor (c : Cluster) (name : String) (among : Replica → Bool) : Cluster :=
  match c.hosts.find? name with
  | none => c
  | some host =>
    let waited := host.replicas.filter fun _ r => among r && !r.isFinished
    if waited.isEmpty then c else c.settleBut fun n id => n = name && waited.contains id

/-- Start a replica on a host. -/
def start (c : Cluster) (name : String) (id : ReplicaId) (settings : VersionSettings)
    (role : Role) : Option (Except IngestionError Unit × Cluster) :=
  let replaced (r : Replica) := r.id = id && settings.validate.isOk && !r.isRunning
  (c.waitFor name replaced).onHost name (·.start id settings role)

/-- Stop a replica of a host. -/
def stop (c : Cluster) (name : String) (id : ReplicaId) :
    Option (Except IngestionError Unit × Cluster) :=
  (c.waitFor name fun r => r.id = id).onHost name (·.stop id)

/-- Stop all replicas of a host. They are told so one after the other, so all but the first that is
waited for have run by then. -/
def shutdown (c : Cluster) (name : String) : Option (Except IngestionError Unit × Cluster) :=
  let first? := (c.hosts.find? name).bind fun host => HostRun.firstAwaited? host.replicas.values
  (c.waitFor name fun r => first? = some r.id).onHost name (·.shutdown)

/-- Pass on a change of role to a replica of a host. -/
def changeRole (c : Cluster) (name : String) (id : ReplicaId) (role : Role) : Option Cluster :=
  let full (r : Replica) := r.id = id && HostRun.queueCapacity ≤ r.inbox.length
  ((c.waitFor name full).onHost name fun s => ((), s.changeRole id role)).map (·.2)

/-! ## Time -/

/-- When the first pause of a replica ends. -/
def nextWake? (c : Cluster) : Option Nat :=
  let running := c.hosts.values.flatMap fun host => HostRun.running ⟨host, c.commons⟩
  (running.filterMap fun r => if r.isFinished then none else r.wakeAt).min?

/-- Move the time. -/
def setTime (c : Cluster) (now : Nat) : Cluster := { c with commons := { c.commons with now } }

/-- Move the time to an instant, by way of the ends of at most `fuel` pauses. -/
def advanceTo (target : Nat) : Nat → Cluster → Cluster
  | 0, c => c.setTime target
  | fuel + 1, c =>
    match c.nextWake? with
    | some t =>
      if t ≤ target then advanceTo target fuel (c.setTime (max t c.commons.now)).settle
      else c.setTime target
    | none => c.setTime target

/-- Let all replicas run until they wait, then move the time. After every pause at least a
millisecond has passed, which bounds their number. -/
def advance (c : Cluster) (ms : Nat) : Cluster :=
  let c := c.settle
  advanceTo (c.commons.now + ms) (ms + 1) c

end Cluster

end StoreFeed
