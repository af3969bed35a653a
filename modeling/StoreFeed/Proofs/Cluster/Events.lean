import StoreFeed.Cluster
import StoreFeed.Proofs.Replica.Flow
import StoreFeed.Proofs.Replica.Moves
import StoreFeed.Proofs.SortedMap

/-!
# Runs of a cluster

Hosts run the replica of one partition over one log. What can happen is an `Event`: a replica takes
a step, a host starts or restarts its replica, a command is sent, somebody appends a record, the log
is away, time passes, writes or calls begin to fail. A run is any list of events, so the steps of
the hosts interleave in any way, a pause may last for ever, and a replica may be cut off at any
step.

For each host an event is one of three things (`Cluster.Sound.fate`): its replica makes a move, it
starts afresh, or it sees at most the log grow. `Cluster.Sound` is what holds in every run.
-/

namespace StoreFeed

namespace Cluster

/-- Something that happens. -/
inductive Event where
  /-- The replica of a host takes its next step. -/
  | step (host : String)
  /-- A host starts the replica in a role, in place of the one that it may still have. -/
  | start (host : String) (role : Role)
  /-- A command is sent to the replica of a host. -/
  | tell (host : String) (command : Command)
  /-- Nobody can send commands to the replica of a host any more. -/
  | release (host : String)
  /-- Somebody who is no replica appends a record. -/
  | append (tp : TopicPartition) (record : ChangeRecord)
  | setAvailable (available : Bool)
  | setTime (now : Nat)
  /-- The next writes of an offset fail. -/
  | failWrites (host : String) (offset times : Nat)
  /-- An operation begins to fail, as it can fail by itself. -/
  | plan (host : String) (op : Operation) (fault : Fault) (reports : op.Reports fault.error)

/-- The host whose replica acts. -/
def Event.actor? : Event → Option String
  | .step host => some host
  | _ => none

theorem Event.actor?_eq_some {e : Event} {name : String} (h : e.actor? = some name) :
    e = .step name := by
  cases e <;> cases h
  rfl

/-- Whether a host starts its replica. -/
def Event.starts (name : String) : Event → Bool
  | .start host _ => host = name
  | _ => false

variable (id : ReplicaId) (settings : VersionSettings)

/-- The replica of a host with its surroundings. -/
def replica? (c : Cluster) (name : String) : Option Run :=
  (c.hosts.find? name).bind fun host => (host.replicas.find? id).map fun r =>
    ⟨r, host.site, c.commons⟩

/-- Let the replica of a host act. -/
def onReplica (c : Cluster) (name : String) (f : Run → Run) : Cluster :=
  match c.hosts.find? name with
  | none => c
  | some host =>
    match host.replicas.find? id with
    | none => c
    | some r =>
      let run := f ⟨r, host.site, c.commons⟩
      c.putBack name
        (HostRun.modifyTable ⟨{ host with site := run.site }, run.commons⟩
          (·.insert id run.replica))

/-- Change what the replicas of a host share. -/
def onSite (c : Cluster) (name : String) (f : Site → Site) : Cluster :=
  match c.hosts.find? name with
  | none => c
  | some host => c.putBack name ⟨{ host with site := f host.site }, c.commons⟩

/-- The cluster after an event. -/
def happen (c : Cluster) : Event → Cluster
  | .step name => c.onReplica id name Run.step
  | .start name role =>
    match c.hosts.find? name with
    | none => c
    | some host => c.putBack name (HostRun.launch ⟨host, c.commons⟩ id settings role)
  | .tell name command =>
    c.onReplica id name fun run => { run with replica := run.replica.send command }
  | .release name =>
    c.onReplica id name fun run => { run with replica := { run.replica with connected := false } }
  | .append tp record =>
    { c with commons := { c.commons with log := (c.commons.log.append tp record).2 } }
  | .setAvailable available =>
    { c with commons := { c.commons with log := { c.commons.log with available } } }
  | .setTime now => c.setTime now
  | .failWrites name offset times =>
    c.onSite name fun s => { s with storage := s.storage.failWrites offset times }
  | .plan name op fault _ => c.onSite name fun s => { s with faults := s.faults.insert op fault }

/-- The cluster after a run. -/
def run (c : Cluster) (events : List Event) : Cluster := events.foldl (happen id settings) c

/-- Something holds of every event of a run and the cluster it happens to. -/
def Along (P : Cluster → Event → Prop) (c : Cluster) : List Event → Prop
  | [] => True
  | e :: rest => P c e ∧ Along P (c.happen id settings e) rest

/-- Whether something holds along a run can be evaluated where it can be for every event. -/
def decidableAlong (P : Cluster → Event → Prop) [∀ c e, Decidable (P c e)] :
    (c : Cluster) → (events : List Event) → Decidable (c.Along id settings P events)
  | _, [] => isTrue trivial
  | c, e :: rest => @instDecidableAnd _ _ _ (decidableAlong P (c.happen id settings e) rest)

instance (P : Cluster → Event → Prop) [∀ c e, Decidable (P c e)] (c : Cluster)
    (events : List Event) : Decidable (c.Along id settings P events) :=
  decidableAlong id settings P c events

/-- The feed of the replica of a host. -/
def feed? (c : Cluster) (name : String) : Option Feed := (c.replica? id name).map Run.feed

/-- What a host keeps for the replica. -/
def data (c : Cluster) (name : String) : ReplicaData :=
  match c.hosts.find? name with
  | some host => host.site.storage.data id
  | none => ReplicaData.empty

/-- The records of the version topic. -/
def versionRecords (c : Cluster) : List ChangeRecord := c.commons.log.records id.versionTopic

variable {id settings} {c : Cluster} {name : String}

theorem run_append (events : List Event) (e : Event) :
    c.run id settings (events ++ [e]) = (c.run id settings events).happen id settings e := by
  simp [run]

/-- What every event along a run keeps is kept by the run. -/
theorem run_induction {P : Cluster → Event → Prop} {I : Cluster → Prop}
    (step : ∀ c e, I c → P c e → I (c.happen id settings e)) {events : List Event}
    (init : I c) (along : c.Along id settings P events) : I (c.run id settings events) := by
  induction events generalizing c with
  | nil => exact init
  | cons e rest ih => exact ih (step c e init along.1) along.2

/-! ## Hosts and replicas -/

theorem find?_of_replica? {run : Run} (h : c.replica? id name = some run) :
    ∃ host, c.hosts.find? name = some host ∧ host.replicas.find? id = some run.replica ∧
      run = ⟨run.replica, host.site, c.commons⟩ := by
  unfold replica? at h
  cases hh : c.hosts.find? name with
  | none => simp [hh] at h
  | some host =>
    cases hr : host.replicas.find? id with
    | none => simp [hh, hr] at h
    | some r =>
      simp only [hh, hr, Option.bind_some, Option.map_some, Option.some.injEq] at h
      subst h
      exact ⟨host, rfl, hr, rfl⟩

theorem onReplica_of_some {host : Host} {r : Replica} (f : Run → Run)
    (hh : c.hosts.find? name = some host) (hr : host.replicas.find? id = some r) :
    c.onReplica id name f = c.putBack name
      (HostRun.modifyTable ⟨{ host with site := (f ⟨r, host.site, c.commons⟩).site },
        (f ⟨r, host.site, c.commons⟩).commons⟩
        (·.insert id (f ⟨r, host.site, c.commons⟩).replica)) := by
  simp only [onReplica, hh, hr]

theorem onReplica_of_none (f : Run → Run) (h : c.replica? id name = none) :
    c.onReplica id name f = c := by
  unfold replica? at h
  unfold onReplica
  cases hh : c.hosts.find? name with
  | none => rfl
  | some host =>
    cases hr : host.replicas.find? id with
    | none => simp only [hr]
    | some r => simp [hh, hr] at h

theorem replica?_putBack_self (s : HostRun) : (c.putBack name s).replica? id name =
    (s.host.replicas.find? id).map fun r => ⟨r, s.host.site, s.commons⟩ := by
  simp [replica?, putBack]

theorem feed?_putBack_self (s : HostRun) : (c.putBack name s).feed? id name =
    (s.host.replicas.find? id).map fun r => Run.feed ⟨r, s.host.site, s.commons⟩ := by
  rw [feed?, replica?_putBack_self, Option.map_map]
  rfl

theorem feed?_putBack_of_ne {other : String} (h : other ≠ name) (s : HostRun) :
    (c.putBack name s).feed? id other =
      (c.feed? id other).map fun f => { f with log := s.commons.log } := by
  unfold feed? replica? putBack
  rw [SortedMap.find?_insert_of_ne _ h]
  cases c.hosts.find? other with
  | none => rfl
  | some host => cases hr : host.replicas.find? id <;> simp [hr, Run.feed]

theorem feed?_withCommons (commons : Commons) : feed? id { c with commons } name =
    (c.feed? id name).map fun f => { f with log := commons.log } := by
  unfold feed? replica?
  cases c.hosts.find? name with
  | none => rfl
  | some host => cases hr : host.replicas.find? id <;> simp [hr, Run.feed]

theorem data_putBack_self (s : HostRun) :
    (c.putBack name s).data id name = s.host.site.storage.data id := by
  simp [data, putBack]

theorem data_putBack_of_ne {other : String} (h : other ≠ name) (s : HostRun) :
    (c.putBack name s).data id other = c.data id other := by
  simp [data, putBack, SortedMap.find?_insert_of_ne _ h]

/-- A feed is of the log of the cluster. -/
theorem log_of_feed? {f : Feed} (h : c.feed? id name = some f) : f.log = c.commons.log := by
  unfold feed? at h
  cases hr : c.replica? id name with
  | none => simp [hr] at h
  | some run =>
    obtain ⟨host, _, _, hrun⟩ := find?_of_replica? hr
    simp only [hr, Option.map_some, Option.some.injEq] at h
    rw [← h, hrun]
    rfl

/-- A feed of the replica is of the data that its host keeps. -/
theorem data_of_feed? {f : Feed} (h : c.feed? id name = some f) (hid : f.id = id) :
    f.data = c.data id name := by
  unfold feed? at h
  cases hr : c.replica? id name with
  | none => simp [hr] at h
  | some run =>
    obtain ⟨host, hh, _, hrun⟩ := find?_of_replica? hr
    simp only [hr, Option.map_some, Option.some.injEq] at h
    subst h
    simp only [data, hh]
    rw [hrun] at hid ⊢
    exact congrArg host.site.storage.data hid

theorem exists_run_of_feed? {f : Feed} (h : c.feed? id name = some f) :
    ∃ a, c.replica? id name = some a ∧ a.feed = f := Option.map_eq_some_iff.mp h

theorem feed?_of_replica? {a : Run} (h : c.replica? id name = some a) :
    c.feed? id name = some a.feed := by rw [feed?, h, Option.map_some]

section OnReplica

variable {run : Run} (h : c.replica? id name = some run) (f : Run → Run)
include h

theorem commons_onReplica : (c.onReplica id name f).commons = (f run).commons := by
  obtain ⟨host, hh, hr, hrun⟩ := find?_of_replica? h
  rw [onReplica_of_some f hh hr, ← hrun]
  rfl

theorem replica?_onReplica_self : (c.onReplica id name f).replica? id name = some (f run) := by
  obtain ⟨host, hh, hr, hrun⟩ := find?_of_replica? h
  rw [onReplica_of_some f hh hr, ← hrun, replica?_putBack_self]
  simp [HostRun.modifyTable]

theorem feed?_onReplica_self : (c.onReplica id name f).feed? id name = some (f run).feed := by
  rw [feed?, replica?_onReplica_self h]
  rfl

theorem feed?_onReplica_of_ne {other : String} (hne : other ≠ name) :
    (c.onReplica id name f).feed? id other =
      (c.feed? id other).map fun g => { g with log := (f run).commons.log } := by
  obtain ⟨host, hh, hr, hrun⟩ := find?_of_replica? h
  rw [onReplica_of_some f hh hr, ← hrun, feed?_putBack_of_ne hne]
  rfl

theorem data_onReplica_self :
    (c.onReplica id name f).data id name = (f run).site.storage.data id := by
  obtain ⟨host, hh, hr, hrun⟩ := find?_of_replica? h
  rw [onReplica_of_some f hh hr, ← hrun, data_putBack_self]
  rfl

theorem data_onReplica_of_ne {other : String} (hne : other ≠ name) :
    (c.onReplica id name f).data id other = c.data id other := by
  obtain ⟨host, hh, hr, _⟩ := find?_of_replica? h
  rw [onReplica_of_some f hh hr, data_putBack_of_ne hne]

end OnReplica

theorem feed?_step {a : Run} (h : c.replica? id name = some a) :
    (c.happen id settings (.step name)).feed? id name = some a.step.feed := feed?_onReplica_self h _

/-- What changes no commons changes no log. -/
theorem log_onReplica {f : Run → Run} (h : ∀ run, (f run).commons = run.commons) :
    (c.onReplica id name f).commons.log = c.commons.log := by
  cases hr : c.replica? id name with
  | none => rw [onReplica_of_none f hr]
  | some run =>
    obtain ⟨_, _, _, hrun⟩ := find?_of_replica? hr
    rw [commons_onReplica hr, h, hrun]

theorem commons_onSite (f : Site → Site) : (c.onSite name f).commons = c.commons := by
  unfold onSite
  split <;> rfl

/-- A host with a replica is one of the hosts. -/
theorem mem_keys_of_feed? {f : Feed} (h : c.feed? id name = some f) : name ∈ c.hosts.keys := by
  refine Entries.mem_keys_iff.mpr ?_
  unfold feed? replica? at h
  cases hh : c.hosts.find? name with
  | none => simp [hh] at h
  | some host =>
    rw [SortedMap.find?] at hh
    simp [hh]

/-! ## What an event means for one host -/

variable (id settings) in
/-- What an event means for one host. -/
inductive Fate (c : Cluster) (e : Event) (name : String) : Prop where
  /-- Nothing, but that another event may have changed the log. -/
  | stays
      (feed : (c.happen id settings e).feed? id name =
        (c.feed? id name).map fun f => { f with log := (c.happen id settings e).commons.log })
      (data : (c.happen id settings e).data id name = c.data id name)
      (log : e = .step name → (c.happen id settings e).commons.log = c.commons.log)
  /-- Its replica takes a step. -/
  | moves (f g : Feed) (event : e = .step name) (before : c.feed? id name = some f)
      (after : (c.happen id settings e).feed? id name = some g) (alive : f.phase ≠ .killed)
      (move : f.Move g) (data : (c.happen id settings e).data id name = g.data)
      (log : (c.happen id settings e).commons.log = g.log)
  /-- It starts the replica. -/
  | starts (role : Role) (event : e = .start name role)
      (feed : (c.happen id settings e).feed? id name =
        some (Feed.create id settings role (c.data id name) c.commons.log))
      (data : (c.happen id settings e).data id name = c.data id name)
      (log : (c.happen id settings e).commons.log = c.commons.log)

/-- Nothing changes for a host where nothing changes. -/
theorem Fate.of_eq {e : Event} (h : c.happen id settings e = c) : c.Fate id settings e name := by
  refine .stays ?_ (by rw [h]) fun _ => by rw [h]
  rw [h]
  cases hf : c.feed? id name with
  | none => rfl
  | some f => rw [← log_of_feed? hf]; rfl

/-- Feeds leave out what a replica has not taken to heart yet. -/
theorem Fate.of_onReplica {e : Event} {target : String} {f : Replica → Replica}
    (happen : c.happen id settings e =
      c.onReplica id target fun run => { run with replica := f run.replica })
    (feed : ∀ run : Run, Run.feed { run with replica := f run.replica } = run.feed) :
    c.Fate id settings e name := by
  cases hr : c.replica? id target with
  | none => exact .of_eq (happen.trans (onReplica_of_none _ hr))
  | some run =>
    have hlog : (c.happen id settings e).commons.log = c.commons.log := by
      obtain ⟨_, _, _, hrun⟩ := find?_of_replica? hr
      rw [happen, commons_onReplica hr, hrun]
    by_cases hname : name = target
    · subst hname
      have hf := feed?_of_replica? hr
      refine .stays ?_ ?_ fun _ => hlog
      · rw [happen, feed?_onReplica_self hr, commons_onReplica hr, hf, feed]
        rfl
      · rw [happen, data_onReplica_self hr]
        obtain ⟨host, hh, _, hrun⟩ := find?_of_replica? hr
        simp only [data, hh]
        rw [hrun]
    · refine .stays ?_ ?_ fun _ => hlog
      · rw [happen, feed?_onReplica_of_ne hr _ hname, commons_onReplica hr]
      · rw [happen, data_onReplica_of_ne hr _ hname]

/-- Faults to come change neither feed nor data. -/
theorem Fate.of_onSite {e : Event} {target : String} {f : Site → Site}
    (happen : c.happen id settings e = c.onSite target f)
    (data : ∀ s r, (f s).storage.data r = s.storage.data r) : c.Fate id settings e name := by
  unfold onSite at happen
  cases hh : c.hosts.find? target with
  | none =>
    rw [hh] at happen
    exact .of_eq happen
  | some host =>
    simp only [hh] at happen
    by_cases hname : name = target
    · subst hname
      refine .stays ?_ ?_ fun _ => by rw [happen]; rfl
      · rw [happen, feed?_putBack_self]
        unfold feed? replica?
        rw [hh]
        cases hr : host.replicas.find? id with
        | none => simp [hr]
        | some r => simp [hr, Run.feed, data, putBack]
      · rw [happen, data_putBack_self]
        simp [Cluster.data, hh, data]
    · refine .stays ?_ ?_ fun _ => by rw [happen]; rfl
      · rw [happen, feed?_putBack_of_ne hname]
        rfl
      · rw [happen, data_putBack_of_ne hname]

/-! ## Invariants of every run -/

variable (id settings) in
/-- What holds in every run. -/
structure Sound (c : Cluster) : Prop where
  indexed : c.commons.log.Indexed
  genuine : ∀ name host, c.hosts.find? name = some host → host.site.Genuine
  identity : ∀ name f, c.feed? id name = some f → f.id = id ∧ f.settings = settings
  flow : ∀ name f, c.feed? id name = some f → f.phase.isOver = false → f.Flow
  kept : ∀ name checkpoint, (c.data id name).checkpoint = some checkpoint →
    checkpoint.versionOffset ≤ (c.versionRecords id).length

namespace Sound

/-- A replica whose task was killed takes no step. -/
theorem step_of_killed {run : Run} (h : run.replica.phase = .killed) : run.step = run := by
  refine Run.step_of_isWaiting ?_
  simp [Run.isWaiting, Replica.isWaiting, h]

/-- The log of a feed is that of the cluster. -/
theorem indexed_feed (h : c.Sound id settings) {f : Feed} (hf : c.feed? id name = some f) :
    f.log.Indexed := by
  rw [log_of_feed? hf]
  exact h.indexed

/-- A replica reads the version topic of the cluster. -/
theorem versionRecords_feed (h : c.Sound id settings) {f : Feed} (hf : c.feed? id name = some f) :
    f.versionRecords = c.versionRecords id := by
  rw [Feed.versionRecords, log_of_feed? hf, (h.identity name f hf).1, versionRecords]

/-- The last checkpoint that a host keeps can be gone on from. -/
theorem kept_feed (h : c.Sound id settings) {f : Feed} (hf : c.feed? id name = some f) :
    f.Kept := by
  obtain ⟨hid, _⟩ := h.identity name f hf
  intro checkpoint hc
  rw [data_of_feed? hf hid] at hc
  rw [h.versionRecords_feed hf]
  exact h.kept name checkpoint hc

/-- A step moves the replica that takes it, unless its task was killed, and no other. -/
theorem fate_step (h : c.Sound id settings) (target name : String) :
    c.Fate id settings (.step target) name := by
  cases hr : c.replica? id target with
  | none => exact .of_eq (onReplica_of_none _ hr)
  | some run =>
    have hlog : (c.happen id settings (.step target)).commons = run.step.commons :=
      commons_onReplica hr _
    by_cases hname : name = target
    · subst hname
      have hf := feed?_of_replica? hr
      have hid : run.replica.id = id := (h.identity name _ hf).1
      have after : (c.happen id settings (.step name)).feed? id name = some run.step.feed :=
        feed?_step hr
      have hdata : (c.happen id settings (.step name)).data id name =
          run.step.site.storage.data id := data_onReplica_self hr _
      obtain ⟨host, hh, _, hrun⟩ := find?_of_replica? hr
      by_cases hkilled : run.replica.phase = .killed
      · -- A killed task stays where it is: its step changes nothing at all.
        rw [step_of_killed hkilled] at hlog after hdata
        refine .stays ?_ ?_ fun _ => by rw [hlog, hrun]
        · rw [after, hf, hlog]
          rfl
        · rw [hdata, ← data_of_feed? hf hid, ← hid]
          rfl
      · have moved := Run.step_moved
          (show run.site.Genuine by rw [hrun]; exact h.genuine name host hh)
        have hid' : run.step.replica.id = id := moved.move.id_eq.trans hid
        refine .moves run.feed run.step.feed rfl hf after hkilled moved.move ?_ ?_
        · rw [hdata, ← hid']
          rfl
        · rw [hlog]
          rfl
    · refine .stays ?_ (data_onReplica_of_ne hr _ hname) fun he => by
        cases he; exact absurd rfl hname
      rw [hlog]
      exact feed?_onReplica_of_ne hr _ hname

/-- A start puts a replica in the place of the one that the host ran, and leaves what is stored. -/
theorem fate_start (target name : String) (role : Role) :
    c.Fate id settings (.start target role) name := by
  cases hh : c.hosts.find? target with
  | none =>
    refine .of_eq ?_
    simp only [happen, hh]
  | some host =>
    have hhappen : c.happen id settings (.start target role) =
        c.putBack target (HostRun.launch ⟨host, c.commons⟩ id settings role) := by
      simp only [happen, hh]
    by_cases hname : name = target
    · subst hname
      have hdata : c.data id name = host.site.storage.data id := by simp only [data, hh]
      refine .starts role rfl ?_ ?_ (by rw [hhappen]; rfl)
      · rw [hhappen, feed?_putBack_self, hdata]
        simp [HostRun.launch, HostRun.modifyTable, HostRun.countActive, HostRun.modifyStats,
          Run.feed, Feed.create, Replica.create]
      · rw [hhappen, data_putBack_self, hdata]
        rfl
    · refine .stays ?_ (by rw [hhappen, data_putBack_of_ne hname]) fun he => by cases he
      rw [hhappen, feed?_putBack_of_ne hname]
      rfl

/-- What an event means for a host. -/
theorem fate (h : c.Sound id settings) (e : Event) (name : String) : c.Fate id settings e name := by
  cases e with
  | step target => exact h.fate_step target name
  | start target role => exact fate_start target name role
  | tell target command =>
    exact .of_onReplica (f := fun r => r.send command) rfl fun run => rfl
  | release target =>
    exact .of_onReplica (f := fun r => { r with connected := false }) rfl fun run => rfl
  | append tp record => exact .stays (feed?_withCommons _) rfl fun he => by cases he
  | setAvailable available => exact .stays (feed?_withCommons _) rfl fun he => by cases he
  | setTime now => exact .stays (feed?_withCommons _) rfl fun he => by cases he
  | failWrites target offset times =>
    exact .of_onSite (f := fun s => { s with storage := s.storage.failWrites offset times }) rfl
      fun s r => rfl
  | plan target op fault =>
    exact .of_onSite (f := fun s => { s with faults := s.faults.insert op fault }) rfl fun s r =>
      rfl

/-- Something holds of the replica of a host after an event if it does in each of its fates. -/
theorem feed_induction (h : c.Sound id settings) (e : Event) {J : Feed → Prop}
    (stays : ∀ f, c.feed? id name = some f →
      (e = .step name → (c.happen id settings e).commons.log = c.commons.log) →
        J { f with log := (c.happen id settings e).commons.log })
    (moves : ∀ f g, e = .step name → c.feed? id name = some f →
      (c.happen id settings e).feed? id name = some g → f.Move g → J g)
    (starts : ∀ role, J (Feed.create id settings role (c.data id name) c.commons.log)) :
    ∀ g, (c.happen id settings e).feed? id name = some g → J g := by
  intro g hg
  cases h.fate e name with
  | stays feed _ log =>
    rw [feed, Option.map_eq_some_iff] at hg
    obtain ⟨f, hf, rfl⟩ := hg
    exact stays f hf log
  | moves f g' event before after _ move =>
    cases after.symm.trans hg
    exact moves f g event before after move
  | starts role _ feed =>
    cases feed.symm.trans hg
    exact starts role

/-- The log stays, or gets one record: from outside, or from a replica that publishes. -/
theorem log_cases (h : c.Sound id settings) (e : Event) :
    (∀ tp, (c.happen id settings e).commons.log.records tp = c.commons.log.records tp) ∨
      (∃ tp r, e = .append tp r ∧
        (c.happen id settings e).commons.log = (c.commons.log.append tp r).2) ∨
      ∃ name f w value, e = .step name ∧ c.feed? id name = some f ∧ f.phase = .working w ∧
        w.stage = .publish value ∧ (c.happen id settings e).commons.log =
          (c.commons.log.append id.versionTopic (Act.republished w.topic w.record value)).2 := by
  cases e with
  | step name =>
    cases h.fate (.step name) name with
    | stays _ _ log => exact .inl fun tp => by rw [log rfl]
    | moves f g _ before after _ move _ log =>
      rw [log]
      rcases move.log_cases with hlog | ⟨w, value, phase, stage, hlog⟩
      · exact .inl fun tp => by rw [hlog, log_of_feed? before]
      · rw [log_of_feed? before, (h.identity name f before).1] at hlog
        exact .inr (.inr ⟨name, f, w, value, rfl, before, phase, stage, hlog⟩)
    | starts _ event => cases event
  | append tp r => exact .inr (.inl ⟨tp, r, rfl, rfl⟩)
  | start target role =>
    refine .inl fun tp => ?_
    simp only [happen]
    split <;> rfl
  | tell target command => exact .inl fun tp => by rw [happen, log_onReplica]; exact fun _ => rfl
  | release target => exact .inl fun tp => by rw [happen, log_onReplica]; exact fun _ => rfl
  | setAvailable available => exact .inl fun _ => rfl
  | setTime now => exact .inl fun _ => rfl
  | failWrites target offset times => exact .inl fun tp => by rw [happen, commons_onSite]
  | plan target op fault => exact .inl fun tp => by rw [happen, commons_onSite]

theorem extends_log (h : c.Sound id settings) (e : Event) :
    c.commons.log.Extends (c.happen id settings e).commons.log := by
  rcases h.log_cases e with hsame | ⟨tp, r, _, hlog⟩ | ⟨_, _, w, value, _, _, _, _, hlog⟩
  · exact fun tp => ⟨[], by rw [hsame, List.append_nil]⟩
  · rw [hlog]
    exact Log.Extends.append _ _ _
  · rw [hlog]
    exact Log.Extends.append _ _ _

theorem indexed_happen (h : c.Sound id settings) (e : Event) :
    (c.happen id settings e).commons.log.Indexed := by
  rcases h.log_cases e with hsame | ⟨tp, r, _, hlog⟩ | ⟨_, _, w, value, _, _, _, _, hlog⟩
  · intro tp i r hr
    rw [hsame] at hr
    exact h.indexed tp i r hr
  · rw [hlog]
    exact h.indexed.append _ _
  · rw [hlog]
    exact h.indexed.append _ _

theorem genuine_happen (h : c.Sound id settings) (e : Event) :
    ∀ name host, (c.happen id settings e).hosts.find? name = some host → host.site.Genuine := by
  -- Every event puts at most one host back.
  have put : ∀ (target : String) (s : HostRun), s.host.site.Genuine →
      ∀ name host, (c.putBack target s).hosts.find? name = some host → host.site.Genuine := by
    intro target s hs name host hh
    by_cases hname : name = target
    · subst hname
      rw [putBack, SortedMap.find?_insert_self] at hh
      cases hh
      exact hs
    · rw [putBack, SortedMap.find?_insert_of_ne _ hname] at hh
      exact h.genuine name host hh
  have act : ∀ (target : String) (f : Run → Run),
      (∀ run : Run, run.site.Genuine → (f run).site.Genuine) →
      ∀ name host, (c.onReplica id target f).hosts.find? name = some host → host.site.Genuine := by
    intro target f hf
    cases hr : c.replica? id target with
    | none =>
      rw [onReplica_of_none f hr]
      exact h.genuine
    | some run =>
      obtain ⟨host, hh, hreplica, _⟩ := find?_of_replica? hr
      rw [onReplica_of_some f hh hreplica]
      exact put target _ (hf _ (h.genuine target host hh))
  have site : ∀ (target : String) (f : Site → Site), (∀ s : Site, s.Genuine → (f s).Genuine) →
      ∀ name host, (c.onSite target f).hosts.find? name = some host → host.site.Genuine := by
    intro target f hf
    unfold onSite
    split
    · exact h.genuine
    · rename_i host hh
      exact put target _ (hf _ (h.genuine target host hh))
  cases e with
  | step target => exact act target Run.step fun run hrun => (Run.step_moved hrun).genuine
  | start target role =>
    simp only [happen]
    split
    · exact h.genuine
    · rename_i host hh
      have hg := h.genuine target host hh
      exact put target _ ⟨hg.injected, hg.faults⟩
  | tell target command => exact act target _ fun run hrun => hrun
  | release target => exact act target _ fun run hrun => hrun
  | append tp r => exact h.genuine
  | setAvailable available => exact h.genuine
  | setTime now => exact h.genuine
  | failWrites target offset times => exact site target _ fun s hs => ⟨hs.injected, hs.faults⟩
  | plan target op fault reports =>
    refine site target _ fun s hs => ⟨hs.injected, ?_⟩
    exact hs.faults.insert reports

/-- An event that appends nothing to the version topic leaves it as it is. -/
theorem versionRecords_eq (h : c.Sound id settings) {e : Event}
    (hlength : ((c.happen id settings e).versionRecords id).length = (c.versionRecords id).length) :
    (c.happen id settings e).versionRecords id = c.versionRecords id :=
  (h.extends_log e).records_eq hlength

/-- Every event keeps what holds in every run. -/
theorem happen (h : c.Sound id settings) (e : Event) :
    (c.happen id settings e).Sound id settings where
  indexed := h.indexed_happen e
  genuine := h.genuine_happen e
  identity name g hg := by
    cases h.fate e name with
    | stays feed =>
      rw [feed, Option.map_eq_some_iff] at hg
      obtain ⟨f, hf, rfl⟩ := hg
      exact h.identity name f hf
    | moves f g' _ before after _ move =>
      rw [after, Option.some.injEq] at hg
      subst hg
      obtain ⟨hid, hsettings⟩ := h.identity name f before
      exact ⟨move.id_eq.trans hid, move.settings_eq.trans hsettings⟩
    | starts role _ feed =>
      rw [feed, Option.some.injEq] at hg
      subst hg
      exact ⟨rfl, rfl⟩
  flow name g hg ended := by
    cases h.fate e name with
    | stays feed =>
      rw [feed, Option.map_eq_some_iff] at hg
      obtain ⟨f, hf, rfl⟩ := hg
      refine (h.flow name f hf ended).withLog ?_
      rw [log_of_feed? hf]
      exact h.extends_log e
    | moves f g' _ before after _ move =>
      rw [after, Option.some.injEq] at hg
      subst hg
      exact (h.flow name f before (move.live ended)).move (h.kept_feed before)
        (h.indexed_feed before) move ended
    | starts role _ feed =>
      rw [feed, Option.some.injEq] at hg
      subst hg
      exact .of_created rfl rfl rfl rfl rfl rfl
  kept name checkpoint hc := by
    have longer := (h.extends_log e).length_le id.versionTopic
    cases h.fate e name with
    | stays _ data =>
      rw [data] at hc
      exact Nat.le_trans (h.kept name checkpoint hc) longer
    | moves f g _ before after _ move data log =>
      -- A move that commits stores its position, which is not behind the end of the topic.
      have kept := (h.kept_feed before).move (h.flow name f before) move
      rw [versionRecords, log, ← (h.identity name f before).1, ← move.id_eq]
      exact kept checkpoint (data ▸ hc)
    | starts _ _ _ data =>
      rw [data] at hc
      exact Nat.le_trans (h.kept name checkpoint hc) longer

/-- The log only grows in a run. -/
theorem extends_run (h : c.Sound id settings) (events : List Event) :
    c.commons.log.Extends (c.run id settings events).commons.log := by
  induction events generalizing c with
  | nil => exact .refl _
  | cons e rest ih => exact (h.extends_log e).trans (ih (h.happen e))

end Sound

/-! ## The start of every run -/

/-- What a map over a list gives, in a computation that can fail, is given by its members. -/
theorem mem_of_mapM {α β ε : Type} {f : α → Except ε β} {xs : List α} {ys : List β}
    (h : xs.mapM f = .ok ys) {y : β} (hy : y ∈ ys) : ∃ x ∈ xs, f x = .ok y := by
  induction xs generalizing ys with
  | nil =>
    cases h
    cases hy
  | cons x rest ih =>
    rw [List.mapM_cons] at h
    cases hx : f x with
    | error e => rw [hx] at h; cases h
    | ok y' =>
      cases hrest : rest.mapM f with
      | error e => rw [hx, hrest] at h; cases h
      | ok ys' =>
        rw [hx, hrest] at h
        cases h
        rcases List.mem_cons.1 hy with rfl | hy
        · exact ⟨x, List.mem_cons_self, hx⟩
        · obtain ⟨x', hx', hfx⟩ := ih hrest hy
          exact ⟨x', List.mem_cons_of_mem _ hx', hfx⟩

/-- A host that is put together has its settings, and nothing else yet. -/
theorem eq_of_build {parts : HostParts} {host : Host} (h : Host.build parts = .ok host) :
    ∃ stats, host = ⟨{ Site.create parts.settings with stats }, SortedMap.empty, []⟩ := by
  unfold Host.build at h
  cases hv : parts.settings.validate with
  | error e => rw [hv] at h; cases h
  | ok _ =>
    rw [hv] at h
    cases hs : parts.hasSource <;> cases ht : parts.hasStorage <;> simp [hs, ht] at h
    all_goals first
      | (cases h; exact ⟨_, rfl⟩)
      | cases h

theorem of_build {parts : HostParts} {host : Host} (h : Host.build parts = .ok host) :
    host.site.storage = Storage.empty ∧ host.site.Genuine ∧ host.replicas = SortedMap.empty := by
  obtain ⟨_, rfl⟩ := eq_of_build h
  exact ⟨rfl, ⟨rfl, FaultPlan.genuine_empty⟩, rfl⟩

section Create

variable {hosts : SortedMap String HostSettings} (h : Cluster.create hosts = .ok c)
include h

/-- Every host was put together with the settings of its name. -/
theorem build_of_create {host : Host} (hh : c.hosts.find? name = some host) :
    ∃ s, hosts.find? name = some s ∧ Host.build ⟨s, true, true, none⟩ = .ok host := by
  unfold Cluster.create at h
  generalize hb : (hosts.entries.mapM _ : Except IngestionError (List (String × Host))) =
    answer at h
  cases answer with
  | error e => cases h
  | ok built =>
    cases h
    obtain ⟨⟨name', s⟩, among, hbuild⟩ := mem_of_mapM hb (SortedMap.mem_of_find?_ofList hh)
    dsimp only at hbuild
    cases hhost : Host.build ⟨s, true, true, none⟩ with
    | error e => rw [hhost] at hbuild; cases hbuild
    | ok host' =>
      rw [hhost] at hbuild
      cases hbuild
      exact ⟨s, SortedMap.find?_of_mem among, hhost⟩

theorem of_create : c.commons.log = Log.empty ∧ ∀ name host, c.hosts.find? name = some host →
    host.site.storage = Storage.empty ∧ host.site.Genuine ∧ host.replicas = SortedMap.empty := by
  refine ⟨?_, fun name host hh => ?_⟩
  · unfold Cluster.create at h
    generalize (hosts.entries.mapM _ : Except IngestionError (List (String × Host))) = answer at h
    cases answer with
    | error e => cases h
    | ok built =>
      cases h
      rfl
  · obtain ⟨_, _, hbuild⟩ := build_of_create h hh
    exact of_build hbuild

/-- No replica was started yet. -/
theorem feed?_of_create (id : ReplicaId) (name : String) : c.feed? id name = none := by
  unfold feed? replica?
  cases hh : c.hosts.find? name with
  | none => rfl
  | some host => simp [((of_create h).2 name host hh).2.2]

/-- Nothing is kept yet. -/
theorem data_of_create (id : ReplicaId) (name : String) : c.data id name = ReplicaData.empty := by
  unfold data
  cases hh : c.hosts.find? name with
  | none => rfl
  | some host =>
    simp only [((of_create h).2 name host hh).1]
    rfl

/-- Nothing was appended yet. -/
theorem records_of_create (tp : TopicPartition) : c.commons.log.records tp = [] := by
  rw [(of_create h).1]
  rfl

theorem Sound.of_create (id : ReplicaId) (settings : VersionSettings) : c.Sound id settings where
  indexed := (Cluster.of_create h).1 ▸ Log.indexed_empty
  genuine name host hh := ((Cluster.of_create h).2 name host hh).2.1
  identity name f hf := by simp [feed?_of_create h] at hf
  flow name f hf := by simp [feed?_of_create h] at hf
  kept name checkpoint hc := by
    rw [data_of_create h] at hc
    cases hc

/-- What holds in every run. -/
theorem Sound.of_run (id : ReplicaId) (settings : VersionSettings) (events : List Event) :
    (c.run id settings events).Sound id settings := by
  refine run_induction (P := fun _ _ => True) (fun c e hc _ => hc.happen e)
    (.of_create h id settings) ?_
  clear h
  induction events generalizing c with
  | nil => trivial
  | cons e rest ih => exact ⟨trivial, ih⟩

end Create

/-! ## A small cluster

Runs on fixed inputs are shown on two hosts with standard settings, and a hybrid version without
regions. -/

/-- Two hosts, `a` and `b`. -/
def twoHosts : Cluster :=
  ⟨SortedMap.ofList [("a", Host.create .standard), ("b", Host.create .standard)],
    ⟨startTime, Log.empty, Metrics.ReplicaMetrics.empty⟩⟩

theorem create_twoHosts :
    Cluster.create (SortedMap.ofList [("a", .standard), ("b", .standard)]) = .ok twoHosts := rfl

/-- The first version of the store `s`. -/
def sampleId : ReplicaId := ⟨"s", 1, 0⟩

/-- A leader without a position goes an hour back. -/
def hybridSettings : VersionSettings :=
  { VersionSettings.standard with hybrid := some ⟨3600, 100⟩ }

/-- A record of the time at which a cluster starts. -/
def sampleRecord (key : String) (payload : Payload) : ChangeRecord :=
  ⟨0, startTime, key.toUTF8, payload, none⟩

/-- A host takes some steps. -/
def steps (name : String) (n : Nat) : List Event := List.replicate n (.step name)

end Cluster

end StoreFeed
