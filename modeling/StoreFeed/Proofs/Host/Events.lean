import Mathlib.Data.List.Perm.Basic
import Mathlib.Logic.Function.Iterate
import StoreFeed.Host.Coordinator
import StoreFeed.Proofs.Stats.Aggregator

/-!
# What happens at a host

A call to stop replicas takes them out of the table, tells them to stop, and waits for them;
meanwhile all replicas go on. A `Hosting` is a host together with the replicas that are waited for,
and an `Event` is a part of a call, a step of a replica, or something from outside. A run is any
list of events, so calls and steps may interleave in any way. A call that is made in one go is such
a run (`Hosting.make_follows`).
-/

namespace StoreFeed

/-- A host and the replicas that calls wait for. -/
structure Hosting where
  run : HostRun
  /-- Replicas that a call took out of the table, up to its wait for them. -/
  leaving : List Replica

namespace Hosting

/-- A host on which nothing happened. -/
def opened (settings : HostSettings) (commons : Commons) : Hosting :=
  ⟨⟨Host.create settings, commons⟩, []⟩

/-- Where a replica is kept. -/
inductive Place where
  | table (id : ReplicaId)
  | leaving (i : Nat)
  /-- Among those that nobody holds any more. -/
  | detached (i : Nat)

/-- Something that happens. -/
inductive Event where
  /-- A replica takes its next step. -/
  | step (p : Place)
  /-- A replica is started, if the table has none of that identity. -/
  | launch (id : ReplicaId) (settings : VersionSettings) (role : Role)
  /-- A command is sent to a replica, unless its task has ended: a change of role to one of the
  table, a stop to one that is waited for. -/
  | steer (id : ReplicaId) (role : Role)
  | tell (i : Nat) (c : Command)
  /-- A change of role reached nobody. -/
  | miss (id : ReplicaId)
  /-- A call takes a replica, or all, out of the table. -/
  | dismiss (id : ReplicaId)
  | drain
  /-- The wait for a replica is over. -/
  | await (i : Nat)
  /-- A call does not wait for a replica after all, and nobody else can send it commands. -/
  | release (i : Nat)
  /-- Time passes, others write to the log, storage changes, faults are planned. -/
  | around (site : Site) (now : Nat) (log : Log)

/-- The table. -/
def table (h : Hosting) : SortedMap ReplicaId Replica := h.run.host.replicas

/-- The statistics of the host. -/
def stats (h : Hosting) : Stats.Aggregator := h.run.host.site.stats

/-- What is counted. -/
def metrics (h : Hosting) : Metrics.ReplicaMetrics := h.run.commons.metrics

/-- The replica at a place. -/
def replica? (h : Hosting) : Place → Option Replica
  | .table id => h.table.find? id
  | .leaving i => h.leaving[i]?
  | .detached i => h.run.host.detached[i]?

/-- Put a replica back to its place. -/
def putBack (h : Hosting) (r : Replica) : Place → Hosting
  | .table id => { h with run := h.run.modifyTable (·.insert id r) }
  | .leaving i => { h with leaving := h.leaving.set i r }
  | .detached i =>
    { h with run := { h.run with
      host := { h.run.host with detached := h.run.host.detached.set i r } } }

/-- The host once a replica has acted in its surroundings. -/
def acted (h : Hosting) (p : Place) (run : Run) : Hosting :=
  { h with run := ⟨{ h.run.host with site := run.site }, run.commons⟩ }.putBack run.replica p

/-- Let the replica at a place act. -/
def act (h : Hosting) (p : Place) (f : Run → Run) : Hosting :=
  match h.replica? p with
  | some r => h.acted p (f ⟨r, h.run.host.site, h.run.commons⟩)
  | none => h

/-- A replica is sent a command, unless its task has ended. -/
def delivered (c : Command) (run : Run) : Run :=
  if run.replica.isFinished then run else { run with replica := run.replica.send c }

/-- The host after an event. -/
def happen (h : Hosting) : Event → Hosting
  | .step p => h.act p Run.step
  | .launch id settings role =>
    if h.table.contains id then h else { h with run := h.run.launch id settings role }
  | .steer id role => h.act (.table id) (delivered (.changeRole role))
  | .tell i c => h.act (.leaving i) (delivered c)
  | .miss id =>
    ⟨h.run.modifyStats (·.record h.run.commons.now id.store id.version .stalePartition), h.leaving⟩
  | .dismiss id =>
    match h.table.find? id with
    | some r => ⟨h.run.modifyTable (·.erase id), h.leaving ++ [r]⟩
    | none => h
  | .drain => ⟨h.run.modifyTable fun _ => SortedMap.empty, h.leaving ++ h.table.values⟩
  | .await i =>
    match h.leaving[i]? with
    | some _ => ⟨h.run.countActive (-1), h.leaving.eraseIdx i⟩
    | none => h
  | .release i =>
    match h.leaving[i]? with
    | some r =>
      let detached := h.run.host.detached ++ [{ r with connected := false }]
      ⟨{ h.run with host := { h.run.host with detached } }, h.leaving.eraseIdx i⟩
    | none => h
  | .around site now log =>
    { h with run :=
      { host := { h.run.host with site := { site with stats := h.stats } }
        commons := { h.run.commons with now, log } } }

/-- The host after a run. -/
def after (h : Hosting) (events : List Event) : Hosting := events.foldl happen h

/-- Something holds of every event of a run and the host it happens at. -/
def Along (P : Hosting → Event → Prop) (h : Hosting) : List Event → Prop
  | [] => True
  | e :: rest => P h e ∧ Along P (h.happen e) rest

/-- Who is waited for ends by itself, and so a call lets nobody go. -/
def Calm (h : Hosting) : Event → Prop
  | .await i => ∀ r, h.leaving[i]? = some r → r.phase = .stopped
  | .release _ => False
  | _ => True

variable {h h' : Hosting}

theorem after_append (h : Hosting) (events later : List Event) :
    h.after (events ++ later) = (h.after events).after later := List.foldl_append

theorem Along.append {P : Hosting → Event → Prop} {events later : List Event}
    (before : h.Along P events) (after : (h.after events).Along P later) :
    h.Along P (events ++ later) := by
  induction events generalizing h with
  | nil => exact after
  | cons e rest ih => exact ⟨before.1, ih before.2 after⟩

/-- What every event keeps is kept by a run. -/
theorem after_induction {P : Hosting → Event → Prop} {I : Hosting → Prop}
    (step : ∀ h e, I h → P h e → I (h.happen e)) {events : List Event} (init : I h)
    (along : h.Along P events) : I (h.after events) := by
  induction events generalizing h with
  | nil => exact init
  | cons e rest ih => exact ih (step h e init along.1) along.2

/-! ## What an event changes -/

/-- All replicas of the host. -/
def members (h : Hosting) : List Replica := h.table.values ++ h.leaving ++ h.run.host.detached

/-- The replica with its surroundings. -/
def surrounded (h : Hosting) (r : Replica) : Run := ⟨r, h.run.host.site, h.run.commons⟩

/-- The replica that is put into the table. -/
def launched (h : Hosting) (id : ReplicaId) (settings : VersionSettings) (role : Role) : Replica :=
  Replica.create id settings role h.run.host.site.settings h.run.commons.now

/-- What an event can change of the replicas, the statistics and the counts. -/
inductive Fate (h : Hosting) (e : Event) (h' : Hosting) : Prop where
  /-- Replicas may change their places. -/
  | quiet (members : h'.members.Perm h.members) (metrics : h'.metrics = h.metrics)
      (sound : h.stats.Sound → h'.stats.Sound)
      (stats : h.stats.Sound → ∀ key, h'.stats.ledger? key = h.stats.ledger? key)
      (reporters : ∀ key, h'.stats.registry.reporter? key = h.stats.registry.reporter? key)
  /-- A replica has another queue, or is let go. -/
  | tells (r r' : Replica) (others : List Replica) (members : h.members.Perm (r :: others))
      (members' : h'.members.Perm (r' :: others)) (metrics : h'.metrics = h.metrics)
      (stats : h'.stats = h.stats) (same : ∃ inbox connected, r' = { r with inbox, connected })
  | steps (p : Place) (r : Replica) (others : List Replica) (event : e = .step p)
      (held : h.replica? p = some r) (members : h.members.Perm (r :: others))
      (members' : h'.members.Perm ((h.surrounded r).step.replica :: others))
      (metrics : h'.metrics = (h.surrounded r).step.commons.metrics)
      (stats : h'.stats = (h.surrounded r).step.site.stats)
  | launches (id : ReplicaId) (settings : VersionSettings) (role : Role)
      (event : e = .launch id settings role) (absent : h.table.contains id = false)
      (members : h'.members.Perm (h.launched id settings role :: h.members))
      (metrics : h'.metrics =
        { h.metrics.moveState .notSubscribed 1 with active := h.metrics.active + 1 })
      (stats : h'.stats =
        (h.stats.register h.run.commons.now id.store id.version settings.profile).setErrored
        id.store id.version false)
  | joins (i : Nat) (r : Replica) (event : e = .await i) (held : h.leaving[i]? = some r)
      (members : h.members.Perm (r :: h'.members))
      (metrics : h'.metrics = { h.metrics with active := h.metrics.active - 1 })
      (stats : h'.stats = h.stats)

theorem Fate.of_same {e : Event} (members : h'.members.Perm h.members)
    (metrics : h'.metrics = h.metrics) (stats : h'.stats = h.stats) : h.Fate e h' :=
  .quiet members metrics (fun sound => stats ▸ sound) (fun _ key => by rw [stats])
    fun key => by rw [stats]

theorem mem_members_of_table {id : ReplicaId} {r : Replica} (hr : h.table.find? id = some r) :
    r ∈ h.members :=
  List.mem_append_left _ (List.mem_append_left _ (SortedMap.mem_values_of_find? hr))

theorem forall_mem_of_perm {P : Replica → Prop} {all others : List Replica} {r : Replica}
    (h : all.Perm (r :: others)) : (∀ r' ∈ all, P r') ↔ P r ∧ ∀ r' ∈ others, P r' := by
  simp only [h.mem_iff, List.forall_mem_cons]

/-- Somebody who is waited for stands apart from the others. -/
theorem members_of_leaving {i : Nat} {r : Replica} (hr : h.leaving[i]? = some r) :
    h.members.Perm (r :: (h.table.values ++ h.leaving.eraseIdx i ++ h.run.host.detached)) := by
  obtain ⟨hlt, rfl⟩ := List.getElem?_eq_some_iff.mp hr
  refine List.Perm.append_right _ (List.Perm.trans ?_ List.perm_middle)
  exact (List.getElem_cons_eraseIdx_perm hlt).symm.append_left _

/-- A replica stands apart from the others when it acts. -/
theorem members_acted {p : Place} {r : Replica} (hr : h.replica? p = some r) :
    ∃ others, h.members.Perm (r :: others) ∧
      ∀ run, (h.acted p run).members.Perm (run.replica :: others) := by
  unfold members
  cases p with
  | table id =>
    obtain ⟨apart, set⟩ := SortedMap.values_perm_of_find? hr
    refine ⟨(h.table.erase id).values ++ h.leaving ++ h.run.host.detached, ?_, fun run => ?_⟩
    · exact (apart.append_right _).append_right _
    · exact ((set run.replica).append_right _).append_right _
  | leaving i =>
    obtain ⟨hlt, -⟩ := List.getElem?_eq_some_iff.mp hr
    refine ⟨_, members_of_leaving hr, fun run => ?_⟩
    refine List.Perm.append_right _ (List.Perm.trans ?_ List.perm_middle)
    exact (List.set_perm_cons_eraseIdx hlt run.replica).append_left _
  | detached i =>
    obtain ⟨hlt, rfl⟩ := List.getElem?_eq_some_iff.mp hr
    refine ⟨h.table.values ++ h.leaving ++ h.run.host.detached.eraseIdx i, ?_, fun run => ?_⟩
    · exact ((List.getElem_cons_eraseIdx_perm hlt).symm.append_left _).trans List.perm_middle
    · exact ((List.set_perm_cons_eraseIdx hlt run.replica).append_left _).trans List.perm_middle

theorem surroundings_acted (h : Hosting) (p : Place) (run : Run) :
    (h.acted p run).run.host.site = run.site ∧ (h.acted p run).run.commons = run.commons := by
  cases p <;> exact ⟨rfl, rfl⟩

theorem act_of_some {p : Place} {r : Replica} (hr : h.replica? p = some r) (f : Run → Run) :
    h.act p f = h.acted p (f (h.surrounded r)) := by
  unfold act
  rw [hr]
  rfl

theorem act_of_none {p : Place} (hr : h.replica? p = none) (f : Run → Run) : h.act p f = h := by
  unfold act
  rw [hr]

/-- To send a command is not to act. -/
theorem Fate.of_delivered {e : Event} (p : Place) (c : Command) :
    h.Fate e (h.act p (delivered c)) := by
  cases hr : h.replica? p with
  | none =>
    rw [act_of_none hr]
    exact .of_same (.refl _) rfl rfl
  | some r =>
    obtain ⟨others, apart, put⟩ := members_acted hr
    obtain ⟨site, commons⟩ := h.surroundings_acted p (delivered c (h.surrounded r))
    have same : (delivered c (h.surrounded r)).site = h.run.host.site ∧
        (delivered c (h.surrounded r)).commons = h.run.commons ∧
        ∃ inbox connected, (delivered c (h.surrounded r)).replica =
          { r with inbox, connected } := by
      unfold delivered
      split
      · exact ⟨rfl, rfl, _, _, rfl⟩
      · exact ⟨rfl, rfl, _, _, rfl⟩
    rw [act_of_some hr]
    exact .tells r _ others apart (put _) (congrArg (·.metrics) (commons.trans same.2.1))
      (congrArg (·.stats) (site.trans same.1)) same.2.2

theorem table_launch (h : Hosting) (id : ReplicaId) (settings : VersionSettings) (role : Role) :
    Hosting.table { h with run := h.run.launch id settings role } =
      h.table.insert id (h.launched id settings role) := by
  simp only [table, launched, HostRun.launch, HostRun.modifyStats, HostRun.modifyTable,
    HostRun.countActive]

theorem detached_launch (h : Hosting) (id : ReplicaId) (settings : VersionSettings) (role : Role) :
    (h.run.launch id settings role).host.detached = h.run.host.detached := by
  simp only [HostRun.launch, HostRun.modifyStats, HostRun.modifyTable, HostRun.countActive]

theorem members_launch (h : Hosting) (id : ReplicaId) (settings : VersionSettings) (role : Role) :
    Hosting.members { h with run := h.run.launch id settings role } =
      (h.table.insert id (h.launched id settings role)).values ++ h.leaving ++
        h.run.host.detached := by
  unfold members
  rw [table_launch, detached_launch]

/-- What happens is one of these. -/
theorem fate (h : Hosting) (e : Event) : h.Fate e (h.happen e) := by
  cases e with
  | step p =>
    dsimp only [happen]
    cases hr : h.replica? p with
    | none =>
      rw [act_of_none hr]
      exact .of_same (.refl _) rfl rfl
    | some r =>
      obtain ⟨others, apart, put⟩ := members_acted hr
      obtain ⟨site, commons⟩ := h.surroundings_acted p (h.surrounded r).step
      rw [act_of_some hr]
      exact .steps p r others rfl hr apart (put _) (congrArg (·.metrics) commons)
        (congrArg (·.stats) site)
  | launch id settings role =>
    dsimp only [happen]
    split
    · exact .of_same (.refl _) rfl rfl
    · rename_i absent
      have missing : h.table.find? id = none := by simpa [SortedMap.contains] using absent
      refine .launches id settings role rfl (Bool.eq_false_iff.mpr absent) ?_ rfl rfl
      rw [members_launch]
      exact ((SortedMap.values_insert_perm missing _).append_right _).append_right _
  | steer id role => exact .of_delivered _ _
  | tell i c => exact .of_delivered _ _
  | miss id =>
    refine .quiet (.refl _) rfl (fun sound => sound.withBoth _ _ _) (fun sound key => ?_)
      fun key => ?_
    · exact sound.ledger?_record _ _ _ _ key
    · exact Stats.Registry.reporter?_withBoth _ _ _ key _
  | dismiss id =>
    dsimp only [happen]
    split
    · rename_i r hr
      -- A replica that is dismissed leaves the table, but stays a member until it is awaited.
      refine .of_same ?_ rfl rfl
      obtain ⟨apart, -⟩ := SortedMap.values_perm_of_find? hr
      refine List.Perm.append_right _ ?_
      refine (List.Perm.trans ?_ (apart.append_right _).symm)
      exact (List.perm_append_comm.append_left _).trans List.perm_middle
    · exact .of_same (.refl _) rfl rfl
  | drain =>
    refine .of_same ?_ rfl rfl
    show (h.leaving ++ h.table.values ++ h.run.host.detached).Perm _
    exact List.perm_append_comm.append_right _
  | await i =>
    dsimp only [happen]
    split
    · rename_i r hr
      exact .joins i r rfl hr (members_of_leaving hr) rfl rfl
    · exact .of_same (.refl _) rfl rfl
  | release i =>
    dsimp only [happen]
    split
    · rename_i r hr
      refine .tells r { r with connected := false } _ (members_of_leaving hr) ?_ rfl rfl ⟨_, _, rfl⟩
      show (h.table.values ++ h.leaving.eraseIdx i ++ (h.run.host.detached ++ [_])).Perm _
      rw [← List.append_assoc]
      exact List.perm_append_singleton _ _
    · exact .of_same (.refl _) rfl rfl
  | around site now log => exact .of_same (.refl _) rfl rfl

/-- What holds of all replicas after an event: of those that stay, or get another queue, of one that
takes a step, and of one that is started. -/
theorem forall_members_happen {e : Event} {P P' : Replica → Prop} (all : ∀ r ∈ h.members, P r)
    (told : ∀ r inbox connected, P r → P' { r with inbox, connected })
    (steps : ∀ r ∈ h.members, P r → P' (h.surrounded r).step.replica)
    (launches : ∀ id settings role, (h.happen e).stats =
      (h.stats.register h.run.commons.now id.store
      id.version settings.profile).setErrored id.store id.version false →
      P' (h.launched id settings role)) : ∀ r ∈ (h.happen e).members, P' r := by
  have kept : ∀ r, P r → P' r := fun r hr => told r r.inbox r.connected hr
  cases h.fate e with
  | quiet members => exact fun r hr => kept r (all r (members.mem_iff.mp hr))
  | tells r r' others members members' metrics stats same =>
    obtain ⟨inbox, connected, rfl⟩ := same
    have apart := (forall_mem_of_perm members).mp all
    exact (forall_mem_of_perm members').mpr ⟨told r _ _ apart.1, fun r hr => kept r (apart.2 r hr)⟩
  | steps p r others event held members members' =>
    have apart := (forall_mem_of_perm members).mp all
    have here : r ∈ h.members := members.mem_iff.mpr (List.mem_cons_self ..)
    exact (forall_mem_of_perm members').mpr ⟨steps r here apart.1, fun r hr =>
      kept r (apart.2 r hr)⟩
  | launches id settings role event absent members metrics stats =>
    exact (forall_mem_of_perm members).mpr ⟨launches id settings role stats,
      fun r hr => kept r (all r hr)⟩
  | joins i r event held members =>
    exact fun r hr => kept r (((forall_mem_of_perm members).mp all).2 r hr)

/-- How a replica came to be in the table. -/
inductive TableFate (h : Hosting) (e : Event) (id : ReplicaId) (r' : Replica) : Prop where
  | stays (before : h.table.find? id = some r')
  | steers (r : Replica) (role : Role) (before : h.table.find? id = some r)
      (now : r' = r.send (.changeRole role))
  | steps (r : Replica) (before : h.table.find? id = some r) (event : e = .step (.table id))
      (now : r' = (h.surrounded r).step.replica)
  | starts (settings : VersionSettings) (role : Role) (event : e = .launch id settings role)
      (absent : h.table.contains id = false) (now : r' = h.launched id settings role)

theorem find?_table_act {p : Place} {f : Run → Run} {id : ReplicaId} {r' : Replica}
    (hr' : (h.act p f).table.find? id = some r') : h.table.find? id = some r' ∨
      ∃ r, h.table.find? id = some r ∧ p = .table id ∧ r' = (f (h.surrounded r)).replica := by
  cases hr : h.replica? p with
  | none =>
    rw [act_of_none hr] at hr'
    exact .inl hr'
  | some r =>
    rw [act_of_some hr] at hr'
    cases p with
    | table id' =>
      have set : (h.table.insert id' (f (h.surrounded r)).replica).find? id = some r' := hr'
      by_cases same : id = id'
      · subst same
        rw [SortedMap.find?_insert_self] at set
        cases set
        exact .inr ⟨r, hr, rfl, rfl⟩
      · rw [SortedMap.find?_insert_of_ne _ same] at set
        exact .inl set
    | leaving i | detached i => exact .inl hr'

theorem tableFate {e : Event} {id : ReplicaId} {r' : Replica}
    (hr' : (h.happen e).table.find? id = some r') : h.TableFate e id r' := by
  cases e with
  | step p =>
    rcases find?_table_act hr' with before | ⟨r, before, rfl, now⟩
    · exact .stays before
    · exact .steps r before rfl now
  | launch id' settings role =>
    dsimp only [happen] at hr'
    split at hr'
    · exact .stays hr'
    · rename_i absent
      rw [table_launch] at hr'
      by_cases same : id = id'
      · subst same
        rw [SortedMap.find?_insert_self] at hr'
        cases hr'
        exact .starts settings role rfl (Bool.eq_false_iff.mpr absent) rfl
      · rw [SortedMap.find?_insert_of_ne _ same] at hr'
        exact .stays hr'
  | steer id' role =>
    rcases find?_table_act hr' with before | ⟨r, before, -, now⟩
    · exact .stays before
    · unfold delivered at now
      split at now
      · exact .stays (now ▸ before)
      · exact .steers r role before now
  | tell i c =>
    rcases find?_table_act hr' with before | ⟨r, before, place, -⟩
    · exact .stays before
    · cases place
  | dismiss id' =>
    dsimp only [happen] at hr'
    split at hr'
    · have set : (h.table.erase id').find? id = some r' := hr'
      by_cases same : id = id'
      · subst same
        rw [SortedMap.find?_erase_self] at set
        cases set
      · rw [SortedMap.find?_erase_of_ne _ same] at set
        exact .stays set
    · exact .stays hr'
  | drain => cases hr'
  | await i | release i =>
    dsimp only [happen] at hr'
    split at hr' <;> exact .stays hr'
  | miss id' | around site now log => exact .stays hr'

/-! ## Calls in one go -/

/-- A run leads from one host to another; if all is said to be calm, it is a calm one. -/
def Follows (h h' : Hosting) (calm : Prop) : Prop :=
  ∃ events, h.after events = h' ∧ (calm → h.Along Calm events)

variable {calm : Prop}

theorem Follows.refl (h : Hosting) : h.Follows h calm := ⟨[], rfl, fun _ => trivial⟩

theorem Follows.trans {h'' : Hosting} (first : h.Follows h' calm) (second : h'.Follows h'' calm) :
    h.Follows h'' calm := by
  obtain ⟨events, rfl, before⟩ := first
  obtain ⟨later, rfl, after⟩ := second
  exact ⟨events ++ later, after_append h events later, fun hc => (before hc).append (after hc)⟩

/-- An event in which nobody is waited for. -/
theorem Follows.of_event (e : Event) (quiet : calm → h.Calm e) : h.Follows (h.happen e) calm :=
  ⟨[e], rfl, fun hc => ⟨quiet hc, trivial⟩⟩

theorem Follows.of_imp {calm' : Prop} (follows : h.Follows h' calm) (imp : calm' → calm) :
    h.Follows h' calm' := by
  obtain ⟨events, same, along⟩ := follows
  exact ⟨events, same, fun hc => along (imp hc)⟩

/-! ### Letting a replica run -/

theorem replica?_acted {p : Place} {r : Replica} (hr : h.replica? p = some r) (run : Run) :
    (h.acted p run).replica? p = some run.replica := by
  cases p with
  | table id => exact SortedMap.find?_insert_self _ id run.replica
  | leaving i | detached i =>
    obtain ⟨hlt, -⟩ := List.getElem?_eq_some_iff.mp hr
    exact List.getElem?_set_self hlt

/-- Of two acts in a row only the outcome of the second is put back. -/
theorem acted_acted (h : Hosting) (p : Place) (run run' : Run) :
    (h.acted p run).acted p run' = h.acted p run' := by
  cases p <;> simp [acted, putBack, HostRun.modifyTable, SortedMap.insert_insert]

/-- A replica that is put back as it was changes nothing. -/
theorem acted_self {p : Place} {r : Replica} (hr : h.replica? p = some r) :
    h.acted p (h.surrounded r) = h := by
  cases p with
  | table id =>
    have same : h.run.host.replicas.insert id r = h.run.host.replicas :=
      SortedMap.insert_of_find? hr
    simp [acted, surrounded, putBack, HostRun.modifyTable, same]
  | leaving i =>
    have same : h.leaving.set i r = h.leaving := by
      obtain ⟨hlt, rfl⟩ := List.getElem?_eq_some_iff.mp hr
      exact List.set_getElem_self hlt
    simp [acted, surrounded, putBack, same]
  | detached i =>
    have same : h.run.host.detached.set i r = h.run.host.detached := by
      obtain ⟨hlt, rfl⟩ := List.getElem?_eq_some_iff.mp hr
      exact List.set_getElem_self hlt
    simp [acted, surrounded, putBack, same]

/-- Acts in a row are one act. -/
theorem act_act (h : Hosting) (p : Place) (f g : Run → Run) :
    (h.act p f).act p g = h.act p (g ∘ f) := by
  cases hr : h.replica? p with
  | none => simp [act, hr]
  | some r =>
    obtain ⟨site, commons⟩ := h.surroundings_acted p (f (h.surrounded r))
    rw [act_of_some hr, act_of_some hr, act_of_some (replica?_acted hr _),
      acted_acted, surrounded, site, commons]
    rfl

/-- Any number of steps are a run. -/
theorem follows_steps (h : Hosting) (p : Place) (n : Nat) :
    h.Follows (h.act p Run.step^[n]) calm := by
  induction n with
  | zero =>
    have same : h.act p Run.step^[0] = h := by
      cases hr : h.replica? p with
      | none => exact act_of_none hr _
      | some r => exact (act_of_some hr _).trans (acted_self hr)
    rw [same]
    exact .refl h
  | succ n ih =>
    refine ih.trans ?_
    rw [Function.iterate_succ', ← act_act]
    exact .of_event (.step p) fun _ => trivial

/-- A replica that is settled took some steps. -/
theorem settle_eq_iterate (run : Run) : ∃ n, run.settle = Run.step^[n] run := by
  have within : ∀ fuel (run : Run), ∃ n, run.settleWithin fuel = Run.step^[n] run := by
    intro fuel
    induction fuel with
    | zero => exact fun _ => ⟨0, rfl⟩
    | succ fuel ih =>
      intro run
      unfold Run.settleWithin
      split
      · exact ⟨0, rfl⟩
      · obtain ⟨n, hn⟩ := ih run.step
        exact ⟨n + 1, hn⟩
  exact within _ run

theorem follows_settle (h : Hosting) (p : Place) : h.Follows (h.act p Run.settle) calm := by
  cases hr : h.replica? p with
  | none =>
    rw [act_of_none hr]
    exact .refl h
  | some r =>
    obtain ⟨n, hn⟩ := settle_eq_iterate (h.surrounded r)
    rw [act_of_some hr, hn, ← act_of_some hr]
    exact h.follows_steps p n

/-! ### Sending commands -/

/-- A replica with a full queue runs first. -/
def withRoom (run : Run) : Run :=
  if HostRun.queueCapacity ≤ run.replica.inbox.length then run.settle else run

theorem deliver_eq (s : HostRun) (r : Replica) (c : Command) : s.deliver r c =
    ((delivered c (withRoom ⟨r, s.host.site, s.commons⟩)).replica,
      ⟨{ s.host with site := (delivered c (withRoom ⟨r, s.host.site, s.commons⟩)).site },
        (delivered c (withRoom ⟨r, s.host.site, s.commons⟩)).commons⟩) := by
  unfold HostRun.deliver HostRun.runReplica withRoom delivered
  dsimp only
  split <;> dsimp only <;> split <;> rfl

theorem follows_withRoom (h : Hosting) (p : Place) : h.Follows (h.act p withRoom) calm := by
  cases hr : h.replica? p with
  | none =>
    rw [act_of_none hr]
    exact .refl h
  | some r =>
    rw [act_of_some hr]
    unfold withRoom
    split
    · rw [← act_of_some hr]
      exact h.follows_settle p
    · rw [acted_self hr]
      exact .refl h

/-! ### Waiting for replicas -/

theorem join_cases (s : HostRun) (r : Replica) :
    ((s.join r).1 = .ok () ∨ (s.join r).1 = .error .join) ∧
      (s.join r).2.host.replicas = s.host.replicas := by
  unfold HostRun.join
  rw [deliver_eq]
  refine ⟨?_, rfl⟩
  dsimp only
  split
  · exact .inl rfl
  · exact .inr rfl

/-- A call that waits for a replica tells it to stop and lets it run. -/
theorem follows_join (s : HostRun) (r : Replica) (rest : List Replica) :
    Follows ⟨s, r :: rest⟩ ⟨(s.join r).2, rest⟩ ((s.join r).1 = .ok ()) := by
  let told := delivered .stop (withRoom ⟨r, s.host.site, s.commons⟩)
  let waited : Hosting :=
    ⟨⟨{ s.host with site := told.settle.site }, told.settle.commons⟩, told.settle.replica :: rest⟩
  have ran : Follows ⟨s, r :: rest⟩ waited ((s.join r).1 = .ok ()) := by
    refine (follows_withRoom _ (.leaving 0)).trans ?_
    refine (Follows.of_event (.tell 0 .stop) fun _ => trivial).trans ?_
    exact follows_settle _ (.leaving 0)
  refine ran.trans ?_
  have counted : waited.happen (.await 0) = ⟨(s.join r).2, rest⟩ := by
    unfold HostRun.join
    rw [deliver_eq]
    rfl
  rw [← counted]
  refine Follows.of_event (.await 0) fun joined r' hr' => ?_
  cases hr'
  unfold HostRun.join at joined
  rw [deliver_eq] at joined
  dsimp only at joined
  split at joined
  · assumption
  · cases joined

/-- A host lets go some replicas that nobody waits for any more. -/
def letGo (s : HostRun) (left : List Replica) : HostRun :=
  let gone := left.map fun r => { r with connected := false }
  { s with host := { s.host with detached := s.host.detached ++ gone } }

theorem follows_letGo (s : HostRun) (left : List Replica) :
    Follows ⟨s, left⟩ ⟨letGo s left, []⟩ False := by
  induction left generalizing s with
  | nil =>
    have same : letGo s [] = s := by simp [letGo]
    rw [same]
    exact .refl _
  | cons r rest ih =>
    have one : letGo s (r :: rest) = letGo (letGo s [r]) rest := by simp [letGo]
    rw [one]
    exact (Follows.of_event (.release 0) False.elim).trans (ih _)

theorem joinAll_of_ok {s : HostRun} {r : Replica} (rest : List Replica)
    (h : (s.join r).1 = .ok ()) :
    s.joinAll (r :: rest) = (s.join r).2.joinAll rest := by
  rw [HostRun.joinAll]
  split
  · rename_i joined
    rw [joined]
  · rename_i joined
    rw [joined] at h
    cases h

theorem joinAll_of_error {s : HostRun} {r : Replica} (rest : List Replica) {e : IngestionError}
    (h : (s.join r).1 = .error e) :
    s.joinAll (r :: rest) = (.error e, letGo (s.join r).2 rest) := by
  rw [HostRun.joinAll]
  split
  · rename_i joined
    rw [joined] at h
    cases h
  · rename_i joined
    rw [joined] at h ⊢
    cases h
    rfl

theorem joinAll_cases (s : HostRun) (left : List Replica) :
    (s.joinAll left).1 = .ok () ∨ (s.joinAll left).1 = .error .join := by
  induction left generalizing s with
  | nil => exact .inl rfl
  | cons r rest ih =>
    rcases (join_cases s r).1 with joined | failed
    · rw [joinAll_of_ok rest joined]
      exact ih _
    · rw [joinAll_of_error rest failed]
      exact .inr rfl

theorem follows_joinAll (s : HostRun) (left : List Replica) :
    Follows ⟨s, left⟩ ⟨(s.joinAll left).2, []⟩ ((s.joinAll left).1 = .ok ()) := by
  induction left generalizing s with
  | nil => exact .refl _
  | cons r rest ih =>
    have first := follows_join s r rest
    rcases (join_cases s r).1 with joined | failed
    · rw [joinAll_of_ok rest joined]
      exact (first.of_imp fun _ => joined).trans (ih _)
    · rw [joinAll_of_error rest failed]
      exact (first.of_imp fun h => by cases h).trans
        ((follows_letGo _ rest).of_imp fun h => by cases h)

/-! ### The calls -/

/-- A call. -/
inductive Call where
  | start (id : ReplicaId) (settings : VersionSettings) (role : Role)
  | stop (id : ReplicaId)
  | changeRole (id : ReplicaId) (role : Role)
  | shutdown

/-- Make a call in one go. -/
def Call.make (s : HostRun) : Call → Except IngestionError Unit × HostRun
  | .start id settings role => s.start id settings role
  | .stop id => s.stop id
  | .changeRole id role => (.ok (), s.changeRole id role)
  | .shutdown => s.shutdown

theorem follows_launch {s : HostRun} {id : ReplicaId} (settings : VersionSettings) (role : Role)
    (h : s.host.replicas.find? id = none) :
    Follows ⟨s, []⟩ ⟨s.launch id settings role, []⟩ calm := by
  have launched : Hosting.happen ⟨s, []⟩ (.launch id settings role) =
      ⟨s.launch id settings role, []⟩ := by
    have absent : s.host.replicas.contains id = false := by rw [SortedMap.contains, h]; rfl
    exact if_neg (by simp [table, absent])
  rw [← launched]
  exact .of_event _ fun _ => trivial

/-- A replica is taken out of the table and waited for. -/
theorem follows_dismiss {s : HostRun} {id : ReplicaId} {r : Replica}
    (h : s.host.replicas.find? id = some r) :
    Follows ⟨s, []⟩ ⟨((s.modifyTable (·.erase id)).join r).2, []⟩
      (((s.modifyTable (·.erase id)).join r).1 = .ok ()) := by
  have dismissed : Hosting.happen ⟨s, []⟩ (.dismiss id) = ⟨s.modifyTable (·.erase id), [r]⟩ := by
    simp [happen, table, h]
  refine (Follows.of_event (.dismiss id) fun _ => trivial).trans ?_
  rw [dismissed]
  exact follows_join _ r []

theorem follows_start (s : HostRun) (id : ReplicaId) (settings : VersionSettings) (role : Role) :
    Follows ⟨s, []⟩ ⟨(s.start id settings role).2, []⟩
      ((s.start id settings role).1 ≠ .error .join) := by
  unfold HostRun.start
  split
  · exact .refl _
  · split
    · rename_i h
      exact follows_launch settings role h
    · rename_i r h
      split
      · exact .refl _
      · have first := follows_dismiss h
        have table := (join_cases (s.modifyTable (·.erase id)) r).2
        rcases (join_cases (s.modifyTable (·.erase id)) r).1 with joined | failed
        · split
          · rename_i s' answer
            rw [answer] at first table
            have absent : s'.host.replicas.find? id = none :=
              (congrArg (·.find? id) table).trans (SortedMap.find?_erase_self _ id)
            exact (first.of_imp fun _ => rfl).trans (follows_launch settings role absent)
          · rename_i answer
            rw [answer] at joined
            cases joined
        · split
          · rename_i answer
            rw [answer] at failed
            cases failed
          · rename_i answer
            rw [answer] at first failed
            cases failed
            exact first.of_imp fun h => absurd rfl h

theorem follows_stop (s : HostRun) (id : ReplicaId) :
    Follows ⟨s, []⟩ ⟨(s.stop id).2, []⟩ ((s.stop id).1 ≠ .error .join) := by
  unfold HostRun.stop
  split
  · exact .refl _
  · rename_i r h
    exact (follows_dismiss h).of_imp ((join_cases _ r).1.resolve_right)

theorem follows_changeRole (s : HostRun) (id : ReplicaId) (role : Role) :
    Follows ⟨s, []⟩ ⟨s.changeRole id role, []⟩ calm := by
  unfold HostRun.changeRole
  dsimp only
  split
  · exact .of_event (.miss id) fun _ => trivial
  · rename_i r h
    have held : Hosting.replica? ⟨s, []⟩ (.table id) = some r := h
    have sent : Follows ⟨s, []⟩
        (Hosting.act ⟨s, []⟩ (.table id) (delivered (.changeRole role) ∘ withRoom)) calm := by
      rw [← act_act]
      exact (follows_withRoom _ _).trans (.of_event (.steer id role) fun _ => trivial)
    rw [act_of_some held] at sent
    rw [deliver_eq]
    dsimp only
    split
    · exact sent.trans (.of_event (.miss id) fun _ => trivial)
    · exact sent

theorem follows_shutdown (s : HostRun) :
    Follows ⟨s, []⟩ ⟨s.shutdown.2, []⟩ (s.shutdown.1 ≠ .error .join) := by
  have drained : Hosting.happen ⟨s, []⟩ .drain =
      ⟨s.modifyTable fun _ => SortedMap.empty, s.host.replicas.values⟩ := by
    simp [happen, table]
  refine (Follows.of_event .drain fun _ => trivial).trans ?_
  rw [drained]
  exact (follows_joinAll _ _).of_imp (joinAll_cases _ _).resolve_right

/-- A call that is made in one go is a run. If it answers that nobody failed to stop, it is a calm
one. -/
theorem make_follows (s : HostRun) (c : Call) :
    Follows ⟨s, []⟩ ⟨(c.make s).2, []⟩ ((c.make s).1 ≠ .error .join) := by
  cases c with
  | start id settings role => exact follows_start s id settings role
  | stop id => exact follows_stop s id
  | changeRole id role => exact follows_changeRole s id role
  | shutdown => exact follows_shutdown s

end Hosting

end StoreFeed
