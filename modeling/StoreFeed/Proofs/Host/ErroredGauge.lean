import Mathlib.Data.List.Induction
import StoreFeed.Proofs.Cluster.Events
import StoreFeed.Proofs.Host.Events
import StoreFeed.Proofs.Replica.Books
import StoreFeed.Proofs.Replica.ErrorPolicy

/-!
# What the errored gauge tells

The gauge of a version is one cell for all its partitions. A replica that halts raises it, and a
replica that is started lowers it again, whichever partition it is of. So the gauge reads 1 exactly
as long as no replica of the version was started since one of them was last halted
(`Hosting.errored_gauge`), and where another one is in error all the same, it reads 0
(`Hosting.unreported_secondPartition`).
-/

namespace StoreFeed

namespace Run

variable {a : Run} {g : Course}

/-- Who reads and writes no more does not start again. -/
theorem Does.isOver (h : a.Does g) (ended : a.replica.phase.isOver = true) :
    g.feed.phase.isOver = true := by
  have other : ∀ {p : Phase} {P : Prop}, a.replica.phase = p → p.isOver = false → P := by
    intro p P hp live
    rw [hp, live] at ended
    cases ended
  cases h with
  | rest phase => exact phase
  | drift f paused like phase => exact other rfl (Phase.live_of_isFree phase)
  | restore _ _ phase | poll _ _ _ phase | look _ _ phase | merge _ _ _ phase | openTopic _ _ phase
  | publish _ _ _ _ phase | mark _ _ _ phase | pass _ _ _ phase | store _ _ _ _ phase
  | startOver _ _ _ phase | commit _ phase | commitAgain _ _ _ phase | obey _ phase =>
    exact other phase rfl
  | halt => rfl
  | wait phase =>
    obtain ⟨_, p, hp, h⟩ := a.course.waited_eq
    rw [h]
    rcases hp with rfl | rfl
    · exact ended
    · rfl
  | detach _ _ phase => exact ended
  | retire => rfl

/-- Only a halted replica, or one that reads and writes no more, has raised its flag. -/
theorem Goes.isOver_of_errored (h : a.Goes g)
    (ends : a.replica.errored = true → a.replica.phase.isOver = true) (raised : g.errored = true) :
    g.feed.phase.isOver = true := by
  have does : ∀ {g : Course}, a.Does g → g.errored = true → g.feed.phase.isOver = true := by
    intro g does raised
    rcases does.errored with same | ⟨-, rfl⟩
    · exact does.isOver (ends (same.symm.trans raised))
    · rfl
  cases h with
  | rest => exact ends raised
  | wake =>
    obtain ⟨_, _, _, p, hp, h⟩ := a.course.woken_eq
    rw [h] at raised ⊢
    rcases hp with rfl | rfl
    · exact ends raised
    · rfl
  | act awake h => exact does h raised
  | breakOff awake breaks => cases breaks <;> rfl

end Run

namespace Hosting

/-! ## What moves the flags -/

/-- A replica of a version halts. -/
def Halts (h : Hosting) (e : Event) (store : String) (version : UInt32) : Prop :=
  ∃ p r, e = .step p ∧ h.replica? p = some r ∧ r.id.store = store ∧ r.id.version = version ∧
    r.errored = false ∧ (h.surrounded r).step.replica.errored = true

/-- A replica of a version is started. -/
def Starts (h : Hosting) (e : Event) (store : String) (version : UInt32) : Prop :=
  ∃ id settings role, e = .launch id settings role ∧ h.table.contains id = false ∧
    id.store = store ∧
    id.version = version

/-- What holds of every replica of a host and its statistics. -/
structure Watched (h : Hosting) : Prop where
  sound : h.stats.Sound
  /-- The version of a replica has a gauge. -/
  known : ∀ r ∈ h.members, (h.stats.flag? ⟨r.id.store, .version r.id.version⟩).isSome = true
  ends : ∀ r ∈ h.members, r.errored = true → r.phase.isOver = true
  shown : ∀ r ∈ h.members, r.state = .error → r.errored = true
  /-- A replica is in the table under its own name. -/
  named : ∀ id r, h.table.find? id = some r → r.id = id

variable {h : Hosting}

theorem watched_opened (settings : HostSettings) (commons : Commons) :
    (opened settings commons).Watched where
  sound := Stats.Aggregator.sound_create _
  known r hr := by cases hr
  ends r hr := by cases hr
  shown r hr := by cases hr
  named id r hr := by cases hr

/-- What a step of one of the replicas leads to. -/
theorem Watched.accounts (w : h.Watched) (r : Replica) :
    (h.surrounded r).Accounts (h.surrounded r).step :=
  Run.step_accounts w.sound

/-- Every flag of a host once a replica is put into the table. -/
theorem Watched.flag?_launched (w : h.Watched) (id : ReplicaId) (profile : ReplicaProfile)
    (key : Stats.ScopeKey) :
    ((h.stats.register h.run.commons.now id.store id.version profile).setErrored id.store id.version
      false).flag? key =
      if key = ⟨id.store, .version id.version⟩ then some false
      else if Stats.Registry.Covers id.store id.version key then
        some ((h.stats.flag? key).getD false)
      else h.stats.flag? key := by
  rw [(w.sound.register _ _ _ _).flag?_setErrored, w.sound.flag?_register]
  split
  · rename_i same
    rw [if_pos (.inr same)]
    rfl
  · rfl

namespace Watched

theorem sound_happen (w : h.Watched) (e : Event) : (h.happen e).stats.Sound := by
  cases h.fate e with
  | quiet members metrics sound => exact sound w.sound
  | tells r r' others members members' metrics stats => exact stats ▸ w.sound
  | steps p r others event held members members' metrics stats => exact stats ▸ (w.accounts r).sound
  | launches id settings role event absent members metrics stats =>
    exact stats ▸ (w.sound.register _ _ _ _).modifyHeld _ _
  | joins i r event held members metrics stats => exact stats ▸ w.sound

/-- No flag is lost. -/
theorem isSome_flag?_happen (w : h.Watched) (e : Event) {key : Stats.ScopeKey}
    (known : (h.stats.flag? key).isSome = true) : ((h.happen e).stats.flag? key).isSome = true := by
  cases h.fate e with
  | quiet members metrics sound stats =>
    rw [Stats.Aggregator.flag?_congr (stats w.sound key)]
    exact known
  | tells r r' others members members' metrics stats =>
    rw [stats]
    exact known
  | steps p r others event held members members' metrics stats =>
    rw [stats, (w.accounts r).isSome_flag?]
    exact known
  | launches id settings role event absent members metrics stats =>
    rw [stats, w.flag?_launched]
    split
    · rfl
    · split
      · rfl
      · exact known
  | joins i r event held members metrics stats =>
    rw [stats]
    exact known

theorem happen (w : h.Watched) (e : Event) : (h.happen e).Watched where
  sound := w.sound_happen e
  known := by
    refine forall_members_happen w.known (fun r _ _ known => w.isSome_flag?_happen e known)
      (fun r _ known => ?_) fun id settings role stats => ?_
    · rw [(w.accounts r).id]
      exact w.isSome_flag?_happen e known
    · rw [stats, w.flag?_launched]
      exact congrArg Option.isSome (if_pos rfl)
  ends := forall_members_happen w.ends (fun _ _ _ ends => ends)
    (fun r _ ends => (h.surrounded r).step_goes.isOver_of_errored ends) fun _ _ _ _ raised => by
      cases raised
  shown := forall_members_happen w.shown (fun _ _ _ shown => shown)
    (fun r _ shown => (w.accounts r).errored_of_error shown) fun _ _ _ _ error => by cases error
  named id r hr := by
    cases tableFate hr with
    | stays before => exact w.named id r before
    | steers r' role before now =>
      rw [now]
      exact w.named id r' before
    | steps r' before event now =>
      rw [now]
      exact (w.accounts r').id.trans (w.named id r' before)
    | starts settings role event absent now =>
      rw [now]
      rfl

/-- A step raises the flag of the version as the replica halts, and does nothing else to flags. -/
theorem flag?_step (w : h.Watched) {p : Place} {r : Replica} (held : h.replica? p = some r)
    (mem : r ∈ h.members) (store : String) (version : UInt32) :
    h.Halts (.step p) store version ∧
        (h.happen (.step p)).stats.flag? ⟨store, .version version⟩ = some true ∨
      ¬ h.Halts (.step p) store version ∧
        (h.happen (.step p)).stats.flag? ⟨store, .version version⟩ =
          h.stats.flag? ⟨store, .version version⟩ := by
  have stats : (h.happen (.step p)).stats = (h.surrounded r).step.site.stats := by
    show (h.act p Run.step).stats = _
    rw [act_of_some held]
    exact congrArg (·.stats) (h.surroundings_acted p _).1
  have quiet : (h.surrounded r).step.replica.errored = r.errored →
      ¬ h.Halts (.step p) store version := by
    rintro same ⟨p', r', event, held', -, -, fine, raised⟩
    cases event
    cases held.symm.trans held'
    rw [same, fine] at raised
    cases raised
  rw [stats]
  cases w.accounts r with
  | keeps keeps => exact .inr ⟨quiet keeps.errored, keeps.flags _⟩
  | retires retires => exact .inr ⟨quiet retires.errored, retires.flags _⟩
  | alarms live alarms =>
    have fine : r.errored = false := by
      cases raised : r.errored with
      | false => rfl
      | true =>
        have ended := w.ends r mem raised
        exact ended.symm.trans live
    rw [alarms.flags]
    by_cases own : r.id.store = store ∧ r.id.version = version
    · obtain ⟨rfl, rfl⟩ := own
      refine .inl ⟨⟨p, r, rfl, held, rfl, rfl, fine, alarms.raised⟩, ?_⟩
      obtain ⟨raised, known⟩ := Option.isSome_iff_exists.mp (w.known r mem)
      exact (if_pos rfl).trans (congrArg (Option.map fun _ => true) known)
    · refine .inr ⟨?_, if_neg fun same => own ?_⟩
      · rintro ⟨p', r', event, held', hs, hv, -, -⟩
        cases event
        cases held.symm.trans held'
        exact own ⟨hs, hv⟩
      · cases same
        exact ⟨rfl, rfl⟩

/-- Flags change only as replicas take steps and are started. -/
theorem flag?_aside (w : h.Watched) {e : Event} (step : ∀ p, e ≠ .step p)
    (launch : ∀ id settings role, e ≠ .launch id settings role)
    (store : String) (version : UInt32) :
    ¬ h.Starts e store version ∧ ¬ h.Halts e store version ∧
      (h.happen e).stats.flag? ⟨store, .version version⟩ =
        h.stats.flag? ⟨store, .version version⟩ := by
  refine ⟨fun ⟨id, settings, role, event, _⟩ => launch id settings role event,
    fun ⟨p, r, event, _⟩ => step p event, ?_⟩
  cases h.fate e with
  | quiet members metrics sound stats reporters =>
    exact Stats.Aggregator.flag?_congr (stats w.sound _)
  | tells r r' others members members' metrics stats same => rw [stats]
  | steps p r others event held members members' metrics stats => exact absurd event (step p)
  | launches id settings role event absent members metrics stats =>
    exact absurd event (launch _ _ _)
  | joins i r event held members metrics stats => rw [stats]

/-- A replica of the version is started, one halts, or the flag stays. -/
theorem flag?_happen (w : h.Watched) (e : Event) (store : String) (version : UInt32) :
    h.Starts e store version ∧ (h.happen e).stats.flag? ⟨store, .version version⟩ = some false ∨
      h.Halts e store version ∧ (h.happen e).stats.flag? ⟨store, .version version⟩ = some true ∨
      ¬ h.Starts e store version ∧ ¬ h.Halts e store version ∧
        (h.happen e).stats.flag? ⟨store, .version version⟩ =
          h.stats.flag? ⟨store, .version version⟩ := by
  cases e with
  | step p =>
    have unstarted : ¬ h.Starts (.step p) store version := fun ⟨_, _, _, event, _⟩ =>
      Event.noConfusion event
    cases held : h.replica? p with
    | none =>
      refine .inr (.inr ⟨unstarted, ?_, ?_⟩)
      · rintro ⟨p', r, event, held', -⟩
        cases event
        cases held.symm.trans held'
      · show (h.act p Run.step).stats.flag? _ = _
        rw [act_of_none held]
    | some r =>
      obtain ⟨others, apart, -⟩ := members_acted held
      have mem : r ∈ h.members := apart.mem_iff.mpr (List.mem_cons_self ..)
      exact .inr ((w.flag?_step held mem store version).imp_right fun same => ⟨unstarted, same⟩)
  | launch id settings role =>
    have unhalted : ¬ h.Halts (.launch id settings role) store version := fun ⟨_, _, event, _⟩ =>
      Event.noConfusion event
    cases absent : h.table.contains id with
    | true =>
      have same : h.happen (.launch id settings role) = h := if_pos absent
      refine .inr (.inr ⟨?_, unhalted, by rw [same]⟩)
      rintro ⟨id', settings', role', event, absent', -⟩
      cases event
      cases absent.symm.trans absent'
    | false =>
      have started : h.happen (.launch id settings role) =
          { h with run := h.run.launch id settings role } := if_neg (by simp [absent])
      have flag := w.flag?_launched id settings.profile ⟨store, .version version⟩
      by_cases own : id.store = store ∧ id.version = version
      · obtain ⟨rfl, rfl⟩ := own
        rw [started]
        exact .inl ⟨⟨id, settings, role, rfl, absent, rfl, rfl⟩, flag.trans (if_pos rfl)⟩
      · -- The flag in question is neither in the cell of what starts nor in that of its store.
        have other : (⟨store, .version version⟩ : Stats.ScopeKey) ≠
            ⟨id.store, .version id.version⟩ :=
          fun same => own (by cases same; exact ⟨rfl, rfl⟩)
        refine .inr (.inr ⟨?_, unhalted, ?_⟩)
        · rintro ⟨id', settings', role', event, -, hs, hv⟩
          cases event
          exact own ⟨hs, hv⟩
        · rw [started]
          refine (flag.trans (if_neg other)).trans (if_neg ?_)
          rintro (total | same)
          · cases total
          · exact other same
  | _ =>
    exact .inr (.inr (w.flag?_aside (fun _ => Event.noConfusion)
      (fun _ _ _ => Event.noConfusion) _ _))

end Watched

/-! ## Runs -/

/-- Something holds of an event of a run and the host it happens at. -/
def At (P : Hosting → Event → Prop) (h : Hosting) (events : List Event) (n : Nat) : Prop :=
  ∃ e, events[n]? = some e ∧ P (h.after (events.take n)) e

theorem At.lt {P : Hosting → Event → Prop} {events : List Event} {n : Nat}
    (found : h.At P events n) :
    n < events.length := by
  obtain ⟨e, he, -⟩ := found
  exact (List.getElem?_eq_some_iff.mp he).1

/-- Of a run that is one event longer. -/
theorem at_concat {P : Hosting → Event → Prop} {events : List Event} {e : Event} {n : Nat} :
    h.At P (events ++ [e]) n ↔ h.At P events n ∨ n = events.length ∧ P (h.after events) e := by
  unfold At
  rcases Nat.lt_trichotomy n events.length with hn | rfl | hn
  · rw [List.getElem?_append_left hn, List.take_append_of_le_length (Nat.le_of_lt hn)]
    simp [Nat.ne_of_lt hn]
  · simp
  · have ended : (events ++ [e])[n]? = none := by
      rw [List.getElem?_eq_none_iff, List.length_append]
      exact hn
    have before : events[n]? = none := List.getElem?_eq_none_iff.mpr (Nat.le_of_lt hn)
    simp [ended, before, Nat.ne_of_gt hn]

variable (settings : HostSettings) (commons : Commons)

theorem watched_after (events : List Event) : ((opened settings commons).after events).Watched := by
  induction events using List.reverseRecOn with
  | nil => exact watched_opened settings commons
  | append_singleton events e ih =>
    rw [after_append]
    exact ih.happen e

/-- Nobody starts a replica of a version any more since one of its replicas halted. -/
def Alarmed (h : Hosting) (events : List Event) (store : String) (version : UInt32) : Prop :=
  ∃ n, h.At (fun h e => h.Halts e store version) events n ∧
    ∀ m, n < m → ¬ h.At (fun h e => h.Starts e store version) events m

/-- An event is no start and no halt at once. -/
theorem Starts.not_halts {e : Event} {store : String} {version : UInt32}
    (starts : h.Starts e store version) : ¬ h.Halts e store version := by
  obtain ⟨_, _, _, rfl, _⟩ := starts
  rintro ⟨_, _, event, _⟩
  cases event

theorem alarmed_concat {events : List Event} {e : Event} {store : String} {version : UInt32} :
    h.Alarmed (events ++ [e]) store version ↔ (h.after events).Halts e store version ∨
      ¬ (h.after events).Starts e store version ∧ h.Alarmed events store version := by
  constructor
  · rintro ⟨n, halts, last⟩
    have early : ∀ m, n < m → ¬ h.At (fun h e => h.Starts e store version) events m :=
      fun m hm starts =>
      last m hm (at_concat.mpr (.inl starts))
    rcases at_concat.mp halts with before | ⟨-, now⟩
    · exact .inr
        ⟨fun starts => last _ before.lt (at_concat.mpr (.inr ⟨rfl, starts⟩)), n, before, early⟩
    · exact .inl now
  · rintro (halts | ⟨unstarted, n, halts, last⟩)
    · refine ⟨events.length, at_concat.mpr (.inr ⟨rfl, halts⟩), fun m hm starts => ?_⟩
      rcases at_concat.mp starts with before | ⟨rfl, -⟩
      · exact Nat.lt_asymm hm before.lt
      · exact Nat.lt_irrefl _ hm
    · refine ⟨n, at_concat.mpr (.inl halts), fun m hm starts => ?_⟩
      rcases at_concat.mp starts with before | ⟨-, now⟩
      · exact last m hm before
      · exact unstarted now

/-- The flag of a version after a run. -/
theorem flag?_after (events : List Event) (store : String) (version : UInt32) :
    ((opened settings commons).after events).stats.flag? ⟨store, .version version⟩ = some true ↔
      (opened settings commons).Alarmed events store version := by
  induction events using List.reverseRecOn with
  | nil =>
    refine iff_of_false ?_ ?_
    · have none : (opened settings commons).stats.flag? ⟨store, .version version⟩ = none :=
        congrArg (Option.map _) (Stats.Aggregator.ledger?_create _ _)
      show (opened settings commons).stats.flag? _ ≠ _
      rw [none]
      exact fun h => by cases h
    · rintro ⟨n, halts, -⟩
      exact Nat.not_lt_zero n halts.lt
  | append_singleton events e ih =>
    rw [after_append, alarmed_concat]
    show (((opened settings commons).after events).happen e).stats.flag? _ = _ ↔ _
    rcases (watched_after settings commons events).flag?_happen e store version with
      ⟨starts, flag⟩ | ⟨halts, flag⟩ | ⟨unstarted, unhalted, flag⟩
    · rw [flag]
      exact iff_of_false (by simp) fun h => h.elim starts.not_halts fun h => h.1 starts
    · rw [flag]
      exact iff_of_true rfl (.inl halts)
    · rw [flag, ih]
      exact ⟨fun h => .inr ⟨unstarted, h⟩, fun h => h.elim (absurd · unhalted) (·.2)⟩

/-- Whoever of the table has raised its flag did so in a step of its own. -/
theorem halts_of_errored (events : List Event) {id : ReplicaId} {r : Replica}
    (held : ((opened settings commons).after events).table.find? id = some r)
    (raised : r.errored = true) :
    ∃ n, (opened settings commons).At
      (fun h e => e = .step (.table id) ∧ h.Halts e id.store id.version) events n := by
  induction events using List.reverseRecOn generalizing r with
  | nil => cases held
  | append_singleton events e ih =>
    have early : ∀ {r}, ((opened settings commons).after events).table.find? id = some r →
        r.errored = true → ∃ n, (opened settings commons).At
          (fun h e => e = .step (.table id) ∧ h.Halts e id.store id.version) (events ++ [e]) n := by
      intro r held raised
      obtain ⟨n, found⟩ := ih held raised
      exact ⟨n, at_concat.mpr (.inl found)⟩
    rw [after_append] at held
    cases tableFate held with
    | stays before => exact early before raised
    | steers r' role before now =>
      rw [now] at raised
      exact early before raised
    | steps r' before event now =>
      cases was : r'.errored with
      | true => exact early before was
      | false =>
        have name := (watched_after settings commons events).named id r' before
        refine ⟨events.length, at_concat.mpr (.inr ⟨rfl, event, .table id, r', event, before, ?_⟩)⟩
        rw [name, ← now]
        exact ⟨rfl, rfl, was, raised⟩
    | starts settings role event absent now =>
      rw [now] at raised
      cases raised

/-- Over every run of a host, in which calls and steps interleave in any way. The gauge of a version
reads 1 exactly if one of its replicas halted and none of them was started since. And a replica of
the table that is in error halted in a step of its own, so its gauge reads 1 as long as no replica
of its version is started. -/
theorem errored_gauge (events : List Event) :
    (∀ store version now, (((opened settings commons).after events).stats.readGauge now
        ⟨store, .version version⟩ "ingestion_task_errored_gauge").1 = some (.ok 1) ↔
          (opened settings commons).Alarmed events store version) ∧
      ∀ id r, ((opened settings commons).after events).table.find? id = some r → r.state = .error →
        ∃ n, (opened settings commons).At
            (fun h e => e = .step (.table id) ∧ h.Halts e id.store id.version) events n ∧
          ((∀ m, n < m → ¬ (opened settings commons).At
              (fun h e => h.Starts e id.store id.version) events m) →
            ∀ now, (((opened settings commons).after events).stats.readGauge now
              ⟨id.store, .version id.version⟩ "ingestion_task_errored_gauge").1 =
                some (.ok 1)) := by
  have watched := watched_after settings commons events
  have gauge : ∀ store version now, (((opened settings commons).after events).stats.readGauge now
      ⟨store, .version version⟩ "ingestion_task_errored_gauge").1 = some (.ok 1) ↔
        (opened settings commons).Alarmed events store version := by
    intro store version now
    rw [watched.sound.readGauge_errored, ← flag?_after, Option.map_eq_some_iff]
    have raised : ∀ flag : Bool, (.ok (if flag then 1 else 0) : Except Overflow Float) = .ok 1 ↔
        flag = true := by decide
    simp only [raised, exists_eq_right]
  refine ⟨gauge, fun id r held error => ?_⟩
  obtain ⟨n, found⟩ := halts_of_errored settings commons events held
    (watched.shown r (mem_members_of_table held) error)
  refine ⟨n, found, fun unstarted now => (gauge _ _ now).mpr ⟨n, ?_, unstarted⟩⟩
  obtain ⟨e, he, -, halts⟩ := found
  exact ⟨e, he, halts⟩

/-- A replica halts after the end of the push, as there is no space left. -/
def haltsAfterPush : List Event :=
  .around
      { Site.create .standard with
        faults := SortedMap.ofList [(.put, ⟨.storage "no space left", 0, none⟩)] }
      Cluster.startTime
      ((Log.empty.append Cluster.sampleId.versionTopic
        (Cluster.sampleRecord "k" (.control .endOfPush))).2.append Cluster.sampleId.versionTopic
          (Cluster.sampleRecord "l" (.put "1".toUTF8))).2 ::
    .launch Cluster.sampleId .standard .standby ::
    List.replicate 12 (.step (.table Cluster.sampleId))

theorem errored_gauge_haltsAfterPush :
    let h := (opened .standard Cluster.twoHosts.commons).after haltsAfterPush
    (h.table.find? Cluster.sampleId).map (·.state) = some .error ∧
      (h.stats.readGauge Cluster.startTime ⟨"s", .version 1⟩ "ingestion_task_errored_gauge").1 =
        some (.ok 1) := by
  have error : ((((opened .standard Cluster.twoHosts.commons).after haltsAfterPush).table.find?
      Cluster.sampleId).map (·.state)) = some .error := by decide +kernel
  refine ⟨error, ?_⟩
  obtain ⟨r, held, state⟩ := Option.map_eq_some_iff.mp error
  obtain ⟨n, ⟨e, he, rfl, -⟩, reads⟩ := (errored_gauge _ _ haltsAfterPush).2 _ r held state
  refine reads ?_ _
  rintro m hm ⟨_, hl, id, settings, role, rfl, -⟩
  -- The only start is the event before all steps.
  obtain ⟨n, rfl⟩ : ∃ n', n = n' + 1 := Nat.exists_eq_succ_of_ne_zero (by rintro rfl; cases he)
  obtain ⟨m, rfl⟩ : ∃ m', m = m' + 2 := ⟨m - 2, by omega⟩
  have among := List.mem_of_getElem? (show (List.replicate 12 _)[m]? = some _ from hl)
  cases List.eq_of_mem_replicate among

/-- Then another partition of the version is started. -/
def startsSecondPartition : List Event :=
  haltsAfterPush ++ [.launch { Cluster.sampleId with partition := 1 } .standard .standby]

/-- The start of one replica hides that another one is in error. -/
theorem unreported_secondPartition :
    let h := (opened .standard Cluster.twoHosts.commons).after startsSecondPartition
    h.leaving.length = 0 ∧ (h.table.find? Cluster.sampleId).map (·.state) = some .error ∧
      (h.stats.readGauge Cluster.startTime ⟨"s", .version 1⟩ "ingestion_task_errored_gauge").1 =
        some (.ok 0) := by
  refine ⟨by decide +kernel, by decide +kernel, ?_⟩
  have lowered :
      ((opened .standard Cluster.twoHosts.commons).after startsSecondPartition).stats.flag?
      ⟨"s", .version 1⟩ = some false := by decide +kernel
  rw [(watched_after _ _ _).sound.readGauge_errored, lowered]
  rfl

end Hosting

end StoreFeed
