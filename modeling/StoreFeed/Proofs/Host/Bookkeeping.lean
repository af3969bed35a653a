import StoreFeed.Proofs.Host.ErroredGauge
import StoreFeed.Proofs.Replica.Readiness
import StoreFeed.Proofs.Replica.Ways

/-!
# Counts, reports and the table

A replica is counted from its start until a call has waited for it, and reports from its first cycle
until it retires. Nobody retires unbidden (`Run.Goes.unbidden`), so as long as no call is in
progress the table holds exactly the replicas that are counted and report (`Hosting.bookkeeping`).
-/

namespace StoreFeed

/-! ## Nobody leaves unbidden -/

/-- In this phase a replica does not leave, and did not. -/
def Phase.Stays (p : Phase) : Prop := p ≠ .leaving ∧ p ≠ .stopped

theorem Phase.stays_of_live {p : Phase} (h : p.isOver = false) : p.Stays := by
  constructor <;> rintro rfl <;> cases h

theorem Phase.stays_killed : Phase.killed.Stays := ⟨Phase.noConfusion, Phase.noConfusion⟩

theorem Phase.stays_parked : Phase.parked.Stays := ⟨Phase.noConfusion, Phase.noConfusion⟩

namespace Course

/-- No stop has come to a replica, and it stays. -/
structure Unbidden (o : Course) : Prop where
  connected : o.connected = true
  goesOn : o.stopRequested = false
  unstopped : .stop ∉ o.inbox
  stays : o.feed.phase.Stays

variable {o : Course}

theorem Unbidden.hearsStop (u : o.Unbidden) : o.hearsStop = false := by
  rw [Course.hearsStop, u.goesOn, u.connected]
  rfl

/-- A pause ends by a change of role, or because its time has come. -/
theorem Unbidden.woken (u : o.Unbidden) : o.woken.Unbidden := by
  have roused : o.roused.Unbidden := by
    unfold roused
    split
    · rename_i c rest hi
      have unstopped := u.unstopped
      rw [hi, List.mem_cons, not_or] at unstopped
      cases c with
      | changeRole role => exact ⟨u.connected, u.goesOn, unstopped.2, u.stays⟩
      | stop => exact absurd rfl unstopped.1
    · exact ⟨u.connected, u.hearsStop, u.unstopped, u.stays⟩
  unfold Course.woken
  rw [if_neg (Bool.eq_false_iff.mp roused.goesOn)]
  exact roused

theorem Unbidden.waited (u : o.Unbidden) : o.waited.Unbidden := by
  have unstopped := u.unstopped
  unfold Course.waited
  split
  · rename_i rest hi
    rw [hi] at unstopped
    exact absurd (List.mem_cons_self ..) unstopped
  · rename_i role rest hi
    rw [hi, List.mem_cons, not_or] at unstopped
    exact ⟨u.connected, u.goesOn, unstopped.2, u.stays⟩
  · rw [if_neg (Bool.eq_false_iff.mp u.hearsStop)]
    exact u

theorem Unbidden.obeyed (u : o.Unbidden) (processed : Bool) : (o.obeyed processed).Unbidden := by
  have informed : o.informed.stopRequested = false := by
    rw [informed_eq]
    simp [u.goesOn, u.unstopped, u.connected]
  have steered : o.informed.steered.connected = o.informed.connected ∧
      o.informed.steered.stopRequested = o.informed.stopRequested ∧
      o.informed.steered.inbox = o.informed.inbox := by
    unfold Course.steered
    split <;> exact ⟨rfl, rfl, rfl⟩
  unfold Course.obeyed
  rw [if_neg (Bool.eq_false_iff.mp informed)]
  refine ⟨steered.1.trans ?_, steered.2.1.trans informed, ?_, Phase.stays_of_live rfl⟩
  · rw [informed_eq]
    exact u.connected
  · show .stop ∉ o.informed.steered.inbox
    rw [steered.2.2, informed_eq]
    exact List.not_mem_nil

end Course

namespace Run

variable {a b : Run} {g : Course}

theorem Does.unbidden (h : a.Does g) (u : a.course.Unbidden) : g.Unbidden := by
  -- Most of what a phase does leaves the commands alone.
  have on : ∀ {f : Feed} {paused errored : Bool}, f.phase.Stays →
      { a.course with feed := f, paused, errored }.Unbidden :=
    fun stays => ⟨u.connected, u.goesOn, u.unstopped, stays⟩
  have goesTo : ∀ {p : Phase}, p.isOver = false → (a.course.inPhase p).Unbidden :=
    fun live => ⟨u.connected, u.goesOn, u.unstopped, Phase.stays_of_live live⟩
  cases h with
  | rest => exact u
  | drift f paused like phase phase' => exact on (Phase.stays_of_live (Phase.live_of_isFree phase'))
  | poll consumer b batch => exact on (Phase.stays_of_live (Feed.isOver_nextPhase ..))
  | look w p phase stage looks =>
    have live : p.isOver = false := by
      cases looks with
      | put | delete => exact Feed.isOver_settled ..
      | update => rfl
    exact goesTo live
  | merge w u' value => exact goesTo (Feed.isOver_settled ..)
  | mark | pass | store => exact on (Phase.stays_of_live (Feed.isOver_nextPhase ..))
  | obey processed => exact u.obeyed processed
  | halt => exact on Phase.stays_parked
  | wait => exact u.waited
  | detach _ _ phase => exact absurd phase u.stays.1
  | retire phase => exact absurd phase u.stays.1
  | _ => exact on (Phase.stays_of_live rfl)

/-- A replica that no stop has come to stays. -/
theorem Goes.unbidden (h : a.Goes g) (u : a.course.Unbidden) : g.Unbidden := by
  have killed : ∀ {o : Course}, o.Unbidden → o.killed.Unbidden := fun u =>
    ⟨u.connected, u.goesOn, u.unstopped, Phase.stays_killed⟩
  cases h with
  | rest => exact u
  | wake => exact u.woken
  | act _ does => exact does.unbidden u
  | breakOff _ breaks =>
    cases breaks with
    | rest => exact killed u
    | done does => exact killed (does.unbidden u)
    | mark | store => exact ⟨u.connected, u.goesOn, u.unstopped, Phase.stays_killed⟩

end Run

/-! ## What a replica is counted as -/

namespace Replica

/-- Whether its task ended by itself. -/
def retired (r : Replica) : Bool :=
  match r.phase with
  | .stopped => true
  | _ => false

/-- Whether it is counted in a state. -/
def countsIn (s : ReplicaState) (r : Replica) : Bool := r.state = s && !r.retired

/-- Whether a report of a scope may be the replica's. -/
def Reports (r : Replica) (key : Stats.ScopeKey) (pk : Stats.PartitionKey) : Prop :=
  r.retired = false ∧ r.Owns key pk

theorem retired_iff {r : Replica} : r.retired = true ↔ r.phase = .stopped := by
  unfold retired
  cases r.phase <;> simp

theorem countsIn_of_retired {r : Replica} (h : r.phase = .stopped) (s : ReplicaState) :
    r.countsIn s = false := by
  rw [countsIn, retired_iff.mpr h]
  simp

theorem countsIn_eq_share {r : Replica} (h : r.phase ≠ .stopped) (s : ReplicaState) :
    (if r.countsIn s then 1 else 0) = r.share s := by
  have live : r.retired = false := Bool.eq_false_iff.mpr fun hr => h (retired_iff.mp hr)
  unfold countsIn share
  rw [live]
  simp

end Replica

/-- What a step comes to in counts and reports. -/
structure Run.Settles (a b : Run) : Prop where
  sound : b.site.stats.Sound
  id : b.replica.id = a.replica.id
  active : b.commons.metrics.active = a.commons.metrics.active
  balance : ∀ s, b.commons.metrics.inState s - (if b.replica.countsIn s then 1 else 0) =
    a.commons.metrics.inState s - if a.replica.countsIn s then 1 else 0
  reports : ∀ key pk, b.site.stats.Holds key pk →
    b.replica.Reports key pk ∨ a.site.stats.Holds key pk ∧ ¬ a.replica.Reports key pk
  reporters : ∀ key, b.site.stats.registry.reporter? key = a.site.stats.registry.reporter? key

namespace Run

variable {a b : Run}

theorem Books.settles (h : a.Books b) (live : a.replica.phase ≠ .stopped) : a.Settles b where
  sound := h.sound
  id := h.id
  active := h.active
  balance s := by
    rw [Replica.countsIn_eq_share live, Replica.countsIn_eq_share fun ended => live (h.runs ended)]
    exact h.balance s
  reports key pk held := by
    have own : a.replica.Owns key pk → b.replica.Reports key pk := by
      intro own
      refine ⟨Bool.eq_false_iff.mpr fun ended => live (h.runs (Replica.retired_iff.mp ended)), ?_⟩
      unfold Replica.Owns
      rw [h.id]
      exact own
    rcases h.reports key pk held with before | mine
    · by_cases mine : a.replica.Reports key pk
      · exact .inl (own mine.2)
      · exact .inr ⟨before, mine⟩
    · exact .inl (own mine)
  reporters := h.reporters

theorem Retires.settles (h : a.Retires b) (live : a.replica.phase ≠ .stopped) : a.Settles b where
  sound := h.sound
  id := h.id
  active := h.active
  balance s := by
    rw [Replica.countsIn_eq_share live, Replica.countsIn_of_retired h.stopped, h.balance s]
    simp
  reports key pk held := .inr ⟨(h.reports key pk held).1, fun mine =>
    (h.reports key pk held).2 mine.2⟩
  reporters := h.reporters

/-- What a step comes to in counts and reports. -/
theorem step_settles (sound : a.site.stats.Sound) : a.Settles a.step := by
  by_cases ended : a.replica.phase = .stopped
  · have same : a.step = a := step_of_isWaiting (by simp [isWaiting, Replica.isWaiting, ended])
    rw [same]
    have unreported : ∀ key pk, ¬ a.replica.Reports key pk := fun key pk mine => by
      cases mine.1.symm.trans (Replica.retired_iff.mpr ended)
    exact ⟨sound, rfl, rfl, fun _ => rfl, fun key pk held => .inr ⟨held, unreported key pk⟩,
      fun _ => rfl⟩
  · cases step_accounts sound with
    | keeps keeps => exact keeps.settles ended
    | alarms _ alarms => exact alarms.settles ended
    | retires retires => exact retires.settles ended

end Run

namespace Hosting

/-! ## What holds of all replicas -/

/-- The number of replicas that are counted in a state. -/
def countIn (s : ReplicaState) (all : List Replica) : Int := all.countP (Replica.countsIn s)

theorem countIn_cons (s : ReplicaState) (r : Replica) (others : List Replica) :
    countIn s (r :: others) = countIn s others + if r.countsIn s then 1 else 0 := by
  unfold countIn
  rw [List.countP_cons]
  split <;> simp

theorem countIn_perm (s : ReplicaState) {all all' : List Replica} (h : all.Perm all') :
    countIn s all = countIn s all' := congrArg Nat.cast (h.countP_eq _)

variable {h h' : Hosting}

/-- Whoever is started is counted, up to the end of the wait for it. -/
theorem active_happen (sound : h.stats.Sound) (e : Event) :
    (h.happen e).metrics.active - (h.happen e).members.length =
      h.metrics.active - h.members.length := by
  cases h.fate e with
  | quiet members metrics => rw [metrics, members.length_eq]
  | tells r r' others members members' metrics =>
    rw [metrics, members.length_eq, members'.length_eq]
    rfl
  | steps p r others event held members members' metrics =>
    have settles := Run.step_settles (a := h.surrounded r) sound
    rw [metrics, settles.active, members.length_eq, members'.length_eq]
    rfl
  | launches id settings role event absent members metrics =>
    rw [metrics, members.length_eq, List.length_cons]
    show h.metrics.active + 1 - _ = _
    omega
  | joins i r event held members metrics =>
    rw [metrics, members.length_eq, List.length_cons]
    show h.metrics.active - 1 - _ = _
    omega

/-- Every change of a state is counted, and so is the end of it. -/
theorem states_happen (sound : h.stats.Sound) {e : Event} (calm : h.Calm e) (s : ReplicaState) :
    (h.happen e).metrics.inState s - countIn s (h.happen e).members =
      h.metrics.inState s - countIn s h.members := by
  cases h.fate e with
  | quiet members metrics => rw [metrics, countIn_perm s members]
  | tells r r' others members members' metrics stats same =>
    obtain ⟨inbox, connected, rfl⟩ := same
    rw [metrics, countIn_perm s members, countIn_perm s members', countIn_cons, countIn_cons]
    rfl
  | steps p r others event held members members' metrics =>
    have balance := (Run.step_settles (a := h.surrounded r) sound).balance s
    rw [metrics, countIn_perm s members, countIn_perm s members', countIn_cons, countIn_cons]
    have same : (h.surrounded r).commons.metrics.inState s = h.metrics.inState s := rfl
    have same' : (h.surrounded r).replica.countsIn s = r.countsIn s := rfl
    rw [same, same'] at balance
    omega
  | launches id settings role event absent members metrics =>
    have entered : (h.happen e).metrics.inState s = h.metrics.inState s +
        if ReplicaState.notSubscribed = s then 1 else 0 := by
      rw [metrics]
      exact Metrics.ReplicaMetrics.inState_moveState ..
    have counted : (h.launched id settings role).countsIn s =
        decide (ReplicaState.notSubscribed = s) :=
      Bool.and_true _
    rw [entered, countIn_perm s members, countIn_cons, counted]
    simp only [decide_eq_true_eq]
    omega
  | joins i r event held members metrics =>
    subst event
    rw [metrics, countIn_perm s members, countIn_cons, Replica.countsIn_of_retired (calm r held)]
    exact congrArg (h.metrics.inState s - ·) (Int.add_zero _).symm

/-- Whatever is reported is reported by somebody. -/
def Accounted (h : Hosting) : Prop :=
  ∀ key pk, h.stats.Holds key pk → ∃ r ∈ h.members, r.Reports key pk

theorem Accounted.happen (accounted : h.Accounted) (sound : h.stats.Sound) {e : Event}
    (calm : h.Calm e) : (h.happen e).Accounted := by
  intro key pk held
  cases h.fate e with
  | quiet members metrics sound' stats =>
    rw [Stats.Aggregator.holds_congr (stats sound key)] at held
    obtain ⟨r, hr, mine⟩ := accounted key pk held
    exact ⟨r, members.mem_iff.mpr hr, mine⟩
  | tells r r' others members members' metrics stats same =>
    obtain ⟨inbox, connected, rfl⟩ := same
    rw [stats] at held
    obtain ⟨r'', hr, mine⟩ := accounted key pk held
    rcases List.mem_cons.mp (members.mem_iff.mp hr) with rfl | other
    · exact ⟨_, members'.mem_iff.mpr (List.mem_cons_self ..), mine⟩
    · exact ⟨r'', members'.mem_iff.mpr (List.mem_cons_of_mem _ other), mine⟩
  | steps p r others event place members members' metrics stats =>
    rw [stats] at held
    rcases (Run.step_settles (a := h.surrounded r) sound).reports key pk held with
      mine | ⟨held, other⟩
    · exact ⟨_, members'.mem_iff.mpr (List.mem_cons_self ..), mine⟩
    · obtain ⟨r', hr, mine⟩ := accounted key pk held
      rcases List.mem_cons.mp (members.mem_iff.mp hr) with rfl | apart
      · exact absurd mine other
      · exact ⟨r', members'.mem_iff.mpr (List.mem_cons_of_mem _ apart), mine⟩
  | launches id settings role event absent members metrics stats =>
    rw [stats, (sound.register _ _ _ _).holds_setErrored, sound.holds_register] at held
    obtain ⟨r, hr, mine⟩ := accounted key pk held
    exact ⟨r, members.mem_iff.mpr (List.mem_cons_of_mem _ hr), mine⟩
  | joins i r event place members metrics stats =>
    subst event
    rw [stats] at held
    obtain ⟨r', hr, mine⟩ := accounted key pk held
    rcases List.mem_cons.mp (members.mem_iff.mp hr) with rfl | apart
    · cases mine.1.symm.trans (Replica.retired_iff.mpr (calm _ place))
    · exact ⟨r', apart, mine⟩

/-- A gauge that is there stays there. -/
theorem offers_happen (sound : h.stats.Sound) (e : Event) {key : Stats.ScopeKey} {name : String}
    (offers : h.stats.Offers key name) : (h.happen e).stats.Offers key name := by
  obtain ⟨reporter, hr, gauge⟩ := offers
  cases h.fate e with
  | quiet members metrics sound' stats reporters =>
    exact ⟨reporter, (reporters key).trans hr, gauge⟩
  | tells r r' others members members' metrics stats =>
    rw [stats]
    exact ⟨reporter, hr, gauge⟩
  | steps p r others event held members members' metrics stats =>
    rw [stats]
    exact ⟨reporter, ((Run.step_settles (a := h.surrounded r) sound).reporters key).trans hr, gauge⟩
  | launches id settings role event absent members metrics stats =>
    rw [stats, Stats.Aggregator.offers_setErrored]
    exact sound.offers_register _ _ _ _ ⟨reporter, hr, gauge⟩
  | joins i r event held members metrics stats =>
    rw [stats]
    exact ⟨reporter, hr, gauge⟩

/-- The surroundings of a replica do not matter to how it is, nor does its queue. -/
theorem sound_surrounded {run : Run} (sound : run.outlook.Sound) (h : Hosting)
    {inbox : List Command}
    {connected : Bool} : (h.surrounded { run.replica with inbox, connected }).outlook.Sound :=
  ⟨sound.allows, sound.paused, sound.shows, sound.face, sound.shown⟩

/-- A replica is as its phase says, and its version has the gauges that it needs. -/
structure Known (h : Hosting) (r : Replica) : Prop where
  lively : (h.surrounded r).outlook.Sound
  gauged : ∀ key, Stats.Registry.Covers r.id.store r.id.version key → ∀ e,
    e ∈ Stats.IngestionStats.baseGauges ∨
      r.settings.isHybrid = true ∧ e ∈ Stats.IngestionStats.hybridGauges → h.stats.Offers key e.1

theorem known_happen (sound : h.stats.Sound) (known : ∀ r ∈ h.members, h.Known r) (e : Event) :
    ∀ r ∈ (h.happen e).members, (h.happen e).Known r := by
  refine forall_members_happen known (fun r inbox connected known => ?_) (fun r _ known => ?_)
    fun id settings role stats => ?_
  · exact ⟨sound_surrounded known.lively _,
      fun key covers g hg => offers_happen sound e (known.gauged key covers g hg)⟩
  · have steps := Run.step_stepsTo known.lively.killed_or_shows
    have id : (h.surrounded r).step.replica.id = r.id := steps.identity.1
    have settings : (h.surrounded r).step.replica.settings = r.settings := steps.identity.2
    refine ⟨sound_surrounded (steps.sound known.lively) _, fun key covers g hg => ?_⟩
    rw [id] at covers
    rw [settings] at hg
    exact offers_happen sound e (known.gauged key covers g hg)
  · refine ⟨Outlook.sound_create .., fun key covers g hg => ?_⟩
    rw [stats, Stats.Aggregator.offers_setErrored]
    exact sound.offers_registered _ covers hg

/-! ## What holds of the table -/

/-- The surroundings of a replica give it no commands. -/
theorem unbidden_surrounded {run : Run} (u : run.course.Unbidden) (h : Hosting) :
    (h.surrounded run.replica).course.Unbidden := ⟨u.connected, u.goesOn, u.unstopped, u.stays⟩

/-- No stop has come to a replica of the table. -/
theorem unbidden_happen (unbidden : ∀ id r, h.table.find? id = some r →
    (h.surrounded r).course.Unbidden)
    (e : Event) : ∀ id r, (h.happen e).table.find? id = some r →
      ((h.happen e).surrounded r).course.Unbidden := by
  intro id r hr
  cases tableFate hr with
  | stays before => exact unbidden_surrounded (unbidden id r before) _
  | steers r' role before now =>
    subst now
    have u := unbidden id r' before
    refine ⟨u.connected, u.goesOn, ?_, u.stays⟩
    have unstopped : .stop ∉ r'.inbox := u.unstopped
    show .stop ∉ r'.inbox ++ [.changeRole role]
    simpa using unstopped
  | steps r' before event now =>
    subst now
    exact unbidden_surrounded ((h.surrounded r').step_goes.unbidden (unbidden id r' before)) _
  | starts settings role event absent now =>
    subst now
    exact ⟨rfl, rfl, List.not_mem_nil, Phase.stays_of_live rfl⟩

/-- As long as every task ends by itself nobody is let go. -/
theorem detached_happen (none : h.run.host.detached = []) {e : Event} (calm : h.Calm e) :
    (h.happen e).run.host.detached = [] := by
  have acts : ∀ p f, (h.act p f).run.host.detached = [] := by
    intro p f
    cases held : h.replica? p with
    | none => rwa [act_of_none held]
    | some r =>
      rw [act_of_some held]
      cases p with
      | table | leaving => exact none
      | detached i =>
        have missing : h.run.host.detached[i]? = some r := held
        rw [none] at missing
        cases missing
  cases e with
  | step | steer | tell => exact acts _ _
  | launch =>
    dsimp only [happen]
    split
    · exact none
    · exact (detached_launch h _ _ _).trans none
  | dismiss | await =>
    dsimp only [happen]
    split <;> exact none
  | miss | drain | around => exact none
  | release => exact calm.elim

/-! ## Runs -/

/-- What holds of a host whose replicas all end by themselves. -/
structure Balanced (base : Metrics.ReplicaMetrics) (h : Hosting) : Prop where
  watched : h.Watched
  active : h.metrics.active - h.members.length = base.active
  states : ∀ s, h.metrics.inState s - countIn s h.members = base.inState s
  accounted : h.Accounted
  known : ∀ r ∈ h.members, h.Known r
  unbidden : ∀ id r, h.table.find? id = some r → (h.surrounded r).course.Unbidden
  detached : h.run.host.detached = []

variable {base : Metrics.ReplicaMetrics}

theorem balanced_opened (settings : HostSettings) (commons : Commons) :
    (opened settings commons).Balanced commons.metrics where
  watched := watched_opened settings commons
  active := Int.sub_zero _
  states _ := Int.sub_zero _
  accounted key pk held := by
    obtain ⟨l, hl, -⟩ := held
    cases (Stats.Aggregator.ledger?_create _ key).symm.trans hl
  known r hr := by cases hr
  unbidden id r hr := by cases hr
  detached := rfl

theorem Balanced.happen (b : h.Balanced base) {e : Event} (calm : h.Calm e) :
    (h.happen e).Balanced base where
  watched := b.watched.happen e
  active := (active_happen b.watched.sound e).trans b.active
  states s := (states_happen b.watched.sound calm s).trans (b.states s)
  accounted := b.accounted.happen b.watched.sound calm
  known := known_happen b.watched.sound b.known e
  unbidden := unbidden_happen b.unbidden e
  detached := detached_happen b.detached calm

/-- What comes of a host by calls, made in one go or taken apart, and by all else that happens, as
long as every task ends by itself. -/
inductive Reaches (h : Hosting) : Hosting → Prop where
  | refl : Reaches h h
  | event {h' : Hosting} (before : Reaches h h') (e : Event) (calm : h'.Calm e) :
      Reaches h (h'.happen e)
  | call {s : HostRun} (before : Reaches h ⟨s, []⟩) (c : Call)
      (fine : (c.make s).1 ≠ .error .join) :
      Reaches h ⟨(c.make s).2, []⟩

theorem Reaches.steps (reaches : h.Reaches h') (p : Place) (n : Nat) :
    h.Reaches (h'.after (List.replicate n (.step p))) := by
  induction n generalizing h' with
  | zero => exact reaches
  | succ n ih => exact ih (reaches.event (.step p) trivial)

theorem Reaches.follows (reaches : h.Reaches h') : h.Follows h' True := by
  induction reaches with
  | refl => exact .refl h
  | event before e calm ih => exact ih.trans (.of_event e fun _ => calm)
  | call before c fine ih => exact ih.trans ((make_follows _ c).of_imp fun _ => fine)

/-- What calm events keep. -/
theorem Reaches.induction {I : Hosting → Prop} (step : ∀ h e, I h → h.Calm e → I (h.happen e))
    (reaches : h.Reaches h') (init : I h) : I h' := by
  obtain ⟨events, rfl, along⟩ := reaches.follows
  exact after_induction step init (along trivial)

theorem Reaches.balanced (reaches : h.Reaches h') (b : h.Balanced base) : h'.Balanced base :=
  reaches.induction (fun _ _ b calm => b.happen calm) b

/-- A gauge that is there stays there. -/
theorem Reaches.offers (reaches : h.Reaches h') (b : h.Balanced base) {key : Stats.ScopeKey}
    {name : String} (offers : h.stats.Offers key name) : h'.stats.Offers key name := by
  refine (reaches.induction (I := fun h => h.Balanced base ∧ h.stats.Offers key name) ?_
    ⟨b, offers⟩).2
  exact fun h e ⟨b, offers⟩ calm => ⟨b.happen calm, offers_happen b.watched.sound e offers⟩

/-! ## Between calls -/

/-- Counts and reports are those of the table. -/
structure Agrees (base : Metrics.ReplicaMetrics) (h : Hosting) : Prop where
  active : h.metrics.active = base.active + h.table.values.length
  states : ∀ s, h.metrics.inState s = base.inState s + h.table.values.countP (·.state = s)
  /-- That is the state that a replica shows. -/
  shown : ∀ r ∈ h.table.values, r.phase ≠ .killed → r.status.state = r.state
  ofVersion : ∀ store version pk, h.stats.Holds ⟨store, .version version⟩ pk →
    pk.version = version ∧ h.table.contains ⟨store, version, pk.partition⟩ = true
  ofStore : ∀ store pk, h.stats.Holds ⟨store, .total⟩ pk →
    h.table.contains ⟨store, pk.version, pk.partition⟩ = true

namespace Balanced

/-- While nobody is waited for all replicas are in the table. -/
theorem members_eq (b : h.Balanced base) (idle : h.leaving = []) : h.members = h.table.values := by
  unfold members
  rw [idle, b.detached, List.append_nil, List.append_nil]

/-- Who reports is in the table. -/
theorem reports_of_holds (b : h.Balanced base) (idle : h.leaving = []) {key : Stats.ScopeKey}
    {pk : Stats.PartitionKey} (held : h.stats.Holds key pk) :
    ∃ id, h.table.contains id = true ∧ Stats.Registry.Covers id.store id.version key ∧
      pk = ⟨id.version, id.partition⟩ := by
  obtain ⟨r, hr, -, covers, own⟩ := b.accounted key pk held
  rw [b.members_eq idle] at hr
  obtain ⟨id, found⟩ := SortedMap.mem_values.mp hr
  rw [b.watched.named id r found] at covers own
  refine ⟨id, ?_, covers, own⟩
  rw [SortedMap.contains, found]
  rfl

theorem agrees (b : h.Balanced base) (idle : h.leaving = []) : h.Agrees base := by
  have members := b.members_eq idle
  have lively : ∀ r ∈ h.table.values, h.Known r := members ▸ b.known
  refine ⟨?_, fun s => ?_, fun r hr live => ?_, fun store version pk held => ?_,
    fun store pk held => ?_⟩
  · have active := b.active
    rw [members] at active
    omega
  · have states := b.states s
    have counted : countIn s h.members = h.table.values.countP (·.state = s) := by
      rw [members]
      refine congrArg Nat.cast (List.countP_congr fun r hr => ?_)
      obtain ⟨id, found⟩ := SortedMap.mem_values.mp hr
      have live : r.retired = false := Bool.eq_false_iff.mpr fun ended =>
        (b.unbidden id r found).stays.2 (Replica.retired_iff.mp ended)
      simp [Replica.countsIn, live]
    omega
  · exact congrArg Face.state ((lively r hr).lively.shows live)
  · obtain ⟨id, found, covers, rfl⟩ := b.reports_of_holds idle held
    rcases covers with same | same <;> cases same
    exact ⟨rfl, found⟩
  · obtain ⟨id, found, covers, rfl⟩ := b.reports_of_holds idle held
    rcases covers with same | same <;> cases same
    exact found

end Balanced

/-- A version that had a replica has its readiness gauges. -/
theorem Known.offers {r : Replica} (known : h.Known r) {key : Stats.ScopeKey}
    (covers : Stats.Registry.Covers r.id.store r.id.version key) {name : String}
    (readiness : name ∈ Stats.Aggregator.readinessGauges)
    (due : name = "write_compute_operation_failure" ∨ r.settings.isHybrid = true) :
    h.stats.Offers key name := by
  have base : ∀ e ∈ Stats.IngestionStats.baseGauges, h.stats.Offers key e.1 := fun e he =>
    known.gauged key covers e (.inl he)
  have hybrid : r.settings.isHybrid = true →
      ∀ e ∈ Stats.IngestionStats.hybridGauges, h.stats.Offers key e.1 := fun hs e he =>
    known.gauged key covers e (.inr ⟨hs, he⟩)
  fin_cases readiness
  · exact hybrid (due.resolve_left (by decide)) _ (.head _)
  · exact hybrid (due.resolve_left (by decide)) _ (.tail _ (.tail _ (.head _)))
  · exact base _ (.tail _ (.tail _ (.head _)))
  · exact hybrid (due.resolve_left (by decide)) _ (.tail _ (.tail _ (.tail _ (.head _))))

variable {settings : HostSettings} {commons : Commons}

/-- Over every sequence of calls in which no task ends otherwise than by itself, with steps of
replicas in between: while no call waits for anybody the counts grew by the replicas of the table,
and whoever has a report is there. So the readiness gauges of a version, or of a store, that had a
replica at some time read that nothing is ingested as soon as the table has none of it any more. -/
theorem bookkeeping (before : (opened settings commons).Reaches h) (after : h.Reaches h')
    (idle : h'.leaving = []) :
    h'.Agrees commons.metrics ∧
      ∀ id r, h.table.find? id = some r → ∀ key, Stats.Registry.Covers id.store id.version key →
        (∀ id', h'.table.contains id' = true → ¬ Stats.Registry.Covers id'.store id'.version key) →
        ∀ name ∈ Stats.Aggregator.readinessGauges,
          name = "write_compute_operation_failure" ∨ r.settings.isHybrid = true →
          ∀ now, (h'.stats.readGauge now key name).1 =
            some (.ok Stats.Sentinel.inactive.value) := by
  have earlier := before.balanced (balanced_opened settings commons)
  have b := after.balanced earlier
  refine ⟨b.agrees idle, fun id r found key covers gone name readiness due now => ?_⟩
  rw [← earlier.watched.named id r found] at covers
  have offers := (earlier.known r (mem_members_of_table found)).offers covers readiness due
  refine b.watched.sound.readGauge_readiness now readiness (after.offers earlier offers)
    fun pk held => ?_
  obtain ⟨id', there, same, -⟩ := b.reports_of_holds idle held
  exact gone id' there same

/-- A leader is started, and takes some steps. -/
def leaderStarted : Hosting :=
  after ⟨(Call.make (opened .standard Cluster.twoHosts.commons).run
      (.start Cluster.sampleId Cluster.hybridSettings .leader)).2, []⟩
    (List.replicate 16 (.step (.table Cluster.sampleId)))

/-- Then it is stopped. -/
def leaderStopped : Hosting := ⟨(Call.make leaderStarted.run (.stop Cluster.sampleId)).2, []⟩

theorem bookkeeping_leaderStopped :
    ((leaderStarted.table.find? Cluster.sampleId).map (·.state) = some .bootstrapping ∧
      leaderStarted.metrics.active = 1 ∧ leaderStarted.Agrees .empty) ∧
    leaderStopped.metrics.active = 0 ∧ leaderStopped.Agrees .empty ∧
      (leaderStopped.stats.readGauge Cluster.startTime ⟨"s", .total⟩ "rt_topic_offset_lag").1 =
        some (.ok Stats.Sentinel.inactive.value) := by
  have fine : ∀ {answer : Except IngestionError Unit}, answer.toOption = some () →
      answer ≠ .error .join := by
    rintro _ h rfl
    cases h
  have idle : leaderStarted.leaving = [] := List.length_eq_zero_iff.mp (by decide +kernel)
  have before : (opened .standard Cluster.twoHosts.commons).Reaches leaderStarted :=
    (Reaches.call .refl (.start Cluster.sampleId Cluster.hybridSettings .leader)
      (fine (by decide +kernel))).steps _ _
  have after : leaderStarted.Reaches leaderStopped := by
    have here : leaderStarted.Reaches ⟨leaderStarted.run, []⟩ := by
      rw [← idle]
      exact .refl
    exact here.call (.stop Cluster.sampleId) (fine (by decide +kernel))
  refine ⟨⟨by decide +kernel, by decide +kernel, (bookkeeping before .refl idle).1⟩,
    by decide +kernel, ?_⟩
  have found : (leaderStarted.table.find? Cluster.sampleId).map (·.settings.isHybrid) =
      some true := by
    decide +kernel
  have gone : leaderStopped.table.keys = [] := List.length_eq_zero_iff.mp (by decide +kernel)
  obtain ⟨r, hr, hybrid⟩ := Option.map_eq_some_iff.mp found
  obtain ⟨agrees, inactive⟩ := bookkeeping before after rfl
  refine ⟨agrees, inactive _ r hr _ (.inl rfl) (fun id' there => ?_) _ (by decide) (.inr hybrid) _⟩
  have listed := SortedMap.mem_keys.mpr there
  rw [gone] at listed
  cases listed

end Hosting

end StoreFeed
