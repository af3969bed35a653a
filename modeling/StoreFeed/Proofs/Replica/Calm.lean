import StoreFeed.Proofs.Lag
import StoreFeed.Proofs.Replica.Turns
import StoreFeed.Proofs.Storage.Replay

/-!
# What a replica does in calm weather

While the log is there, no call or write is made to fail, and nothing pauses, a step of a standby
has one outcome. These outcomes, one lemma for each phase up to the commit of its first batch, put
together a run in which a standby reads its version topic.
-/

namespace StoreFeed

/-- What decides whether a step goes through. -/
structure Weather where
  wakeAt : Option Nat
  faults : FaultPlan
  injected : List (TopicPartition × ChangeRecord)
  writeFailures : SortedMap Nat Nat
  pollBatchSize : Nat
  available : Bool

/-- Nothing fails, and a poll may bring some records. -/
def Weather.calm (limit : Nat) : Weather :=
  ⟨none, SortedMap.empty, [], SortedMap.empty, limit, true⟩

/-- What decides whether the next step of a replica goes through. -/
def Run.weather (run : Run) : Weather :=
  ⟨run.replica.wakeAt, run.site.faults, run.site.injected, run.site.storage.writeFailures,
    run.site.settings.pollBatchSize, run.commons.log.available⟩

/-- The run has a given feed, of a version without real-time topics, in calm weather. -/
structure Run.Calm (limit : Nat) (run : Run) (f : Feed) : Prop where
  feed : run.feed = f
  weather : run.weather = .calm limit
  plain : f.tracker.threshold = none

/-- Without real-time topics the lag does not overflow. -/
theorem LagTracker.not_heavy_of_plain {t : LagTracker} (h : t.threshold = none) : ¬ t.Heavy := by
  have none : t.realTimeTotal? = none := by simp [realTimeTotal?, isHybrid, h]
  unfold Heavy
  rw [none]
  exact Nat.not_lt_zero _

theorem LagTracker.threshold_marked (t : LagTracker) (m : ControlMessage) :
    (t.marked m).threshold = t.threshold := by
  cases m <;> rfl

theorem LagTracker.threshold_pastVersionRecord (t : LagTracker) (r : ChangeRecord) :
    (t.pastVersionRecord r).threshold = t.threshold := by
  obtain ⟨_, eq⟩ := t.pastVersionRecord_eq r
  rw [eq]

namespace Run.Calm

variable {limit : Nat} {run : Run} {f : Feed} {v : Standing}

section Facts

variable (h : run.Calm limit f)
include h

theorem awake : run.replica.wakeAt = none := congrArg Weather.wakeAt h.weather

theorem faults : run.site.faults = SortedMap.empty := congrArg Weather.faults h.weather

theorem injected : run.site.injected = [] := congrArg Weather.injected h.weather

theorem writeFailures : run.site.storage.writeFailures = SortedMap.empty :=
  congrArg Weather.writeFailures h.weather

theorem pollBatchSize : run.site.settings.pollBatchSize = limit :=
  congrArg Weather.pollBatchSize h.weather

theorem available : run.commons.log.available = true := congrArg Weather.available h.weather

theorem fault?_eq_none (op : Operation) : run.fault? op = none := by
  have planned : run.site.faults.find? op = none := by
    rw [h.faults]
    rfl
  exact congrArg Prod.fst (FaultPlan.next_of_none planned)

theorem not_heavy : ¬ run.replica.tracker.Heavy := by
  have plain := h.plain
  rw [← h.feed] at plain
  exact LagTracker.not_heavy_of_plain plain

theorem paused : run.course.paused = false := congrArg Option.isSome h.awake

/-- With a consumer and no error to be met, a replica does what its phase says, unless a position
goes out of range. -/
theorem acts (live : run.replica.phase.isOver = false) (unasked : run.sought? = none)
    (equipped : run.replica.phase.consumes → run.replica.consumer ≠ none)
    (fine : run.mishap? = none) (fits : ∀ w, run.replica.phase = .working w →
      (w.stage = .fresh ∧ ∃ m, w.record.payload = .control m) ∨
        (∃ value offset, w.stage = .write value offset) →
      run.feed.readsVersion w ∧ w.record.InRange) :
    ∃ v, run.step.standing = v ∧ run.Performs v ∧ ¬ run.Stumbles ∧ ∀ op, run.fault? op = none := by
  refine ⟨_, rfl, ?_, ?_, h.fault?_eq_none⟩
  · rcases step_acts h.awake live with performs | ⟨v, breaks, -⟩
    · exact performs
    · cases breaks with
      | done _ heavy | rest _ heavy => exact absurd heavy h.not_heavy
      | far sought =>
        rw [unasked] at sought
        cases sought
      | pass w m phase fresh payload realTime =>
        exact absurd (fits w phase (.inl ⟨fresh, m, payload⟩)).1 realTime
      | mark w m _ phase fresh payload _ unfit =>
        exact absurd (fits w phase (.inl ⟨fresh, m, payload⟩)).2 unfit
      | store w value offset _ phase stage _ unfit =>
        obtain ⟨version, inRange⟩ := fits w phase (.inr ⟨value, offset, stage⟩)
        exact absurd ((if_pos version).mpr inRange) unfit
  · exact not_stumbles (fun op _ => ⟨h.fault?_eq_none op, fun _ => h.available⟩) equipped fine

/-- Outside a batch no error is to be met. -/
theorem acts_outside (live : run.replica.phase.isOver = false) (unasked : run.sought? = none)
    (equipped : run.replica.phase.consumes → run.replica.consumer ≠ none)
    (outside : run.replica.phase.chapter ≠ .batching) :
    ∃ v, run.step.standing = v ∧ run.Performs v ∧ ¬ run.Stumbles ∧
      (∀ op, run.fault? op = none) ∧ run.mishap? = none := by
  have fine := mishap?_of_phase outside
  obtain ⟨v, standing, performs, calm, unfaulty⟩ := h.acts live unasked equipped fine
    fun w phase => absurd (by rw [phase]; rfl) outside
  exact ⟨v, standing, performs, calm, unfaulty, fine⟩

/-- The weather stays calm. -/
theorem goesOn (standing : run.step.standing = v) (paused : v.course.paused = false)
    (log : v.feed.log = f.log) (plain : v.feed.tracker.threshold = none) :
    run.step.Calm limit v.feed := by
  have upholds := run.step_upholds
  have feed : run.step.feed = v.feed := congrArg Standing.feed standing
  refine ⟨feed, ?_, plain⟩
  have wakeAt : run.step.replica.wakeAt = none := by
    have awake : run.step.replica.wakeAt.isSome = false :=
      (congrArg (fun v : Standing => v.course.paused) standing).trans paused
    simpa using awake
  have faults : run.step.site.faults = SortedMap.empty := SortedMap.ext fun op => by
    have planned : run.site.faults.find? op = none := by
      rw [h.faults]
      rfl
    rcases upholds.faults op with same | ⟨-, same⟩
    · exact same.trans planned
    · rw [FaultPlan.next_of_none planned] at same
      exact same.trans planned
  have injected : run.step.site.injected = [] :=
    upholds.injected.elim (fun same => same.trans h.injected) id
  have writeFailures : run.step.site.storage.writeFailures = SortedMap.empty :=
    SortedMap.ext fun offset => by
      have same := upholds.writes offset
      rw [h.writeFailures] at same
      exact same rfl
  have available : run.step.commons.log.available = true := by
    have same : run.step.commons.log = run.commons.log :=
      (congrArg Feed.log feed).trans (log.trans (congrArg Feed.log h.feed).symm)
    rw [same]
    exact h.available
  have pollBatchSize : run.step.site.settings.pollBatchSize = limit := by
    rw [upholds.settings]
    exact h.pollBatchSize
  unfold Run.weather Weather.calm
  rw [wakeAt, faults, injected, writeFailures, available, pollBatchSize]

end Facts

/-! ## Up to the first batch -/

theorem created (h : run.Calm limit f) (hp : f.phase = .created) :
    ∃ since, run.step.Calm limit { f with phase := .restoring since } := by
  obtain rfl := h.feed
  have hp : run.replica.phase = .created := hp
  obtain ⟨v, standing, performs, calm, unfaulty, fine⟩ := h.acts_outside (hp ▸ rfl)
    (run.sought?_of_phase (by simp [hp])) (by simp [hp, Phase.consumes])
    (by simp [hp, Phase.chapter])
  cases performs with
  | start since => exact ⟨since, h.goesOn standing h.paused rfl h.plain⟩
  | _ => simp_all [Phase.retry?]

/-- A replica without a checkpoint begins where it is. -/
theorem restoring (h : run.Calm limit f) {since : Nat} (hp : f.phase = .restoring since)
    (none : f.data.checkpoint = none) :
    ∃ next, run.step.Calm limit { f with phase := .acquiring next } := by
  obtain rfl := h.feed
  have hp : run.replica.phase = .restoring since := hp
  obtain ⟨v, standing, performs, calm, unfaulty, fine⟩ := h.acts_outside (hp ▸ rfl)
    (run.sought?_of_phase (by simp [hp])) (by simp [hp, Phase.consumes])
    (by simp [hp, Phase.chapter])
  cases performs with
  | restore since next =>
    have goesOn := h.goesOn standing h.paused rfl
    rw [none] at goesOn
    exact ⟨next, goesOn h.plain⟩
  | _ => simp_all [Phase.retry?]

theorem acquiring (h : run.Calm limit f) {since : Nat} (hp : f.phase = .acquiring since) :
    run.step.Calm limit { f with consumer := some Consumer.fresh, phase := .aligning true } := by
  obtain rfl := h.feed
  have hp : run.replica.phase = .acquiring since := hp
  obtain ⟨v, standing, performs, calm, unfaulty, fine⟩ := h.acts_outside (hp ▸ rfl)
    (run.sought?_of_phase (by simp [hp])) (by simp [hp, Phase.consumes])
    (by simp [hp, Phase.chapter])
  cases performs with
  | acquire => exact h.goesOn standing h.paused rfl h.plain
  | _ => simp_all [Phase.retry?]

/-- A standby desires its version topic. -/
theorem aiming (h : run.Calm limit f) {first : Bool} (hp : f.phase = .aligning first) {c : Consumer}
    (consumer : f.consumer = some c) (standby : f.role = .standby)
    (nothing : f.subscriptions = SortedMap.empty) : run.step.Calm limit
      { f with phase := .attaching first f.id.versionTopic f.tracker.versionPosition } := by
  obtain rfl := h.feed
  have hp : run.replica.phase = .aligning first := hp
  have hc : run.replica.consumer = some c := consumer
  -- The version topic is all that is missing, and where it is to be read from is known.
  have desired : run.feed.desired = SortedSet.ofMembers [run.feed.id.versionTopic] :=
    if_neg fun leader => by cases standby.symm.trans leader.1
  have missing : run.feed.desired.diff run.feed.subscriptions = [run.feed.id.versionTopic] := by
    rw [desired, nothing]
    rfl
  have kept : run.feed.subscriptions.diff run.feed.desired = [] := by
    rw [nothing]
    rfl
  have knows : run.replica.knowsStart run.feed.id.versionTopic = true := by
    unfold Replica.knowsStart
    rw [decide_eq_true (p := run.feed.id.versionTopic = run.replica.id.versionTopic) rfl]
    rfl
  have unasked : run.sought? = none := by
    unfold Run.sought?
    rw [hp, hc]
    dsimp only
    rw [show run.replica.subscriptions.diff run.replica.desiredSubscriptions = [] from kept,
      show run.replica.desiredSubscriptions.diff run.replica.subscriptions = _ from missing]
    dsimp only
    rw [if_pos knows]
  obtain ⟨v, standing, performs, calm, unfaulty, fine⟩ := h.acts_outside (hp ▸ rfl) unasked
    (by simp [hc]) (by cases first <;> simp [hp, Phase.chapter])
  cases performs with
  | aim first' tp offset phase _ wanted startsAt =>
    cases hp.symm.trans phase
    rw [missing, List.mem_singleton] at wanted
    subst wanted
    rw [← (if_pos rfl).mp startsAt]
    exact h.goesOn standing h.paused rfl h.plain
  | drop _ _ _ _ _ _ surplus => cases kept.symm.trans surplus
  | align _ _ _ _ complete => cases missing.symm.trans complete
  | _ => simp_all [Phase.retry?]

theorem attaching (h : run.Calm limit f) {first : Bool} {offset : Nat}
    (hp : f.phase = .attaching first f.id.versionTopic offset) {c : Consumer}
    (consumer : f.consumer = some c) : run.step.Calm limit { f with
      consumer := some ⟨c.positions.insert f.id.versionTopic offset⟩
      subscriptions := f.subscriptions.add f.id.versionTopic
      phase := .aligning first } := by
  obtain rfl := h.feed
  have hp : run.replica.phase = .attaching first run.feed.id.versionTopic offset := hp
  have hc : run.replica.consumer = some c := consumer
  obtain ⟨v, standing, performs, calm, unfaulty, fine⟩ := h.acts_outside (hp ▸ rfl)
    (run.sought?_of_phase (by simp [hp])) (by simp [hc])
    (by cases first <;> simp [hp, Phase.chapter])
  cases performs with
  | attach first' c' tp offset' phase consumer' =>
    cases hp.symm.trans phase
    cases hc.symm.trans consumer'
    rw [if_pos rfl] at standing
    exact h.goesOn standing h.paused rfl h.plain
  | _ => simp_all [Phase.retry?]

/-- The subscriptions are as desired. -/
theorem aligning (h : run.Calm limit f) {first : Bool} (hp : f.phase = .aligning first)
    {c : Consumer} (consumer : f.consumer = some c) (kept : f.subscriptions.diff f.desired = [])
    (complete : f.desired.diff f.subscriptions = []) :
    run.step.Calm limit { f with phase := .polling } := by
  obtain rfl := h.feed
  have hp : run.replica.phase = .aligning first := hp
  have hc : run.replica.consumer = some c := consumer
  obtain ⟨v, standing, performs, calm, unfaulty, fine⟩ := h.acts_outside (hp ▸ rfl)
    (sought?_of_complete complete) (by simp [hc]) (by cases first <;> simp [hp, Phase.chapter])
  cases performs with
  | align => exact h.goesOn standing h.paused rfl h.plain
  | aim _ _ _ _ _ wanted =>
    rw [complete] at wanted
    cases wanted
  | drop _ _ _ _ _ _ surplus => cases kept.symm.trans surplus
  | _ => simp_all [Phase.retry?]

theorem polling (h : run.Calm limit f) (hp : f.phase = .polling) {c c' : Consumer}
    (consumer : f.consumer = some c) {batch : List (TopicPartition × ChangeRecord)}
    (polled : c.poll f.log limit = .ok (batch, c')) : ∃ b, run.step.Calm limit { f with
      consumer := some c', phase := { f with consumer := some c' }.nextPhase b batch false } := by
  obtain rfl := h.feed
  have hp : run.replica.phase = .polling := hp
  have hc : run.replica.consumer = some c := consumer
  obtain ⟨v, standing, performs, calm, unfaulty, fine⟩ := h.acts_outside (hp ▸ rfl)
    (run.sought?_of_phase (by simp [hp])) (by simp [hc]) (by simp [hp, Phase.chapter])
  cases performs with
  | poll c₀ c₁ batch' _ consumer' _ polled' =>
    cases hc.symm.trans consumer'
    rw [h.pollBatchSize] at polled'
    cases polled.symm.trans polled'
    rw [h.injected] at standing
    exact ⟨_, h.goesOn standing h.paused rfl h.plain⟩
  | _ => simp_all [Phase.retry?]

/-! ## A record of the version topic -/

section Record

variable {w : Work} (h : run.Calm limit f) (hp : f.phase = .working w)
include h hp

/-- A replica does what the stage of the record in hand says, unless an error is to be met or a
position goes out of range. -/
theorem works (fine : run.mishap? = none)
    (fits : (w.stage = .fresh ∧ ∃ m, w.record.payload = .control m) ∨
      (∃ value offset, w.stage = .write value offset) → f.readsVersion w ∧ w.record.InRange) :
    ∃ v, run.step.standing = v ∧ run.Performs v := by
  obtain rfl := h.feed
  have hp : run.replica.phase = .working w := hp
  obtain ⟨v, standing, performs, -⟩ := h.acts (hp ▸ rfl) (run.sought?_of_phase (by simp [hp]))
    (by simp [hp, Phase.consumes]) fine fun w' phase => by
      cases hp.symm.trans phase
      exact fits
  exact ⟨v, standing, performs⟩

/-- The value that a record of the version topic makes by itself is to be written. -/
theorem looksAt (hv : f.readsVersion w) (fresh : w.stage = .fresh)
    {current value : Option ByteArray} (makes : w.record.Makes f.settings.schema current value)
    (plain : ∀ u, w.record.payload ≠ .update u) : run.step.Calm limit
      { f with phase := .working { w with stage := .write value w.record.offset } } := by
  obtain rfl := h.feed
  have hp : run.replica.phase = .working w := hp
  have fine : run.mishap? = none := mishap?_of_fresh hp fresh
  have looks : ∀ p, run.feed.Looks w p →
      p = .working { w with stage := .write value w.record.offset } := by
    intro p looks
    rw [← Feed.settled_of_readsVersion hv value]
    cases makes <;> cases looks <;> simp_all
  have ordinary : ∀ m, w.record.payload ≠ .control m := by
    intro m
    cases makes <;> simp_all
  obtain ⟨v, standing, performs⟩ := h.works hp fine (by simp [ordinary, fresh])
  cases performs with
  | look w' p phase _ looks' =>
    cases hp.symm.trans phase
    cases looks p looks'
    exact h.goesOn standing h.paused rfl h.plain
  | mark w' m phase _ payload | pass w' m phase _ payload =>
    cases hp.symm.trans phase
    exact absurd payload (ordinary m)
  | startOver _ _ _ _ _ retries => cases fine.symm.trans retries.mishap
  | _ => simp_all [Phase.retry?]

theorem looksAtUpdate (fresh : w.stage = .fresh) {u : PartialUpdate}
    (payload : w.record.payload = .update u) : run.step.Calm limit
      { f with phase := .working { w with stage := .merge u } } := by
  obtain rfl := h.feed
  have hp : run.replica.phase = .working w := hp
  have fine : run.mishap? = none := mishap?_of_fresh hp fresh
  obtain ⟨v, standing, performs⟩ := h.works hp fine (by simp [payload, fresh])
  cases performs with
  | look w' p phase _ looks =>
    cases hp.symm.trans phase
    cases looks with
    | update u' payload' =>
      cases payload.symm.trans payload'
      exact h.goesOn standing h.paused rfl h.plain
    | _ => simp_all
  | startOver _ _ _ _ _ retries => cases fine.symm.trans retries.mishap
  | _ => simp_all [Phase.retry?]

theorem merging (hv : f.readsVersion w) {u : PartialUpdate} (stage : w.stage = .merge u)
    {value : ByteArray}
    (merged : mergeBytes f.settings.schema (f.get? w.record.key) u = .ok value) :
    run.step.Calm limit
      { f with phase := .working { w with stage := .write (some value) w.record.offset } } := by
  obtain rfl := h.feed
  have hp : run.replica.phase = .working w := hp
  have fine : run.mishap? = none := by
    have read : mergeBytes run.replica.settings.schema (run.feed.get? w.record.key) u = .ok value :=
      merged
    rw [mishap?_of_merge hp stage, read]
    unfold failure?
    rw [h.fault?_eq_none]
    rfl
  obtain ⟨v, standing, performs⟩ := h.works hp fine (by simp [stage])
  cases performs with
  | merge w' u' value' phase stage' _ merged' =>
    cases hp.symm.trans phase
    cases stage.symm.trans stage'
    cases merged.symm.trans merged'
    rw [Feed.settled_of_readsVersion hv] at standing
    exact h.goesOn standing h.paused rfl h.plain
  | startOver _ _ _ _ _ retries => cases fine.symm.trans retries.mishap
  | _ => simp_all [Phase.retry?]

theorem passesControl (hv : f.readsVersion w) (fresh : w.stage = .fresh)
    (inRange : w.record.InRange)
    {m : ControlMessage} (payload : w.record.payload = .control m) : ∃ b, run.step.Calm limit
      (f.finished ((f.tracker.marked m).pastVersionRecord w.record) b w) := by
  obtain rfl := h.feed
  have hp : run.replica.phase = .working w := hp
  have fine : run.mishap? = none := mishap?_of_fresh hp fresh
  obtain ⟨v, standing, performs⟩ := h.works hp fine fun _ => ⟨hv, inRange⟩
  cases performs with
  | mark w' m' phase _ payload' =>
    cases hp.symm.trans phase
    cases payload.symm.trans payload'
    exact ⟨_, h.goesOn standing h.paused rfl
      ((LagTracker.threshold_pastVersionRecord _ _).trans
        ((LagTracker.threshold_marked _ _).trans h.plain))⟩
  | pass w' _ phase _ _ realTime =>
    cases hp.symm.trans phase
    exact absurd hv realTime
  | look w' _ phase _ looks =>
    cases hp.symm.trans phase
    cases looks <;> simp_all
  | startOver _ _ _ _ _ retries => cases fine.symm.trans retries.mishap
  | _ => simp_all [Phase.retry?]

/-- A value is written. -/
theorem writing (hv : f.readsVersion w) {value : Option ByteArray} {offset : Nat}
    (stage : w.stage = .write value offset) (inRange : w.record.InRange) :
    ∃ b, run.step.Calm limit (Feed.finished
      { f with data := f.data.write w.record.key ⟨value, offset⟩ }
      (f.tracker.pastVersionRecord w.record) b w) := by
  obtain rfl := h.feed
  have hp : run.replica.phase = .working w := hp
  have written : (run.site.storage.write run.replica.id w.record.key ⟨value, offset⟩).1 =
      .ok () := by
    unfold Storage.write
    rw [h.writeFailures]
    rfl
  have fine : run.mishap? = none := by
    rw [mishap?_of_write hp stage, written]
    unfold failure?
    rw [h.fault?_eq_none]
  obtain ⟨v, standing, performs⟩ := h.works hp fine fun _ => ⟨hv, inRange⟩
  cases performs with
  | store w' value' offset' phase stage' =>
    cases hp.symm.trans phase
    cases stage.symm.trans stage'
    rw [show run.feed.stored w offset = run.feed.tracker.pastVersionRecord w.record from if_pos hv]
      at standing
    exact ⟨_, h.goesOn standing h.paused rfl
      ((LagTracker.threshold_pastVersionRecord _ _).trans h.plain)⟩
  | startOver _ _ _ _ _ retries => cases fine.symm.trans retries.mishap
  | _ => simp_all [Phase.retry?]

end Record

end Run.Calm

end StoreFeed
