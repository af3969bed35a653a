import StoreFeed.Proofs.Lag
import StoreFeed.Proofs.Replica.Books
import StoreFeed.Proofs.Replica.Outlook

/-!
# What a step can do

`Standing` is what matters of a replica: its course, the state it is counted in, its push-timeout
flag, and what it asked the log. `Run.Performs` lists, one constructor for each outcome, how what a
phase does can leave it, and why; `Run.BreaksOff` says what is left where an overflow ends the task.
Whatever else a step does is done aside: it shows how the replica is, counts, and makes no more
calls than its phase asks for (`Run.Upholds`).

The steps of a replica are walked through once, in `StoreFeed.Proofs.Replica.Walk`. All else that is
said of a step (its move, its course, its turn, its accounts, its ranges) is read off from here.
-/

namespace StoreFeed

open Decimal (maxWord64)

/-! ## Pauses -/

/-- A series of pauses is one that a host's settings ask for. -/
structure Backoff.Of (host : HostSettings) (b : Backoff) : Prop where
  initial : b.initial = host.initialBackoff
  limit : b.limit = host.maxBackoff
  current : b.current ≤ max host.initialBackoff host.maxBackoff

section Backoff

variable {host : HostSettings} {b : Backoff}

theorem Backoff.of_ofSettings (host : HostSettings) : (Backoff.ofSettings host).Of host :=
  ⟨rfl, rfl, Nat.le_max_left _ _⟩

theorem Backoff.Of.next (h : b.Of host) : b.next.2.Of host := by
  refine ⟨h.initial, h.limit, ?_⟩
  show min (b.current * 2) b.limit ≤ _
  rw [h.limit]
  exact Nat.le_trans (Nat.min_le_right _ _) (Nat.le_max_right _ _)

theorem Backoff.Of.reset (h : b.Of host) : b.reset.Of host := by
  refine ⟨h.initial, h.limit, ?_⟩
  show b.initial ≤ _
  rw [h.initial]
  exact Nat.le_max_left _ _

end Backoff

/-! ## Questions -/

/-- How far back a leader starts that has no position. -/
def VersionSettings.rewindSeconds (s : VersionSettings) : Nat :=
  match s.hybrid with
  | some h => h.rewindSeconds
  | none => 0

/-- The question that a call puts to the log: since when a partition is to be read. -/
def Call.question? : Call → Option (TopicPartition × Nat)
  | .offsetForTimestamp tp timestamp => some (tp, timestamp)
  | _ => none

/-- The questions that a host put to the log, the last one first. -/
def Run.asked (run : Run) : List (TopicPartition × Nat) := run.site.calls.filterMap Call.question?

/-- Whether where a partition is to be read from is known without asking the log. -/
def Replica.knowsStart (r : Replica) (tp : TopicPartition) : Bool :=
  tp = r.id.versionTopic || (r.tracker.realTimePosition? tp.region).isSome

/-- The partition whose start the log is to be asked for next. -/
def Run.sought? (run : Run) : Option TopicPartition :=
  match run.replica.phase, run.replica.consumer with
  | .aligning _, some _ =>
    match run.replica.subscriptions.diff run.replica.desiredSubscriptions,
        run.replica.desiredSubscriptions.diff run.replica.subscriptions with
    | [], tp :: _ => if run.replica.knowsStart tp then none else some tp
    | _, _ => none
  | _, _ => none

/-- What the log is to be asked next. -/
def Run.questions (run : Run) : List (TopicPartition × Nat) :=
  run.sought?.toList.map fun tp =>
    (tp, run.commons.now - run.replica.settings.rewindSeconds * 1000)

/-- Where the log is to be asked, the instant that it is asked about is in range. -/
def Run.Near (run : Run) : Prop :=
  run.sought?.isSome → run.replica.settings.rewindSeconds * 1000 ≤ maxWord64

/-- Only where the subscriptions are brought in line something is sought. -/
theorem Run.sought?_of_phase (run : Run) (h : ∀ first, run.replica.phase ≠ .aligning first) :
    run.sought? = none := by
  unfold sought?
  split
  · rename_i first _ hp _
    exact absurd hp (h first)
  · rfl

/-- As long as a subscription is to be dropped nothing is sought. -/
theorem Run.sought?_of_surplus {run : Run} {tp : TopicPartition} {rest : List TopicPartition}
    (h : run.replica.subscriptions.diff run.replica.desiredSubscriptions = tp :: rest) :
    run.sought? = none := by
  unfold sought?
  split
  · rw [h]
  · rfl

/-- Where no subscription is missing nothing is sought. -/
theorem Run.sought?_of_complete {run : Run}
    (h : run.replica.desiredSubscriptions.diff run.replica.subscriptions = []) :
    run.sought? = none := by
  unfold sought?
  split
  · rw [h]
    split
    · cases ‹[] = _›
    · rfl
  · rfl

theorem Run.asked_of_sought? (run : Run) (h : run.sought? = none) :
    run.asked = run.questions ++ run.asked := by
  unfold questions
  rw [h]
  rfl

theorem Run.near_of_sought? (run : Run) (h : run.sought? = none) : run.Near := by
  intro sought
  rw [h] at sought
  cases sought

/-! ## Standings -/

/-- What matters of a replica. -/
structure Standing where
  course : Course
  /-- The state that it is counted in. -/
  state : ReplicaState
  pushTimeout : Bool
  /-- The questions that its host put to the log, the last one first. -/
  asked : List (TopicPartition × Nat)

namespace Standing

/-- The feed of the replica. -/
abbrev feed (v : Standing) : Feed := v.course.feed

/-- Another feed. -/
def withFeed (v : Standing) (f : Feed) : Standing :=
  { v with course := { v.course with feed := f } }

/-- Go to a phase. -/
def inPhase (v : Standing) (p : Phase) : Standing := { v with course := v.course.inPhase p }

/-- A phase is to be tried again after a pause. -/
def tried (v : Standing) (p : Phase) (pushTimeout : Bool) : Standing :=
  { v with course := { v.course.inPhase p with paused := true }, pushTimeout }

/-- The standing once the task is ended by an overflow. -/
def killed (v : Standing) : Standing := { v with course := v.course.killed }

/-- What there is to show. -/
def face (v : Standing) : Face := ⟨v.state, v.state = .online, v.course.errored, v.pushTimeout⟩

/-- The outlook of a replica that shows how it stands. -/
def outlook (v : Standing) : Outlook :=
  { id := v.feed.id
    settings := v.feed.settings
    phase := v.feed.phase
    paused := v.course.paused
    state := v.state
    errored := v.course.errored
    pushTimeout := v.pushTimeout
    shown := v.face
    endOfPush := v.feed.tracker.endOfPush
    threshold := v.feed.tracker.threshold
    realTimeEnds := v.feed.tracker.realTimeEnds
    checkpoint := v.feed.data.checkpoint }

end Standing

/-- How a replica stands. -/
def Run.standing (run : Run) : Standing :=
  ⟨run.course, run.replica.state, run.replica.pushTimeout, run.asked⟩

/-- What a replica shows is all that its standing leaves open of its outlook. -/
theorem Run.outlook_eq (run : Run) :
    run.outlook = { run.standing.outlook with shown := run.replica.status.face } := rfl

theorem Outlook.Shows.outlook_eq {run : Run} (h : run.outlook.Shows) :
    run.outlook = run.standing.outlook := h.displayed_eq.symm

/-! ## Reasons -/

/-- The operations that a phase may call. -/
def Phase.calls : Phase → List Operation
  | .restoring _ => [.checkpoint]
  | .acquiring _ => [.acquireConsumer]
  | .aligning _ => [.unsubscribe, .offsetForTimestamp]
  | .attaching .. => [.subscribe]
  | .polling => [.poll]
  | .working w =>
    match w.stage with
    | .fresh => []
    | .merge _ => [.get]
    | .openTopic _ => [.producer]
    | .publish _ => [.produce]
    | .write value _ => [if value.isSome then .put else .delete]
  | .committing _ => [.commit]
  | .promoting _ | .samplingVersion _ | .samplingRegions .. => [.endOffset]
  | .leaving => [.unsubscribe]
  | .created | .safePoint _ | .concluding _ | .parked | .stopped | .killed => []

/-- Whether storage may change in a phase. -/
def Phase.stores : Phase → Bool
  | .working w =>
    match w.stage with
    | .write .. => true
    | _ => false
  | .committing _ => true
  | _ => false

/-- Whether a phase needs a consumer. -/
def Phase.consumes : Phase → Bool
  | .aligning _ | .attaching .. | .polling => true
  | _ => false

/-- Where a call that failed outside a batch is tried again. -/
def Phase.retry? : Phase → Option Phase
  | .restoring since => some (.restoring since)
  | .acquiring since => some (.acquiring since)
  | .aligning first => some (.aligning first)
  | .attaching first _ _ => some (.aligning first)
  | .polling => some (.aligning false)
  | _ => none

theorem Phase.ne_of_isOver {p q : Phase} (live : p.isOver = false) (ended : q.isOver = true) :
    p ≠ q := by
  rintro rfl
  cases live.symm.trans ended

/-- A phase that is over calls nothing but to drop subscriptions, and stores nothing. -/
theorem Phase.calls_of_isOver {p : Phase} (ended : p.isOver = true) :
    p.stores = false ∧ ∀ op ∈ p.calls, op = .unsubscribe := by
  cases p with
  | parked | leaving | stopped | killed => exact ⟨rfl, by simp [calls]⟩
  | _ => cases ended

theorem Phase.live_of_retry? {p q : Phase} (h : p.retry? = some q) :
    p.isOver = false ∧ q.isOver = false := by
  cases p <;> first | cases h; exact ⟨rfl, rfl⟩ | cases h

/-- Whether the lag is taken in a phase even if no call fails. -/
def Phase.weighs : Phase → Bool
  | .aligning first => first
  | .committing _ | .concluding _ => true
  | _ => false

/-- The lag is out of range. -/
def LagTracker.Heavy (t : LagTracker) : Prop := maxWord64 < t.realTimeTotal?.getD 0

namespace Run

/-- A call of the next step does not go through. -/
inductive Stumbles (a : Run) : Prop where
  | planned (op : Operation) (e : IngestionError) (calls : op ∈ a.replica.phase.calls)
      (fault : a.fault? op = some e)
  | away (op : Operation) (calls : op ∈ a.replica.phase.calls) (log : op.ofStorage = false)
      (away : a.commons.log.available = false)
  | unequipped (phase : a.replica.phase.consumes) (consumer : a.replica.consumer = none)
  | mishap (e : IngestionError) (mishap : a.mishap? = some e)

/-- Where no call is planned to fail, the log answers and no error is about to be met, all calls go
through. -/
theorem not_stumbles {a : Run} (calls : ∀ op ∈ a.replica.phase.calls, a.fault? op = none ∧
      (op.ofStorage = false → a.commons.log.available = true))
    (consumes : a.replica.phase.consumes → a.replica.consumer ≠ none) (fine : a.mishap? = none) :
    ¬ a.Stumbles := by
  rintro (⟨op, e, called, fault⟩ | ⟨op, called, log, away⟩ | ⟨consumed, none⟩ | ⟨e, mishap⟩)
  · cases fault.symm.trans (calls op called).1
  · cases away.symm.trans ((calls op called).2 log)
  · exact consumes consumed none
  · cases mishap.symm.trans fine

/-- A phase that makes no call goes through. -/
theorem not_stumbles_of_calls {a : Run} (calls : a.replica.phase.calls = [])
    (consumes : a.replica.phase.consumes = false) (fine : a.mishap? = none) : ¬ a.Stumbles := by
  refine not_stumbles (fun op called => ?_) (fun consumed => ?_) fine
  · rw [calls] at called
    cases called
  · cases consumed.symm.trans consumes

/-- A replica that is not over acts once its pause has ended. -/
theorem acts_of_live {a : Run} (awake : a.replica.wakeAt = none)
    (live : a.replica.phase.isOver = false) : a.isWaiting = false := by
  unfold isWaiting Replica.isWaiting
  rw [awake]
  split <;> simp_all [Phase.isOver]

/-- What becomes of the push-timeout flag: it is raised only before the end of the push. -/
def Warns (a : Run) (pushTimeout : Bool) : Prop :=
  pushTimeout = a.replica.pushTimeout ∨
    pushTimeout = true ∧ a.replica.tracker.endOfPush = false

/-- The positions behind a record that was stored, and behind what was published for it, are in
range. -/
def Fits (a : Run) (w : Work) (offset : Nat) : Prop :=
  if a.feed.readsVersion w then w.record.InRange
  else w.record.offset < maxWord64 ∧ offset < maxWord64

/-! ## What a phase does -/

/-- How a replica that is not broken off stands after it did what its phase says. -/
inductive Performs (a : Run) : Standing → Prop where
  | start (since : Nat) (phase : a.replica.phase = .created) :
      Performs a { a.standing.inPhase (.restoring since) with state := .subscribing }
  /-- A call outside a batch failed. -/
  | again (p : Phase) (pushTimeout : Bool) (next : a.replica.phase.retry? = some p)
      (stumbles : a.Stumbles) (warns : a.Warns pushTimeout) (near : a.Near) :
      Performs a { a.standing.tried p pushTimeout with asked := a.questions ++ a.asked }
  /-- The last checkpoint is read. -/
  | restore (since next : Nat) (phase : a.replica.phase = .restoring since) :
      Performs a (a.standing.withFeed { a.feed with
        phase := .acquiring next
        tracker := a.feed.tracker.resumed a.feed.data.checkpoint })
  | acquire (since : Nat) (phase : a.replica.phase = .acquiring since) :
      Performs a (a.standing.withFeed
        { a.feed with consumer := some Consumer.fresh, phase := .aligning true })
  /-- A subscription that is not desired is dropped. -/
  | drop (first : Bool) (c : Consumer) (tp : TopicPartition) (rest : List TopicPartition)
      (phase : a.replica.phase = .aligning first) (consumer : a.replica.consumer = some c)
      (surplus : a.feed.subscriptions.diff a.feed.desired = tp :: rest) :
      Performs a (a.standing.withFeed { a.feed with
        consumer := some (c.unsubscribe tp), subscriptions := a.feed.subscriptions.erase tp })
  /-- A missing subscription is to be added; none is left to be dropped. -/
  | aim (first : Bool) (tp : TopicPartition) (offset : Nat)
      (phase : a.replica.phase = .aligning first)
      (kept : a.feed.subscriptions.diff a.feed.desired = [])
      (missing : tp ∈ a.feed.desired.diff a.feed.subscriptions)
      (startsAt : a.feed.StartsAt tp offset) (near : a.Near) :
      Performs a
        { a.standing.inPhase (.attaching first tp offset) with asked := a.questions ++ a.asked }
  | attach (first : Bool) (c : Consumer) (tp : TopicPartition) (offset : Nat)
      (phase : a.replica.phase = .attaching first tp offset)
      (consumer : a.replica.consumer = some c) :
      Performs a (a.standing.withFeed { a.feed with
        consumer := some ⟨c.positions.insert tp offset⟩
        subscriptions := a.feed.subscriptions.add tp
        tracker := if tp = a.feed.id.versionTopic then a.feed.tracker
          else a.feed.tracker.atRealTimePosition tp.region offset
        phase := .aligning first })
  /-- The subscriptions are as desired. The first time this ends subscribing. -/
  | align (first : Bool) (phase : a.replica.phase = .aligning first)
      (consumer : a.replica.consumer.isSome)
      (kept : a.feed.subscriptions.diff a.feed.desired = [])
      (complete : a.feed.desired.diff a.feed.subscriptions = []) :
      Performs a { a.standing.inPhase .polling with
        state := if first then .bootstrapping else a.replica.state }
  | poll (c c' : Consumer) (batch : List (TopicPartition × ChangeRecord))
      (phase : a.replica.phase = .polling) (consumer : a.replica.consumer = some c)
      (fine : a.fault? .poll = none)
      (polled : c.poll a.commons.log a.site.settings.pollBatchSize = .ok (batch, c')) :
      Performs a (a.standing.withFeed { a.feed with
        consumer := some c'
        phase := { a.feed with consumer := some c' }.nextPhase (Backoff.ofSettings a.site.settings)
          (a.site.injected ++ batch) false })
  | look (w : Work) (p : Phase) (phase : a.replica.phase = .working w) (stage : w.stage = .fresh)
      (looks : a.feed.Looks w p) : Performs a (a.standing.inPhase p)
  | merge (w : Work) (u : PartialUpdate) (value : ByteArray) (phase : a.replica.phase = .working w)
      (stage : w.stage = .merge u) (fine : a.mishap? = none)
      (merged : mergeBytes a.feed.settings.schema (a.feed.get? w.record.key) u = .ok value) :
      Performs a (a.standing.inPhase (a.feed.settled w (some value)))
  | openTopic (w : Work) (value : Option ByteArray) (phase : a.replica.phase = .working w)
      (stage : w.stage = .openTopic value) (fine : a.mishap? = none) :
      Performs a (a.standing.inPhase (.working { w with stage := .publish value }))
  | publish (w : Work) (value : Option ByteArray) (phase : a.replica.phase = .working w)
      (stage : w.stage = .publish value) (fine : a.mishap? = none) :
      Performs a (a.standing.withFeed { a.feed with
        log := (a.feed.log.append a.feed.id.versionTopic
          (Act.republished w.topic w.record value)).2
        phase := .working { w with stage := .write value a.feed.versionRecords.length } })
  /-- A control record of the version topic is done. -/
  | mark (w : Work) (m : ControlMessage) (phase : a.replica.phase = .working w)
      (stage : w.stage = .fresh) (payload : w.record.payload = .control m)
      (version : a.feed.readsVersion w) (fits : w.record.InRange) :
      Performs a (a.standing.withFeed
        (a.feed.finished ((a.feed.tracker.marked m).pastVersionRecord w.record)
          (Backoff.ofSettings a.site.settings) w))
  /-- A control record of a real-time topic is done. -/
  | pass (w : Work) (m : ControlMessage) (phase : a.replica.phase = .working w)
      (stage : w.stage = .fresh) (payload : w.record.payload = .control m)
      (realTime : ¬ a.feed.readsVersion w) :
      Performs a (a.standing.withFeed
        (a.feed.finished (a.feed.tracker.pastRealTimeRecord w.topic w.record)
          (Backoff.ofSettings a.site.settings) w))
  /-- A value is written; with that its record is done. -/
  | store (w : Work) (value : Option ByteArray) (offset : Nat)
      (phase : a.replica.phase = .working w) (stage : w.stage = .write value offset)
      (fine : a.mishap? = none) (fits : a.Fits w offset) :
      Performs a (a.standing.withFeed
        (Feed.finished { a.feed with data := a.feed.data.write w.record.key ⟨value, offset⟩ }
          (a.feed.stored w offset) (Backoff.ofSettings a.site.settings) w))
  /-- A record is started over after a pause. -/
  | startOver (w : Work) (b : Backoff) (e : IngestionError) (pushTimeout : Bool)
      (phase : a.replica.phase = .working w) (retries : a.Retries e)
      (pauses : b = w.backoff ∨ b = w.backoff.next.2) (warns : a.Warns pushTimeout) :
      Performs a (a.standing.tried (.working { w with stage := .fresh, backoff := b }) pushTimeout)
  | commit (b : Backoff) (phase : a.replica.phase = .committing b) (fine : a.mishap? = none) :
      Performs a (a.standing.withFeed { a.feed with
        data := { a.feed.data with checkpoint := some a.feed.checkpoint },
          phase := .safePoint true })
  /-- A commit is tried again after a pause. -/
  | commitAgain (b b' : Backoff) (e : IngestionError) (pushTimeout : Bool)
      (phase : a.replica.phase = .committing b) (retries : a.Retries e)
      (pauses : b' = b ∨ b' = b.next.2) (warns : a.Warns pushTimeout) :
      Performs a (a.standing.tried (.committing b') pushTimeout)
  | obey (processed : Bool) (phase : a.replica.phase = .safePoint processed) :
      Performs a { a.standing with course := a.course.obeyed processed }
  /-- There is nothing to turn to, or no target can be had. -/
  | promote (processed : Bool) (phase : a.replica.phase = .promoting processed) :
      Performs a (a.standing.inPhase (.samplingVersion processed))
  /-- A hybrid leader past the end of the push takes its target, or looks whether it is reached. -/
  | turn (processed : Bool) (target : Nat) (phase : a.replica.phase = .promoting processed)
      (leader : a.feed.role = .leader) (hybrid : a.feed.settings.isHybrid)
      (endOfPush : a.feed.tracker.endOfPush) (waits : a.feed.consumesRealTime = false)
      (sampled : a.feed.catchUpTarget = some target ∨
        a.feed.catchUpTarget = none ∧ target = a.feed.versionRecords.length) :
      Performs a (a.standing.withFeed
        { a.feed.aimedAt target with phase := .samplingVersion processed })
  /-- The end of the version topic cannot be had. -/
  | miss (processed : Bool) (phase : a.replica.phase = .samplingVersion processed) :
      Performs a (a.standing.inPhase (.concluding processed))
  | sampleVersion (processed : Bool) (p : Phase)
      (phase : a.replica.phase = .samplingVersion processed) (next : p = .concluding processed ∨
        p = .samplingRegions processed a.feed.settings.realTimeRegions) :
      Performs a (a.standing.withFeed { a.feed with
        tracker := a.feed.tracker.withVersionEnd a.feed.versionRecords.length, phase := p })
  | sampleRegion (processed : Bool) (region : Option RegionId) (rest : List (Option RegionId))
      (phase : a.replica.phase = .samplingRegions processed (region :: rest))
      (answered : a.endAnswer? (a.feed.id.realTimeTopic region) =
        some (a.feed.log.records (a.feed.id.realTimeTopic region)).length) :
      Performs a (a.standing.withFeed { a.feed with
        tracker := a.feed.tracker.withRealTimeEnd region
          (a.feed.log.records (a.feed.id.realTimeTopic region)).length
        phase := .samplingRegions processed rest })
  /-- All regions are sampled, or the end of one cannot be had. -/
  | sampled (processed : Bool) (rest : List (Option RegionId))
      (phase : a.replica.phase = .samplingRegions processed rest)
      (done : rest = [] ∨ a.Stumbles) : Performs a (a.standing.inPhase (.concluding processed))
  | conclude (processed paused pushTimeout : Bool) (phase : a.replica.phase = .concluding processed)
      (warns : a.Warns pushTimeout) :
      Performs a { a.standing with
        course := { a.course.inPhase (.aligning false) with paused }, pushTimeout }
  | goOnline (processed paused : Bool) (phase : a.replica.phase = .concluding processed)
      (state : a.replica.state = .bootstrapping)
      (caughtUp : a.replica.tracker.isCaughtUp = .ok true) :
      Performs a { a.standing with
        course := { a.course.inPhase (.aligning false) with paused }, state := .online }
  /-- A record or commit failed after the end of the push, for another reason than that the source
  is away. -/
  | fail (e : IngestionError) (mishap : a.mishap? = some e) (final : e.isRetriable = false)
      (push : a.replica.tracker.endOfPush = true) :
      Performs a { a.standing with course := a.course.halted, state := .error }
  /-- A call met wrong settings. -/
  | refuse (op : Operation) (reason : String) (tried : a.replica.phase.retry?.isSome)
      (calls : op ∈ a.replica.phase.calls) (fault : a.fault? op = some (.configuration reason))
      (near : a.Near) :
      Performs a { a.standing with
        course := a.course.halted, state := .error, asked := a.questions ++ a.asked }
  | wait (phase : a.replica.phase = .parked) :
      Performs a { a.standing with course := a.course.waited }
  /-- A subscription is undone. -/
  | detach (consumer : Option Consumer) (subscriptions : SortedSet TopicPartition)
      (phase : a.replica.phase = .leaving) :
      Performs a (a.standing.withFeed { a.feed with consumer, subscriptions })
  | retire (phase : a.replica.phase = .leaving) :
      Performs a { a.standing.inPhase .stopped with state := .unsubscribed }

/-- Nothing was consumed or stored, and the replica did not start to leave. -/
structure Stays (a : Run) (v : Standing) : Prop where
  books : a.feed.SameBooks v.feed
  phase : v.feed.phase ≠ .leaving

/-- How a replica stood when an overflow ended its task: as before or after the step, but for its
phase, unless a position was out of range. -/
inductive BreaksOff (a : Run) : Standing → Prop where
  /-- The lag is out of range. -/
  | rest (asked : List (TopicPartition × Nat)) (heavy : a.replica.tracker.Heavy)
      (weighs : a.Stumbles ∨ a.replica.phase.weighs) : BreaksOff a { a.standing with asked }
  /-- The lag is out of range once all is done. -/
  | done {v : Standing} (performs : a.Performs v) (heavy : a.replica.tracker.Heavy)
      (stays : a.Stays v) : BreaksOff a v
  /-- The instant to ask the log about is out of range. -/
  | far (sought : a.sought?.isSome) (far : maxWord64 < a.replica.settings.rewindSeconds * 1000) :
      BreaksOff a a.standing
  /-- The position behind a control record of a real-time topic is out of range. -/
  | pass (w : Work) (m : ControlMessage) (phase : a.replica.phase = .working w)
      (stage : w.stage = .fresh) (payload : w.record.payload = .control m)
      (realTime : ¬ a.feed.readsVersion w) (last : maxWord64 ≤ w.record.offset) :
      BreaksOff a a.standing
  /-- A control record of the version topic was marked. -/
  | mark (w : Work) (m : ControlMessage) (realTimePositions : SortedMap (Option RegionId) Nat)
      (phase : a.replica.phase = .working w) (stage : w.stage = .fresh)
      (payload : w.record.payload = .control m) (version : a.feed.readsVersion w)
      (unfit : ¬ w.record.InRange) :
      BreaksOff a (a.standing.withFeed
        { a.feed with tracker := { a.feed.tracker.marked m with realTimePositions } })
  /-- A value was written. -/
  | store (w : Work) (value : Option ByteArray) (offset : Nat)
      (realTimePositions : SortedMap (Option RegionId) Nat) (phase : a.replica.phase = .working w)
      (stage : w.stage = .write value offset) (fine : a.mishap? = none)
      (unfit : ¬ a.Fits w offset) :
      BreaksOff a (a.standing.withFeed { a.feed with
        data := a.feed.data.write w.record.key ⟨value, offset⟩
        tracker := { a.feed.tracker with realTimePositions } })

/-! ## What is done aside -/

/-- What the surroundings of a replica and its pauses have in common before and after a step. -/
structure Upholds (a b : Run) : Prop where
  settings : b.site.settings = a.site.settings
  injected : b.site.injected = a.site.injected ∨ b.site.injected = []
  faults : ∀ op, b.site.faults.find? op = a.site.faults.find? op ∨
    op ∈ a.replica.phase.calls ∧ b.site.faults.find? op = (a.site.faults.next op).2.find? op
  storage : a.replica.phase.stores = false → b.site.storage = a.site.storage
  /-- Only a write that is made to fail uses up a failure. -/
  writes : ∀ offset, a.site.storage.writeFailures.findD offset 0 = 0 →
    b.site.storage.writeFailures.find? offset = a.site.storage.writeFailures.find? offset
  paced : ∀ host, a.replica.backoff.Of host → b.replica.backoff.Of host

variable {a b : Run}

theorem Upholds.refl (a : Run) : a.Upholds a :=
  ⟨rfl, .inl rfl, fun _ => .inl rfl, fun _ => rfl, fun _ _ => rfl, fun _ h => h⟩

/-- A genuine site stays genuine. -/
theorem Upholds.genuine (h : a.Upholds b) (genuine : a.site.Genuine) : b.site.Genuine where
  injected := h.injected.elim (·.trans genuine.injected) id
  faults op fault planned := by
    rcases h.faults op with same | ⟨-, same⟩
    · exact genuine.faults op fault (same.symm.trans planned)
    · exact (genuine.faults.next op).1 op fault (same.symm.trans planned)

/-! ## Steps -/

/-- What a step does. Where it is broken off, what it changed may be shown or not. -/
inductive Takes (a b : Run) : Prop where
  | rest (waits : a.isWaiting = true) (same : b = a)
  | wake (waits : a.isWaiting = false) (paused : a.course.paused = true)
      (standing : b.standing = { a.standing with course := a.course.woken })
      (shows : a.outlook.Shows → b.outlook.Shows)
  | act (waits : a.isWaiting = false) (awake : a.replica.wakeAt = none)
      (performs : a.Performs b.standing) (shows : a.outlook.Shows → b.outlook.Shows)
  | breakOff (waits : a.isWaiting = false) (awake : a.replica.wakeAt = none) {v : Standing}
      (breaks : a.BreaksOff v) (standing : b.standing = v.killed)
      (shown : a.outlook.Shows → b.replica.status.face = a.replica.status.face ∨
        b.replica.status.face = v.face)

end Run

end StoreFeed
