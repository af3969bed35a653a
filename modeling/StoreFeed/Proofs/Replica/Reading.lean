import StoreFeed.Proofs.Replica.ErrorPolicy
import StoreFeed.Proofs.Replica.Moves
import StoreFeed.Proofs.Replica.Progress

/-!
# Subscriptions, positions and the tracker

What a replica subscribed to, where its consumer stands and where its tracker goes on are three
accounts of the same thing, and each is changed at a moment of its own: a poll moves the consumer
before any record is processed, and a record that is done moves the tracker. `Run.InStep` says how
they agree whatever a replica waits for; the next offset of a subscribed partition moves only with a
record of it that is finished (`Run.next?_step`), and nothing that was polled is passed over
(`Run.pending_of_takesUp`).
-/

namespace StoreFeed

/-- Whether a replica is still about: it reads, or was halted and waits to be told to stop. -/
def Phase.isLive : Phase → Bool
  | .leaving | .stopped | .killed => false
  | _ => true

theorem Phase.isLive_of_live {p : Phase} (h : p.isOver = false) : p.isLive = true := by
  cases p <;> first | rfl | cases h

theorem Phase.live_or_parked {p : Phase} (h : p.isLive = true) :
    p.isOver = false ∨ p = .parked := by
  cases p <;> first | exact .inl rfl | exact .inr rfl | cases h

theorem Phase.ne_parked {p : Phase} (h : p.isOver = false) : p ≠ .parked := by
  rintro rfl
  cases h

theorem Phase.ne_killed {p : Phase} (h : p.isLive = true) : p ≠ .killed := by
  rintro rfl
  cases h

/-- Whether nothing but the next step is left to do for a record. -/
def Work.isLast (w : Work) : Bool :=
  match w.stage, w.record.payload with
  | .fresh, .control _ => true
  | .write .., _ => true
  | _, _ => false

theorem Work.isLast_iff {w : Work} : w.isLast = true ↔
    (∃ m, w.stage = .fresh ∧ w.record.payload = .control m) ∨
      ∃ value offset, w.stage = .write value offset := by
  unfold isLast
  split <;> simp_all

namespace Feed

variable {f g : Feed}

/-- What is subscribed is what the consumer has a position of, and the tracker knows the next offset
of it. -/
structure Attuned (f : Feed) : Prop where
  together : ∀ tp, f.subscriptions.contains tp = (f.position? tp).isSome
  known : ∀ tp, f.subscriptions.contains tp → ∃ next, f.next? tp = some next

/-- The version topic and a real-time topic are never desired together. -/
theorem desired_apart (f : Feed) (region : Option RegionId) :
    ¬ (f.desired.contains f.id.versionTopic ∧ f.desired.contains (f.id.realTimeTopic region)) := by
  rintro ⟨version, realTime⟩
  have apart : ∀ region, f.id.realTimeTopic region ≠ f.id.versionTopic := fun region heq =>
    f.id.versionTopic_ne_realTimeTopic region (congrArg TopicPartition.topic heq).symm
  unfold desired at version realTime
  split at version
  · rw [SortedSet.contains_ofMembers, List.mem_map] at version
    obtain ⟨region', _, heq⟩ := version
    exact apart region' heq
  · rw [if_neg ‹_›, SortedSet.contains_ofMembers, List.mem_singleton] at realTime
    exact apart region realTime

namespace Flow

theorem attuned (h : f.Flow) : f.Attuned where
  together tp := by
    cases hs : f.subscriptions.contains tp with
    | true =>
      obtain ⟨_, _, _, hpos⟩ := h.reads tp hs
      rw [hpos]
      rfl
    | false =>
      rw [h.unread tp hs]
      rfl
  known tp htp := by
    obtain ⟨next, hn, _⟩ := h.reads tp htp
    exact ⟨next, hn⟩

/-- What is subscribed while a replica polls and works is what its role asks for. -/
theorem subscriptions_eq (h : f.Flow) (reading : f.phase.isReading) :
    f.subscriptions = f.desired := by
  refine SortedMap.ext fun tp => ?_
  have same := h.aligned reading tp
  unfold SortedMap.contains at same
  cases hs : f.subscriptions.find? tp <;> cases hd : f.desired.find? tp <;> simp_all

/-- Outside a batch the consumer stands where the tracker goes on. -/
theorem level (h : f.Flow) (idle : ∀ w, f.phase ≠ .working w) {tp : TopicPartition}
    (htp : f.subscriptions.contains tp) :
    ∃ next, f.next? tp = some next ∧ f.position? tp = some next := by
  obtain ⟨next, hn, _, hpos⟩ := h.reads tp htp
  rw [pending_eq_nil idle, recordsOf_nil, List.length_nil, Nat.add_zero] at hpos
  exact ⟨next, hn, hpos⟩

end Flow

/-- The feed after a batch was polled. -/
def polled (f : Feed) (c : Consumer) (b : Backoff) (batch : List (TopicPartition × ChangeRecord)) :
    Feed :=
  { f with consumer := some c, phase := { f with consumer := some c }.nextPhase b batch false }

/-- A move that finishes no record changes no next offset of what is subscribed. -/
theorem Move.next?_eq (m : f.Move g) (flow : f.Flow) (idle : ∀ w, f.phase ≠ .working w)
    (ended : g.phase.isOver = false) {tp : TopicPartition} (htp : f.subscriptions.contains tp) :
    g.next? tp = f.next? tp := by
  cases m with
  | retire _ hover => rw [hover] at ended; cases ended
  | restore since next phase =>
    -- There is no consumer yet, so nothing is subscribed.
    have consumer := (flow.early (by rw [phase]; rfl)).1
    obtain ⟨_, _, _, hpos⟩ := flow.reads tp htp
    simp [position?, consumer] at hpos
  | attach first c tp' offset phase =>
    obtain ⟨_, desired, missing⟩ := flow.attaching first tp' offset phase
    refine flow.next?_attach desired offset ?_ htp
    rintro rfl
    rw [missing] at htp
    cases htp
  | turn =>
    unfold aimedAt
    split <;> rfl
  | breakOff w _ _ _ phase | passVersionControl w _ _ phase | passRealTimeControl w _ _ phase
  | storeVersion w _ _ _ phase | storeRealTime w _ _ _ phase => exact absurd phase (idle w)
  | _ => rfl

/-- Within one life the next offset of a partition never goes back. -/
theorem Progress.next?_le (h : f.Progress g) (prepared : f.Prepared) (hi : f.log.Indexed)
    (restored : f.phase.isUnrestored = false) (same : g.id = f.id) {tp : TopicPartition} {n : Nat}
    (hn : f.next? tp = some n) : ∃ n', g.next? tp = some n' ∧ n ≤ n' := by
  unfold next? at hn ⊢
  rw [same]
  by_cases hv : tp = f.id.versionTopic
  · rw [if_pos hv, Option.some.injEq] at hn
    rw [if_pos hv]
    exact ⟨_, rfl, hn ▸ h.position_le prepared hi restored⟩
  · rw [if_neg hv] at hn ⊢
    exact h.reaches restored ⟨n, hn, Nat.le_refl n⟩

/-- What was restored in one life stays restored. -/
theorem Progress.restored (h : f.Progress g) (restored : f.phase.isUnrestored = false) :
    g.phase.isUnrestored = false := by
  cases h with
  | stays _ _ _ _ unrestored => exact unrestored.trans restored
  | resumes _ phase' => exact phase'
  | applies _ _ _ _ phase' => exact phase'
  | stores _ _ _ _ _ _ _ _ phase' => exact phase'

end Feed

/-- Calls of a site that is not tampered with never fail for wrong settings. -/
theorem Run.not_configured {a : Run} (genuine : a.site.Genuine) (op : Operation) (reason : String) :
    a.fault? op ≠ some (.configuration reason) := by
  intro planned
  have reports := (genuine.faults.next op).2 _ planned
  unfold Operation.Reports at reports
  split at reports <;> simp at reports

namespace Run

variable {a : Run} {g : Course}

/-! ## At every moment -/

/-- How the subscriptions of a replica, its consumer and its tracker stand to each other. -/
structure InStep (a : Run) : Prop where
  /-- What is subscribed is what the consumer is subscribed to. -/
  together : ∀ tp, a.replica.subscriptions.contains tp = (a.feed.position? tp).isSome
  /-- From one alignment to the next safe point that is what the role asks for. -/
  desired : a.replica.phase.isReading → a.replica.subscriptions = a.replica.desiredSubscriptions
  /-- The version topic and a real-time topic are never polled together. -/
  apart : a.replica.phase = .polling → ∀ region,
    ¬ ((a.feed.position? a.replica.id.versionTopic).isSome ∧
      (a.feed.position? (a.replica.id.realTimeTopic region)).isSome)
  /-- Outside a batch the consumer stands where the tracker goes on: so at the start of every
  cycle. -/
  level : a.replica.phase.isOver = false → (∀ w, a.replica.phase ≠ .working w) →
    ∀ tp, a.replica.subscriptions.contains tp →
      ∃ next, a.feed.next? tp = some next ∧ a.feed.position? tp = some next
  /-- In a batch it stands behind what is left of it. -/
  behind : ∀ w, a.replica.phase = .working w → ∀ tp, a.replica.subscriptions.contains tp →
    ∃ next, a.feed.next? tp = some next ∧ a.feed.position? tp =
      some (next + (recordsOf tp ((w.topic, w.record) :: w.rest)).length)

theorem inStep_of_flow (flow : a.replica.phase.isOver = false → a.feed.Flow)
    (attuned : a.feed.Attuned) : a.InStep where
  together := attuned.together
  desired reading := by
    have live : a.replica.phase.isOver = false := by
      cases hp : a.replica.phase <;> first | rfl | (rw [hp] at reading; cases reading)
    exact (flow live).subscriptions_eq reading
  apart polling region := by
    have flow := flow (by rw [polling]; rfl)
    have reading : a.feed.phase.isReading := by
      show a.replica.phase.isReading
      rw [polling]
      rfl
    rintro ⟨version, realTime⟩
    rw [← attuned.together] at version realTime
    exact a.feed.desired_apart region
      ⟨(flow.aligned reading _).mp version, (flow.aligned reading _).mp realTime⟩
  level live idle tp htp := (flow live).level idle htp
  behind w working tp htp := by
    obtain ⟨next, hn, _, hpos⟩ := (flow (by rw [working]; rfl)).reads tp htp
    rw [show a.feed.pending = (w.topic, w.record) :: w.rest by
      simp [Feed.pending, show a.feed.phase = .working w from working]] at hpos
    exact ⟨next, hn, hpos⟩

/-! ## Where a replica is halted -/

/-- Only a record or a commit that fails halts a replica. -/
theorem Halts.isLive (genuine : a.site.Genuine) (h : a.Halts) : a.replica.phase.isLive = true := by
  cases h with
  | failed e mishap =>
    unfold mishap? at mishap
    split at mishap
    · rename_i hp
      rw [hp]
      rfl
    · rename_i hp
      rw [hp]
      rfl
    · cases mishap
  | misconfigured op reason fault => exact absurd fault (not_configured genuine op reason)

theorem of_parked (hp : a.replica.phase = .parked) :
    a.replica.phase.isLive = true ∧ a.feed = { a.feed with phase := .parked } := by
  refine ⟨by rw [hp]; rfl, ?_⟩
  rw [← hp]
  rfl

/-- A replica that is halted was about before, and keeps all but its phase. -/
theorem Does.of_parked (genuine : a.site.Genuine) (h : a.Does g) (hp : g.feed.phase = .parked) :
    a.replica.phase.isLive = true ∧ g.feed = { a.feed with phase := .parked } := by
  cases h with
  | rest => exact Run.of_parked hp
  | drift f paused like phase phase' => rw [hp] at phase'; cases phase'
  | poll | mark | pass | store => exact absurd hp (Phase.ne_parked (Feed.isOver_nextPhase ..))
  | look w p phase stage looks =>
    cases looks with
    | put | delete => exact absurd hp (Phase.ne_parked (Feed.isOver_settled ..))
    | update u => cases hp
  | merge => exact absurd hp (Phase.ne_parked (Feed.isOver_settled ..))
  | obey processed =>
    obtain ⟨_, _, _, phase, _, hphase, heq⟩ := a.course.obeyed_eq processed
    rw [heq] at hp
    rcases hphase with rfl | rfl <;> cases hp
  | halt halts => exact ⟨halts.isLive genuine, rfl⟩
  | wait phase =>
    obtain ⟨_, phase', _, heq⟩ := a.course.waited_eq
    rw [heq] at hp ⊢
    have hp : phase' = .parked := hp
    subst hp
    exact ⟨by rw [phase]; rfl, rfl⟩
  | detach consumer subscriptions phase =>
    have hp : a.replica.phase = .parked := hp
    rw [phase] at hp
    cases hp
  | _ => cases hp

theorem Goes.of_parked (genuine : a.site.Genuine) (h : a.Goes g) (hp : g.feed.phase = .parked) :
    a.replica.phase.isLive = true ∧ g.feed = { a.feed with phase := .parked } := by
  cases h with
  | rest => exact Run.of_parked hp
  | wake =>
    obtain ⟨_, _, _, phase, hphase, heq⟩ := a.course.woken_eq
    rw [heq] at hp ⊢
    have hp : phase = .parked := hp
    subst hp
    rcases hphase with hphase | hphase
    · exact ⟨(Run.of_parked hphase.symm).1, rfl⟩
    · cases hphase
  | act awake does => exact does.of_parked genuine hp
  | breakOff awake breaks => cases breaks <;> cases hp

theorem step_of_parked (genuine : a.site.Genuine) (hp : a.step.replica.phase = .parked) :
    a.replica.phase.isLive = true ∧ a.step.feed = { a.feed with phase := .parked } :=
  a.step_goes.of_parked genuine hp

/-- The accounts agree as long as a replica is about. -/
theorem attuned_step (genuine : a.site.Genuine) (attuned : a.replica.phase.isLive → a.feed.Attuned)
    (flow : a.step.replica.phase.isOver = false → a.step.feed.Flow)
    (live : a.step.replica.phase.isLive) : a.step.feed.Attuned := by
  rcases Phase.live_or_parked live with live | parked
  · exact (flow live).attuned
  · obtain ⟨was, same⟩ := step_of_parked genuine parked
    rw [same]
    exact ⟨(attuned was).together, (attuned was).known⟩

/-! ## Records that are finished -/

/-- The record of a partition that the next step finishes. -/
def finishes? (a : Run) (tp : TopicPartition) : Option ChangeRecord :=
  match a.replica.phase with
  | .working w =>
    if w.topic = tp ∧ w.isLast ∧ a.replica.wakeAt.isNone ∧
      a.mishap?.isNone then some w.record else none
  | _ => none

theorem finishes?_eq_some {tp : TopicPartition} {r : ChangeRecord} :
    a.finishes? tp = some r ↔ ∃ w, a.Finishes w ∧ w.topic = tp ∧ w.record = r := by
  unfold finishes?
  constructor
  · intro h
    split at h
    · rename_i w hp
      split at h
      · rename_i fits
        obtain ⟨topic, last, awake, fine⟩ := fits
        exact ⟨w, ⟨Option.isNone_iff_eq_none.mp awake, hp, Option.isNone_iff_eq_none.mp fine,
          Work.isLast_iff.mp last⟩, topic, Option.some.inj h⟩
      · cases h
    · cases h
  · rintro ⟨w, ⟨awake, phase, fine, last⟩, topic, rfl⟩
    rw [phase]
    dsimp only
    rw [if_pos ⟨topic, Work.isLast_iff.mpr last, by rw [awake]; rfl, by rw [fine]; rfl⟩]

theorem live_of_finishes? {tp : TopicPartition} {r : ChangeRecord} (h : a.finishes? tp = some r) :
    a.replica.phase.isOver = false := by
  obtain ⟨w, finishes, _⟩ := finishes?_eq_some.mp h
  exact finishes.live

/-- What is done to a record that is finished. -/
theorem Does.finished {w : Work} (genuine : a.site.Genuine) (flow : a.feed.Flow)
    (hi : a.feed.log.Indexed) (finishes : a.Finishes w) (h : a.Does g) :
    ∃ t b data, Feed.GoesPast { a.feed with data } w t ∧
      g.feed = Feed.finished { a.feed with data } t b w := by
  cases h with
  | mark w' m b hp stage payload version =>
    cases finishes.eq_of_working hp
    exact ⟨_, b, a.feed.data, flow.goesPast_version hi hp version rfl, rfl⟩
  | pass w' m b hp stage payload realTime =>
    cases finishes.eq_of_working hp
    have past := flow.goesPast_realTime hi hp realTime a.feed.tracker.versionPosition
    exact ⟨_, b, a.feed.data, past, rfl⟩
  | store w' value offset b hp stage fine =>
    cases finishes.eq_of_working hp
    have flow := flow.withData (a.feed.data.write w.record.key ⟨value, offset⟩)
    refine ⟨_, b, _, ?_, rfl⟩
    unfold Feed.stored
    split
    · rename_i version
      exact flow.goesPast_version hi hp version rfl
    · rename_i realTime
      exact flow.goesPast_realTime hi hp realTime _
  | look w' p hp stage looks =>
    -- Only a control message is finished at once.
    cases finishes.eq_of_working hp
    obtain ⟨m, payload⟩ := finishes.control_of_fresh stage
    cases looks <;> simp_all
  | merge w' _ _ hp stage | openTopic w' _ hp stage | publish w' _ _ _ hp stage =>
    cases finishes.eq_of_working hp
    exact (finishes.not_under_way (by simp [stage]) (by simp [stage])).elim
  | startOver w' b e hp retries => exact absurd retries.mishap (finishes.ne_mishap e)
  | halt halts =>
    cases halts with
    | failed e mishap => exact absurd mishap (finishes.ne_mishap e)
    | misconfigured op reason fault => exact absurd fault (not_configured genuine op reason)
  | rest phase | drift _ _ _ phase | restore _ _ phase | poll _ _ _ phase | commit _ phase
  | commitAgain _ _ _ phase | obey _ phase | wait phase | detach _ _ phase | retire phase =>
    rw [finishes.phase] at phase
    cases phase

theorem Goes.finished {w : Work} (genuine : a.site.Genuine) (flow : a.feed.Flow)
    (hi : a.feed.log.Indexed) (finishes : a.Finishes w) (h : a.Goes g) : g.feed.phase = .killed ∨
      ∃ t b data, Feed.GoesPast { a.feed with data } w t ∧
      g.feed = Feed.finished { a.feed with data } t b w := by
  have awake : a.replica.wakeAt = none := finishes.awake
  cases h with
  | rest waits => simp [isWaiting, Replica.isWaiting, finishes.phase, awake] at waits
  | wake paused => simp [course, awake] at paused
  | act awake does => exact .inr (does.finished genuine flow hi finishes)
  | breakOff awake breaks => cases breaks <;> exact .inl rfl

theorem step_finished {w : Work} (genuine : a.site.Genuine) (flow : a.feed.Flow)
    (hi : a.feed.log.Indexed) (finishes : a.Finishes w) : a.step.replica.phase = .killed ∨
      ∃ t b data, Feed.GoesPast { a.feed with data } w t ∧
      a.step.feed = Feed.finished { a.feed with data } t b w :=
  a.step_goes.finished genuine flow hi finishes

/-- A record that is not finished yet changes no next offset. -/
theorem Goes.next?_eq {w : Work} (phase : a.replica.phase = .working w)
    (unfinished : ¬ a.Finishes w)
    (h : a.Goes g) (ended : g.feed.phase.isOver = false) (tp : TopicPartition) :
    g.feed.next? tp = a.feed.next? tp := by
  cases h with
  | rest => rfl
  | wake =>
    obtain ⟨_, _, _, _, _, heq⟩ := a.course.woken_eq
    rw [heq]
    rfl
  | act awake does =>
    cases does.works (awake_of_paused awake) phase with
    | advances stage log fine same =>
      rw [same]
      rfl
    | finishes finishes => exact absurd finishes unfinished
    | startsOver backoff e retries same =>
      rw [same]
      rfl
    | halts halts same =>
      rw [same]
      rfl
  | breakOff awake breaks => cases breaks <;> cases ended

/-- A record that is finished is the next one of its partition. -/
theorem next?_of_finishes? (flow : a.feed.Flow) (hi : a.feed.log.Indexed) {tp : TopicPartition}
    {r : ChangeRecord} (finished : a.finishes? tp = some r) :
    a.feed.next? tp = some r.offset ∧ (a.feed.log.records tp)[r.offset]? = some r := by
  obtain ⟨w, finishes, rfl, rfl⟩ := finishes?_eq_some.mp finished
  obtain ⟨next, hn, hr⟩ := flow.next finishes.phase
  obtain rfl := hi _ _ _ hr
  exact ⟨hn, hr⟩

section Step

variable (genuine : a.site.Genuine) (hi : a.feed.log.Indexed) {tp : TopicPartition}
include genuine hi

/-- With a record finished the one after it is the next of its partition. -/
theorem next?_step_of_some (flow : a.feed.Flow) (live : a.step.replica.phase.isLive)
    {r : ChangeRecord} (finished : a.finishes? tp = some r) :
    a.step.feed.next? tp = some (r.offset + 1) := by
  obtain ⟨w, finishes, rfl, rfl⟩ := finishes?_eq_some.mp finished
  obtain ⟨t, b, data, past, same⟩ :=
    (step_finished genuine flow hi finishes).resolve_left (Phase.ne_killed live)
  rw [same]
  exact past.done

/-- Where no record of a subscribed partition is finished, its next offset stays. -/
theorem next?_step_of_none (flow : a.replica.phase.isOver = false → a.feed.Flow)
    (live : a.step.replica.phase.isLive) (htp : a.replica.subscriptions.contains tp)
    (unfinished : a.finishes? tp = none) : a.step.feed.next? tp = a.feed.next? tp := by
  rcases Phase.live_or_parked live with ended | parked
  · have move := (step_moved genuine).move
    have flow := flow (move.live ended)
    by_cases working : ∃ w, a.replica.phase = .working w
    · obtain ⟨w, phase⟩ := working
      by_cases finishes : a.Finishes w
      · obtain ⟨t, b, data, past, same⟩ :=
          (step_finished genuine flow hi finishes).resolve_left (Phase.ne_killed live)
        rw [same]
        refine past.others tp htp ?_
        rintro rfl
        rw [finishes?_eq_some.mpr ⟨w, finishes, rfl, rfl⟩] at unfinished
        cases unfinished
      · exact a.step_goes.next?_eq phase finishes ended tp
    · exact move.next?_eq flow (fun w phase => working ⟨w, phase⟩) ended htp
  · rw [(step_of_parked genuine parked).2]
    rfl

end Step

/-! ## Batches that are taken up -/

/-- With its next step a replica takes up a batch, or the rest of one. -/
inductive TakesUp (a : Run) (batch : List (TopicPartition × ChangeRecord)) : Prop where
  | polls (awake : a.replica.wakeAt = none) (phase : a.replica.phase = .polling)
      (polled : a.batch? = some batch)
  | goesOn (w : Work) (finishes : a.Finishes w) (rest : w.rest = batch)

theorem TakesUp.live {batch : List (TopicPartition × ChangeRecord)} (h : a.TakesUp batch) :
    a.replica.phase.isOver = false := by
  cases h with
  | polls awake phase =>
    rw [phase]
    rfl
  | goesOn w finishes => exact finishes.live

/-- A batch is what was injected, and what the consumer reads. -/
theorem exists_poll_of_batch? {batch : List (TopicPartition × ChangeRecord)}
    (polled : a.batch? = some batch) : ∃ c c' read, a.fault? .poll = none ∧
      a.replica.consumer = some c ∧
      c.poll a.commons.log a.site.settings.pollBatchSize = .ok (read, c') ∧
      batch = a.site.injected ++ read := by
  unfold batch? at polled
  split at polled
  · rename_i c fine hc
    split at polled
    · rename_i read c' hpoll
      exact ⟨c, c', read, fine, hc, hpoll, (Option.some.inj polled).symm⟩
    · cases polled
  · cases polled

/-- A poll that gets a batch does nothing else. -/
theorem Performs.polled {v : Standing} (h : a.Performs v) (polls : a.replica.phase = .polling)
    (calm : ¬ a.Stumbles) {c c' : Consumer} (hc : a.replica.consumer = some c)
    {read : List (TopicPartition × ChangeRecord)}
    (hpoll : c.poll a.commons.log a.site.settings.pollBatchSize = .ok (read, c')) :
    ∃ b, v.feed = a.feed.polled c' b (a.site.injected ++ read) := by
  cases h with
  | poll c₀ c₁ batch phase consumer fine polled =>
    cases hc.symm.trans consumer
    cases hpoll.symm.trans polled
    exact ⟨_, rfl⟩
  | again p pushTimeout next stumbles => exact absurd stumbles calm
  | refuse op reason tried calls fault => exact absurd (.planned op _ calls fault) calm
  | fail e mishap => exact absurd (.mishap e mishap) calm
  | _ => simp_all

/-- What a poll does that gets a batch. -/
theorem step_polled (awake : a.replica.wakeAt = none) (phase : a.replica.phase = .polling)
    (fine : a.fault? .poll = none) {c c' : Consumer} (hc : a.replica.consumer = some c)
    {read : List (TopicPartition × ChangeRecord)}
    (hpoll : c.poll a.commons.log a.site.settings.pollBatchSize = .ok (read, c')) :
    a.step.replica.phase = .killed ∨
      ∃ b, a.step.feed = a.feed.polled c' b (a.site.injected ++ read) := by
  have calm : ¬ a.Stumbles := by
    refine not_stumbles (fun op called => ?_) (by simp [hc])
      (mishap?_of_phase (by simp [phase, Phase.chapter]))
    rw [phase, Phase.calls, List.mem_singleton] at called
    subst called
    refine ⟨fine, fun _ => ?_⟩
    cases available : a.commons.log.available with
    | true => rfl
    | false =>
      unfold Consumer.poll Log.checkAvailable at hpoll
      rw [available] at hpoll
      cases hpoll
  obtain ⟨v, performs, standing⟩ := step_performs awake (phase ▸ rfl) calm (phase ▸ rfl)
    (a.sought?_of_phase (by simp [phase])) (by simp [phase])
  rcases standing with same | ⟨-, same⟩
  · obtain ⟨b, polled⟩ := performs.polled phase calm hc hpoll
    exact .inr ⟨b, (congrArg Standing.feed same).trans polled⟩
  · exact .inl (congrArg (fun v : Standing => v.feed.phase) same)

/-- Nothing of a batch is passed over: whatever is taken up is left to be processed, unless an
overflow ends the task before. -/
theorem pending_of_takesUp (genuine : a.site.Genuine) (hi : a.feed.log.Indexed)
    (flow : a.feed.Flow) {batch : List (TopicPartition × ChangeRecord)} (h : a.TakesUp batch) :
    a.step.replica.phase = .killed ∨ a.step.feed.pending = batch := by
  cases h with
  | polls awake phase polled =>
    obtain ⟨c, c', read, fine, hc, hpoll, rfl⟩ := exists_poll_of_batch? polled
    rcases step_polled awake phase fine hc hpoll with killed | ⟨b, same⟩
    · exact .inl killed
    · rw [genuine.injected, List.nil_append] at same ⊢
      rw [same]
      exact .inr (Feed.Flow.pending_of_faces (flow.faces_poll phase hc hpoll) hi)
  | goesOn w finishes rest =>
    subst rest
    rcases step_finished genuine flow hi finishes with killed | ⟨t, b, data, past, same⟩
    · exact .inl killed
    · rw [same]
      have faces := (flow.withData data).faces_finished hi finishes.phase past
      exact .inr (Feed.Flow.pending_of_faces faces hi)

end Run

end StoreFeed
