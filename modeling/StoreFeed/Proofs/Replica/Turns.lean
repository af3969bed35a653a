import StoreFeed.Proofs.Replica.Walk

/-!
# Every step is a turn

What a step can do, read as a change of the outlook: a step of a replica that shows how it is does
one of the things that `Run.Turns` lists, or is broken off in one (`Run.step_stepsTo`). Nothing is
assumed of the faults of calls or of the records that are polled.
-/

namespace StoreFeed

/-- After a record comes the next one, or the commit. -/
theorem Feed.chapter_nextPhase (f : Feed) (b : Backoff)
    (batch : List (TopicPartition × ChangeRecord)) :
    (f.nextPhase b batch true).chapter = .batching := by
  induction batch with
  | nil => rfl
  | cons e rest ih =>
    unfold nextPhase
    split
    · exact ih
    · split
      · exact ih
      · rfl

/-- A poll may bring no record. -/
theorem Feed.leadsTo_nextPhase (f : Feed) (b : Backoff)
    (batch : List (TopicPartition × ChangeRecord)) (processed : Bool) :
    Chapter.leadsTo .cycling (f.nextPhase b batch processed).chapter := by
  rcases f.nextPhase_cases b batch processed with hp | hp | ⟨_, _, _, hp⟩ <;> rw [hp] <;> rfl

/-- From a record in hand a replica goes on to the batch. -/
theorem Feed.chapter_settled (f : Feed) (w : Work) (value : Option ByteArray) :
    (f.settled w value).chapter = .batching := by
  unfold settled
  split <;> rfl

/-- To go on from a checkpoint is to know whether the push had ended. -/
theorem LagTracker.restored_eq (t : LagTracker) (c : Checkpoint) : ∃ realTimePositions,
    t.restored c = { t with
      versionPosition := c.versionOffset
      endOfPush := t.endOfPush || c.endOfPush
      startOfBufferReplay := t.startOfBufferReplay || c.startOfBufferReplay
      realTimePositions } := by
  have positions : ∀ (ps : List RealTimePosition) (t : LagTracker), ∃ realTimePositions,
      ps.foldl (fun t p => t.atRealTimePosition p.region p.offset) t =
        { t with realTimePositions } := by
    intro ps
    induction ps with
    | nil => exact fun t => ⟨_, rfl⟩
    | cons p rest ih =>
      intro t
      obtain ⟨m, hm⟩ := ih (t.atRealTimePosition p.region p.offset)
      exact ⟨m, hm⟩
  exact positions c.realTime _

/-- What was known of the push stays where there is no checkpoint. -/
theorem LagTracker.resumed_leaves (t : LagTracker) (checkpoint : Option Checkpoint) :
    (t.resumed checkpoint).threshold = t.threshold ∧
      (t.resumed checkpoint).realTimeEnds = t.realTimeEnds ∧
      (t.resumed checkpoint).endOfPush = (t.endOfPush || checkpoint.any (·.endOfPush)) := by
  cases checkpoint with
  | none => exact ⟨rfl, rfl, (Bool.or_false _).symm⟩
  | some c =>
    obtain ⟨positions, restored⟩ := t.restored_eq c
    have resumed : t.resumed (some c) = _ := restored
    rw [resumed]
    exact ⟨rfl, rfl, rfl⟩

/-- A control message of the version topic marks the end of the push, or leaves it. -/
theorem LagTracker.endOfPush_marked_eq (t : LagTracker) (m : ControlMessage) :
    (t.marked m).endOfPush = (t.endOfPush || m = .endOfPush) := by
  cases m <;> simp [marked]

theorem LagTracker.pastVersionRecord_eq (t : LagTracker) (r : ChangeRecord) : ∃ realTimePositions,
    t.pastVersionRecord r = { t with versionPosition := r.offset + 1, realTimePositions } := by
  unfold pastVersionRecord stamped
  cases r.origin <;> exact ⟨_, rfl⟩

/-- Once a value is written only positions move. -/
theorem Feed.stored_eq (f : Feed) (w : Work) (offset : Nat) : ∃ versionPosition realTimePositions,
    f.stored w offset = { f.tracker with versionPosition, realTimePositions } := by
  unfold stored
  split
  · obtain ⟨positions, past⟩ := f.tracker.pastVersionRecord_eq w.record
    exact ⟨_, positions, past⟩
  · exact ⟨_, _, rfl⟩

theorem Phase.live_of_batching {p : Phase} (h : p.chapter = .batching) : p.isOver = false := by
  cases p <;> first | rfl | cases h

/-- A call outside a batch is made in a chapter where calls are made, which its retry leads on. -/
theorem Phase.leadsTo_of_retry? {p q : Phase} (h : p.retry? = some q) :
    p.chapter.leadsTo q.chapter := by
  cases p with
  | aligning first | attaching first =>
    cases h
    cases first <;> rfl
  | restoring | acquiring | polling =>
    cases h
    rfl
  | _ => cases h

theorem Phase.leadsTo_of_working (w : Work) {p : Phase} (h : p.chapter = .batching) :
    (Phase.working w).chapter.leadsTo p.chapter := by
  rw [h]
  rfl

namespace Run

variable {a : Run} {v : Standing}

/-- Only a record or a commit meets an error. -/
theorem batching_of_mishap? {e : IngestionError} (h : a.mishap? = some e) :
    a.replica.phase.chapter = .batching := by
  unfold mishap? at h
  split at h
  · rename_i phase
    rw [phase]
    rfl
  · rename_i phase
    rw [phase]
    rfl
  · cases h

theorem mishap?_of_phase (h : a.replica.phase.chapter ≠ .batching) : a.mishap? = none := by
  cases mishap : a.mishap? with
  | none => rfl
  | some e => exact absurd (batching_of_mishap? mishap) h

section Turns

variable (shows : a.outlook.Shows)
include shows

/-- The work goes on, and what there is to show stays. -/
theorem turns_work {p q : Phase} (phase : a.replica.phase = q) (paused : Bool)
    (next : q.chapter.leadsTo p.chapter) :
    a.Turns { a.standing.outlook with phase := p, paused } := by
  rw [← shows.outlook_eq]
  exact .work p paused (phase ▸ next)

/-- The work goes on, and the push-timeout flag may be raised. -/
theorem turns_warned {p q : Phase} {pushTimeout : Bool} (phase : a.replica.phase = q)
    (paused : Bool) (next : q.chapter.leadsTo p.chapter) (warns : a.Warns pushTimeout) :
    a.Turns { a.standing with
      course := { a.course.inPhase p with paused }, pushTimeout }.outlook := by
  rcases warns with rfl | ⟨rfl, push⟩
  · exact turns_work shows phase paused next
  · exact .raise p paused (phase ▸ next) push

/-- The replica starts to leave. -/
theorem turns_leave {paused : Bool} (awake : paused = false) (stops : a.outlook.paused ∨
    a.replica.phase.chapter = .cycling ∨ a.replica.phase = .parked) :
    a.Turns { a.standing.outlook with phase := .leaving, paused } := by
  subst awake
  rw [← shows.outlook_eq]
  exact .leave stops

theorem turns_rest : a.Turns a.standing.outlook := by
  rw [← shows.outlook_eq]
  exact .rest

/-- The last checkpoint is read. -/
theorem turns_restore {since : Nat} (next : Nat) (phase : a.replica.phase = .restoring since) :
    a.Turns (a.standing.withFeed { a.feed with
      phase := .acquiring next
      tracker := a.feed.tracker.resumed a.feed.data.checkpoint }).outlook := by
  have restores := Turns.restore since next phase
  rw [shows.outlook_eq] at restores
  obtain ⟨threshold, realTimeEnds, endOfPush⟩ :=
    a.feed.tracker.resumed_leaves a.feed.data.checkpoint
  unfold Standing.outlook Standing.withFeed
  dsimp only
  rw [threshold, realTimeEnds, endOfPush]
  exact restores

/-- A control message of the version topic takes effect. -/
theorem turns_mark {w : Work} {m : ControlMessage} (phase : a.replica.phase = .working w)
    (stage : w.stage = .fresh) (payload : w.record.payload = .control m) {p : Phase}
    (next : p.chapter = .batching) :
    a.Turns { a.standing.outlook with
      phase := p, endOfPush := (a.feed.tracker.marked m).endOfPush } := by
  have marks := Turns.mark w m p phase stage payload next
  rw [shows.outlook_eq] at marks
  rw [LagTracker.endOfPush_marked_eq]
  exact marks

/-- All commands take effect. -/
theorem turns_obey {processed : Bool} (phase : a.replica.phase = .safePoint processed)
    (awake : a.course.paused = false) :
    a.Turns { a.standing with course := a.course.obeyed processed }.outlook := by
  obtain ⟨f, pendingRole, stopRequested, p, role, hp, obeyed⟩ := a.course.obeyed_eq processed
  have goesOn := turns_work shows (p := .promoting processed) phase a.course.paused rfl
  have leaves := turns_leave shows awake (.inr (.inl (by rw [phase]; rfl)))
  rw [obeyed]
  rcases role with rfl | ⟨role, rfl⟩ <;> rcases hp with rfl | rfl
  · exact leaves
  · exact goesOn
  · unfold Feed.inRole
    split <;> exact leaves
  · unfold Feed.inRole
    split <;> exact goesOn

omit shows in
/-- The replica halts. -/
theorem turns_halt (busy : a.replica.phase.chapter.isBusy) (awake : a.course.paused = false)
    (asked : List (TopicPartition × Nat)) :
    a.Turns { a.standing with course := a.course.halted, state := .error, asked }.outlook := by
  have halts := Turns.halt busy
  have same : { a.standing with course := a.course.halted, state := .error, asked }.outlook =
      a.outlook.halted.displayed :=
    congrArg (fun paused => { a.outlook.halted.displayed with paused }) awake
  rw [same]
  exact halts

omit shows in
/-- The replica ends. -/
theorem turns_retire (phase : a.replica.phase = .leaving) (awake : a.course.paused = false) :
    a.Turns { a.standing.inPhase .stopped with state := .unsubscribed }.outlook := by
  have retires := Turns.retire phase
  rw [← awake] at retires
  exact retires

/-- What a replica can do that is not broken off, as a change of its outlook. -/
theorem Performs.turns (h : a.Performs v) (awake : a.course.paused = false) :
    a.Turns v.outlook := by
  cases h with
  | start since phase => exact .enter since phase
  | again p pushTimeout next stumbles warns =>
    exact turns_warned shows rfl true (Phase.leadsTo_of_retry? next) warns
  | restore since next phase => exact turns_restore shows next phase
  | acquire since phase => exact turns_work shows phase _ rfl
  | drop first c tp rest phase =>
    exact turns_work shows (p := a.replica.phase) phase _ (by rw [phase]; cases first <;> rfl)
  | aim first tp offset phase => exact turns_work shows phase _ (by cases first <;> rfl)
  | attach first c tp offset phase =>
    -- A position in a real-time topic is nothing that the outlook tells of.
    have work := turns_work shows (p := .aligning first) phase a.course.paused
      (by cases first <;> rfl)
    by_cases version : tp = a.feed.id.versionTopic
    · rw [if_pos version]
      exact work
    · rw [if_neg version]
      exact work
  | align first phase =>
    cases first with
    | false => exact turns_work shows phase _ rfl
    | true => exact .bootstrap phase
  | poll c c' batch phase => exact turns_work shows phase _ (Feed.leadsTo_nextPhase ..)
  | look w p phase stage looks =>
    refine turns_work shows phase _ (Phase.leadsTo_of_working w ?_)
    cases looks with
    | put | delete => exact Feed.chapter_settled ..
    | update => rfl
  | merge w u value phase =>
    exact turns_work shows phase _ (Phase.leadsTo_of_working w (Feed.chapter_settled ..))
  | openTopic w value phase => exact turns_work shows phase _ rfl
  | publish w value phase => exact turns_work shows phase _ rfl
  | mark w m phase stage payload version fits =>
    obtain ⟨positions, past⟩ := (a.feed.tracker.marked m).pastVersionRecord_eq w.record
    rw [past]
    cases m <;> exact turns_mark shows phase stage payload (Feed.chapter_nextPhase ..)
  | pass w m phase =>
    exact turns_work shows phase _ (Phase.leadsTo_of_working w (Feed.chapter_nextPhase ..))
  | store w value offset phase =>
    obtain ⟨versionPosition, positions, stored⟩ := a.feed.stored_eq w offset
    unfold Standing.outlook Standing.withFeed Feed.finished
    dsimp only
    rw [stored, ReplicaData.checkpoint_write]
    exact turns_work shows phase _ (Phase.leadsTo_of_working w (Feed.chapter_nextPhase ..))
  | startOver w b e pushTimeout phase retries pauses warns =>
    exact turns_warned shows phase true rfl warns
  | commit b phase =>
    have commits := Turns.commit b phase
    rw [shows.outlook_eq] at commits
    exact commits
  | commitAgain b b' e pushTimeout phase retries pauses warns =>
    exact turns_warned shows phase true rfl warns
  | obey processed phase => exact turns_obey shows phase awake
  | promote processed phase => exact turns_work shows phase _ rfl
  | turn processed target phase =>
    have work := turns_work shows (p := .samplingVersion processed) phase a.course.paused rfl
    show a.Turns (a.standing.withFeed { a.feed.aimedAt target with phase := _ }).outlook
    unfold Feed.aimedAt
    split <;> exact work
  | miss processed phase => exact turns_work shows phase _ rfl
  | sampleVersion processed p phase next =>
    rcases next with rfl | rfl
    · exact turns_work shows phase _ rfl
    · have surveys := Turns.survey processed phase
      rw [shows.outlook_eq] at surveys
      exact surveys
  | sampleRegion processed region rest phase answered =>
    have samples := Turns.sample processed region rest _ awake phase answered
    rw [shows.outlook_eq] at samples
    exact samples
  | sampled processed rest phase => exact turns_work shows phase _ rfl
  | conclude processed paused pushTimeout phase warns =>
    exact turns_warned shows phase paused rfl warns
  | goOnline processed paused phase state caughtUp =>
    exact .goOnline processed paused phase state caughtUp
  | fail e mishap => exact turns_halt (by rw [batching_of_mishap? mishap]; rfl) awake a.asked
  | refuse op reason tried =>
    obtain ⟨p, next⟩ := Option.isSome_iff_exists.mp tried
    exact turns_halt (Chapter.isBusy_of_leadsTo (Phase.leadsTo_of_retry? next)).1 awake _
  | wait phase =>
    obtain ⟨inbox, p, hp, waited⟩ := a.course.waited_eq
    rw [waited]
    rcases hp with rfl | rfl
    · exact turns_rest shows
    · exact turns_leave shows awake (.inr (.inr phase))
  | detach => exact turns_rest shows
  | retire phase => exact turns_retire phase awake

/-- What an overflow leaves of a step, as a change of its outlook. -/
theorem BreaksOff.turns (h : a.BreaksOff v) (awake : a.course.paused = false) :
    a.Turns v.outlook := by
  cases h with
  | rest | far | pass => exact turns_rest shows
  | done performs => exact performs.turns shows awake
  | mark w m positions phase stage payload =>
    have marks := turns_mark shows phase stage payload (p := .working w) rfl
    rw [← phase] at marks
    cases m <;> exact marks
  | store w value offset positions phase =>
    have work := turns_work shows (p := a.replica.phase) phase a.course.paused (by rw [phase]; rfl)
    unfold Standing.outlook Standing.withFeed
    dsimp only
    rw [ReplicaData.checkpoint_write]
    exact work

end Turns

/-- What a step does to the outlook of a replica that shows how it is, or whose task was ended. -/
theorem step_stepsTo (h : a.replica.phase = .killed ∨ a.outlook.Shows) :
    a.StepsTo a.step.outlook := by
  rcases h with killed | shows
  · rw [step_of_isWaiting]
    · exact .turn .rest
    · simp [isWaiting, Replica.isWaiting, killed]
  · have awake : a.replica.wakeAt = none → a.course.paused = false := congrArg Option.isSome
    cases a.step_takes with
    | rest waits same =>
      rw [same]
      exact .turn .rest
    | wake waits paused standing shown =>
      obtain ⟨pendingRole, stopRequested, inbox, p, hp, woken⟩ := a.course.woken_eq
      rw [(shown shows).outlook_eq, standing, woken]
      rcases hp with rfl | rfl
      · have wakes := Turns.wake (a := a)
        rw [shows.outlook_eq] at wakes
        exact .turn wakes
      · exact .turn (turns_leave shows rfl (.inl paused))
    | act waits wakeAt performs shown =>
      rw [(shown shows).outlook_eq]
      exact .turn (performs.turns shows (awake wakeAt))
    | breakOff waits wakeAt breaks standing shown =>
      rw [outlook_eq, standing]
      exact .breakOff (breaks.turns shows (awake wakeAt)) _ (shown shows)

end Run

end StoreFeed
