import StoreFeed.Proofs.Replica.Life

/-!
# Every step keeps its course

What a step can do, read as a change of the course: a step of a replica does one of the things that
`Run.Goes` lists (`Run.step_goes`). Nothing is assumed of the faults of calls or of the records that
are polled.
-/

namespace StoreFeed

/-- To look whether a target is reached neither consumes nor stores anything. -/
theorem Feed.like_aimedAt (f : Feed) (target : Nat) : f.Like (f.aimedAt target) := by
  unfold aimedAt
  split <;> exact ⟨rfl, rfl, rfl, rfl, rfl, rfl⟩

/-- A call outside a batch is made, and tried again, outside a batch. -/
theorem Phase.isFree_of_retry? {p q : Phase} (h : p.retry? = some q) :
    p.isFree = true ∧ q.isFree = true := by
  cases p <;> first | cases h; exact ⟨rfl, rfl⟩ | cases h

namespace Run

variable {a : Run} {v : Standing}

/-- A replica that goes to another phase, outside a batch. -/
theorem does_inPhase {p : Phase} (free : a.replica.phase.isFree = true) (free' : p.isFree = true)
    (paused : Bool) : a.Does { a.course.inPhase p with paused } :=
  .drift { a.feed with phase := p } paused ⟨rfl, rfl, rfl, rfl, rfl, rfl⟩ free free'

/-- A replica that goes about, outside a batch. -/
theorem does_about {p : Phase} (phase : a.replica.phase = p) (free : p.isFree = true) {f : Feed}
    (like : a.feed.Like f) (free' : f.phase.isFree = true) :
    a.Does { a.course with feed := f } :=
  .drift f a.course.paused like (phase ▸ free) free'

/-- What a replica can do that is not broken off, as a change of its course. -/
theorem Performs.does (h : a.Performs v) : a.Does v.course := by
  have same : a.feed.Like a.feed := .refl _
  cases h with
  | start since phase => exact does_about phase rfl { same with } rfl
  | again p pushTimeout next =>
    obtain ⟨free, free'⟩ := Phase.isFree_of_retry? next
    exact does_inPhase free free' true
  | restore since next phase => exact .restore since next phase
  | acquire since phase => exact does_about phase rfl { same with } rfl
  | drop first c tp rest phase =>
    exact does_about phase rfl { same with } (congrArg Phase.isFree phase)
  | aim first tp offset phase => exact does_about phase rfl { same with } rfl
  | attach first c tp offset phase =>
    refine does_about phase rfl { same with versionPosition := ?_, endOfPush := ?_ } rfl <;>
      dsimp only [Standing.withFeed] <;> split <;> rfl
  | align first phase => exact does_about phase rfl { same with } rfl
  | poll c c' batch phase consumer fine polled =>
    exact .poll (some c') _ _ phase (a.batch?_of_poll fine consumer polled)
  | look w p phase stage looks => exact .look w p phase stage looks
  | merge w u value phase stage fine merged => exact .merge w u value phase stage fine merged
  | openTopic w value phase stage fine => exact .openTopic w value phase stage fine
  | publish w value phase stage fine => exact .publish w value _ _ phase stage fine
  | mark w m phase stage payload version => exact .mark w m _ phase stage payload version
  | pass w m phase stage payload realTime => exact .pass w m _ phase stage payload realTime
  | store w value offset phase stage fine => exact .store w value offset _ phase stage fine
  | startOver w b e pushTimeout phase retries => exact .startOver w b e phase retries
  | commit b phase fine => exact .commit b phase fine
  | commitAgain b b' e pushTimeout phase retries => exact .commitAgain b b' e phase retries
  | obey processed phase => exact .obey processed phase
  | promote processed phase => exact does_about phase rfl { same with } rfl
  | turn processed target phase =>
    exact does_about phase rfl { a.feed.like_aimedAt target with } rfl
  | miss processed phase => exact does_about phase rfl { same with } rfl
  | sampleVersion processed p phase next =>
    refine does_about phase rfl { same with } ?_
    rcases next with rfl | rfl <;> rfl
  | sampleRegion processed region rest phase => exact does_about phase rfl { same with } rfl
  | sampled processed rest phase => exact does_about phase rfl { same with } rfl
  | conclude processed paused pushTimeout phase => exact does_inPhase (phase ▸ rfl) rfl paused
  | goOnline processed paused phase => exact does_inPhase (phase ▸ rfl) rfl paused
  | fail e mishap final push => exact .halt (.failed e mishap final push)
  | refuse op reason tried calls fault => exact .halt (.misconfigured op reason fault)
  | wait phase => exact .wait phase
  | detach consumer subscriptions phase => exact .detach consumer subscriptions phase
  | retire phase => exact .retire phase

/-- What an overflow leaves of a step, as a change of its course. -/
theorem BreaksOff.breaks (h : a.BreaksOff v) : a.Breaks v.course.killed := by
  cases h with
  | rest | far | pass => exact .rest
  | done performs => exact .done performs.does
  | mark w m positions phase stage payload =>
    refine .mark w m _ phase stage payload ?_ fun push => LagTracker.endOfPush_marked push m
    cases m <;> rfl
  | store w value offset positions phase stage fine =>
    exact .store w value offset _ phase stage fine rfl rfl

/-- What a step does to the course of a replica. -/
theorem step_goes (a : Run) : a.Goes a.step.course := by
  have course : a.step.course = a.step.standing.course := rfl
  have awake : a.replica.wakeAt = none → a.course.paused = false := congrArg Option.isSome
  rw [course]
  cases a.step_takes with
  | rest waits same =>
    rw [same]
    exact .rest waits
  | wake waits paused standing =>
    rw [standing]
    exact .wake paused
  | act waits wakeAt performs => exact .act (awake wakeAt) performs.does
  | breakOff waits wakeAt breaks standing =>
    rw [standing]
    exact .breakOff (awake wakeAt) breaks.breaks

/-- At the safe point nothing else is done. -/
theorem Performs.obeyed {processed : Bool} (h : a.Performs v)
    (phase : a.replica.phase = .safePoint processed) : v.course = a.course.obeyed processed := by
  cases h with
  | obey processed' phase' =>
    cases phase.symm.trans phase'
    rfl
  | fail e mishap => cases mishap.symm.trans (mishap?_of_phase (by simp [phase, Phase.chapter]))
  | _ => simp_all [Phase.retry?]

/-- At a safe point all commands take effect. -/
theorem step_obeyed {processed : Bool} (awake : a.replica.wakeAt = none)
    (phase : a.replica.phase = .safePoint processed) :
    a.step.course = a.course.obeyed processed ∨
      a.course.informed.stopRequested = false ∧
        a.step.course = (a.course.obeyed processed).killed := by
  have fine : a.mishap? = none := mishap?_of_phase (by simp [phase, Phase.chapter])
  obtain ⟨v, performs, standing⟩ := step_performs awake (phase ▸ rfl)
    (not_stumbles_of_calls (phase ▸ rfl) (phase ▸ rfl) fine) (phase ▸ rfl)
    (a.sought?_of_phase (by simp [phase]))
    (by simp [phase])
  have obeyed := performs.obeyed phase
  show a.step.standing.course = _ ∨ _ ∧ a.step.standing.course = _
  rcases standing with same | ⟨stays, same⟩
  · rw [same]
    exact .inl obeyed
  · rw [same]
    refine .inr ⟨Bool.eq_false_iff.mpr fun stop => stays.phase ?_, congrArg Course.killed obeyed⟩
    show v.course.feed.phase = .leaving
    rw [obeyed, Course.obeyed, if_pos stop]
    rfl

end Run

/-! ## Lives -/

/-- The commands that arrive. -/
def Happening.commands : Happening → List Command
  | .step => []
  | .around _ _ commands _ => commands

/-- The surroundings change the log of a course, and what is to be heard. -/
theorem Run.course_surrounded (run : Run) (site : Site) (commons : Commons)
    (commands : List Command) (connected : Bool) :
    (run.surrounded site commons commands connected).course = { run.course with
      feed := { run.feed with log := commons.log }
      inbox := run.replica.inbox ++ commands
      connected } := by
  have kept : (run.surrounded site commons commands connected).site.storage.data run.replica.id =
      run.site.storage.data run.replica.id := by
    simp [surrounded, Storage.data, SortedMap.findD]
  exact congrArg (fun data => { run.course with
    feed := { run.feed with log := commons.log, data }
    inbox := run.replica.inbox ++ commands
    connected }) kept

namespace Life

/-- The commands that arrive at a moment. -/
def commandsAt (l : Life) (n : Nat) : List Command :=
  match l.happenings[n]? with
  | some h => h.commands
  | none => []

/-- The commands that have arrived. -/
def commands (l : Life) (n : Nat) : List Command := (l.happenings.take n).flatMap Happening.commands

theorem commands_succ (l : Life) (n : Nat) :
    l.commands (n + 1) = l.commands n ++ l.commandsAt n := by
  unfold commands commandsAt
  rw [List.take_add_one, List.flatMap_append]
  cases l.happenings[n]? <;> simp

/-- From one moment to the next the replica goes on, or what surrounds it changes. -/
theorem goes_or_around (l : Life) (n : Nat) :
    (l.Steps n ∧ l.commandsAt n = [] ∧ (l.moment n).Goes (l.moment (n + 1)).course) ∨
      ∃ log connected, (l.moment (n + 1)).course = { (l.moment n).course with
        feed := { (l.moment n).feed with log }
        inbox := (l.moment n).replica.inbox ++ l.commandsAt n
        connected } := by
  unfold commandsAt
  rw [moment_succ]
  cases h : l.happenings[n]? with
  | none =>
    refine .inr ⟨(l.moment n).feed.log, (l.moment n).course.connected, ?_⟩
    simp only [List.append_nil]
    rfl
  | some happening =>
    cases happening with
    | step => exact .inl ⟨h, rfl, Run.step_goes _⟩
    | around site commons commands connected =>
      exact .inr ⟨commons.log, connected, Run.course_surrounded ..⟩

end Life

end StoreFeed
