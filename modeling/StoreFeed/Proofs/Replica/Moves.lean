import StoreFeed.Proofs.Replica.Walk

/-!
# Every step is a move

What a step can do, read as a change of the feed: a step of a replica on a genuine site is a
`Feed.Move` (`Run.step_moved`).
-/

namespace StoreFeed

/-- A write that fails is no reason to try again as if the source were away. -/
theorem Storage.isRetriable_of_write {s : Storage} {r : ReplicaId} {key : ByteArray}
    {stored : Stored} {e : IngestionError} (h : (s.write r key stored).1 = .error e) :
    e.isRetriable = false := by
  unfold write at h
  split at h <;> cases h
  rfl

/-- A call outside a batch is tried again in the phase that made it, or in one that leads to it. -/
theorem Phase.leads_of_retry? {p q : Phase} (h : p.retry? = some q) : q = p ∨ p.Leads q := by
  cases p with
  | restoring | acquiring | aligning =>
    cases h
    exact .inl rfl
  | attaching first tp offset =>
    cases h
    exact .inr (.alignAgain first tp offset)
  | polling =>
    cases h
    exact .inr .pollAgain
  | _ => cases h

namespace Run

/-- The run is one move away from a feed. -/
structure Moved (run : Run) (f : Feed) : Prop where
  move : f.Move run.feed
  genuine : run.site.Genuine

variable {a : Run} {v : Standing}

/-- On a genuine site no write that failed is tried again after the end of the push. -/
theorem Retries.unwritten {e : IngestionError} (h : a.Retries e)
    (genuine : a.site.Genuine) {w : Work}
    (phase : a.replica.phase = .working w) (value : Option ByteArray) (offset : Nat)
    (stage : w.stage = .write value offset) : a.feed.tracker.endOfPush = false := by
  refine h.spared.resolve_left fun retriable => ?_
  have storage : (if value.isSome then Operation.put else Operation.delete).ofStorage := by
    split <;> rfl
  have mishap := h.mishap
  rw [mishap?_of_write phase stage] at mishap
  generalize (if value.isSome then Operation.put else Operation.delete) = op at storage mishap
  unfold failure? at mishap
  cases planned : a.fault? op with
  | some fault =>
    rw [planned] at mishap
    cases mishap
    have reports := (genuine.faults.next op).2 _ planned
    cases retriable.symm.trans (reports.isRetriable storage)
  | none =>
    rw [planned] at mishap
    cases answer : (a.site.storage.write a.replica.id w.record.key ⟨value, offset⟩).1 with
    | ok =>
      rw [answer] at mishap
      cases mishap
    | error fault =>
      rw [answer] at mishap
      cases mishap
      cases retriable.symm.trans (Storage.isRetriable_of_write answer)

/-- A phase that comes with no other change. -/
theorem move_inPhase {p : Phase} (h : p = a.replica.phase ∨ a.replica.phase.Leads p) :
    a.feed.Move { a.feed with phase := p } := by
  rcases h with rfl | leads
  · exact .rest
  · exact .lead p leads

/-- A replica that goes to a phase where it reads and writes no more. -/
theorem move_over {f : Feed} (books : a.feed.SameBooks f) (ended : f.phase.isOver = true) :
    a.feed.Move f := .retire f ended books

/-- What a replica can do that is not broken off is a move. -/
theorem Performs.move (h : a.Performs v) (genuine : a.site.Genuine) : a.feed.Move v.feed := by
  cases h with
  | start since phase => exact move_inPhase (.inr (phase ▸ .start since))
  | again p pushTimeout next => exact move_inPhase (Phase.leads_of_retry? next)
  | restore since next phase => exact .restore since next phase
  | acquire since phase => exact .acquire since phase
  | drop first c tp rest phase consumer => exact .detach first c tp phase consumer
  | aim first tp offset phase kept missing startsAt =>
    exact .aim first tp offset phase kept missing startsAt
  | attach first c tp offset phase consumer => exact .attach first c tp offset phase consumer
  | align first phase consumer kept complete => exact .align first phase consumer kept complete
  | poll c c' batch phase consumer fine polled =>
    -- Here what is assumed of the site is used: a poll gets what the log holds and nothing else.
    have clean : a.site.injected ++ batch = batch := by
      rw [genuine.injected]
      rfl
    rw [clean]
    exact .poll c c' a.site.settings.pollBatchSize batch _ phase consumer polled
  | look w p phase stage looks =>
    cases looks with
    | put value payload => exact .lookAtPut w value phase stage payload
    | delete payload => exact .lookAtDelete w phase stage payload
    | update u payload => exact .lookAtUpdate w u phase stage payload
  | merge w u value phase stage fine merged => exact .merge w u value phase stage merged
  | openTopic w value phase stage => exact .openTopic w value phase stage
  | publish w value phase stage => exact .publish w value phase stage
  | mark w m phase stage payload version =>
    exact .passVersionControl w m _ phase stage payload version
  | pass w m phase stage payload realTime =>
    exact .passRealTimeControl w m _ phase stage payload realTime
  | store w value offset phase stage =>
    show a.feed.Move (Feed.finished _ (a.feed.stored w offset) _ w)
    unfold Feed.stored
    split
    · rename_i version
      exact .storeVersion w value offset _ phase stage version
    · rename_i realTime
      exact .storeRealTime w value offset _ phase stage realTime
  | startOver w b e pushTimeout phase retries =>
    exact .startOver w b phase (retries.unwritten genuine phase)
  | commit b phase => exact .commit b phase
  | commitAgain b b' e pushTimeout phase => exact move_inPhase (.inr (phase ▸ .commitAgain b b'))
  | obey processed phase =>
    obtain ⟨f, pendingRole, stopRequested, p, role, hp, obeyed⟩ := a.course.obeyed_eq processed
    show a.feed.Move (a.course.obeyed processed).feed
    rw [obeyed]
    have goesOn : a.feed.Move { a.feed with phase := .promoting processed } :=
      move_inPhase (.inr (phase ▸ .obey processed))
    -- With and without a role that is asked for, and with and without a stop.
    rcases role with rfl | ⟨role, rfl⟩ <;> rcases hp with rfl | rfl
    · exact move_over ⟨rfl, rfl, rfl, rfl, rfl⟩ rfl
    · exact goesOn
    · exact move_over { a.feed.sameBooks_inRole role with } rfl
    · show a.feed.Move { a.feed.inRole role with phase := .promoting processed }
      unfold Feed.inRole
      split
      · exact .takeRole processed role phase
      · exact goesOn
  | promote processed phase => exact move_inPhase (.inr (phase ▸ .promote processed))
  | turn processed target phase leader hybrid push waits sampled =>
    exact .turn processed target phase leader hybrid push waits sampled
  | miss processed phase => exact move_inPhase (.inr (phase ▸ .sample processed))
  | sampleVersion processed p phase next => exact .sampleVersion processed p phase next
  | sampleRegion processed region rest phase => exact .sampleRegion processed region rest phase
  | sampled processed rest phase =>
    exact move_inPhase (.inr (phase ▸ .sampleRegions processed rest))
  | conclude processed paused pushTimeout phase =>
    exact move_inPhase (.inr (phase ▸ .conclude processed))
  | goOnline processed paused phase => exact move_inPhase (.inr (phase ▸ .conclude processed))
  | fail => exact move_over ⟨rfl, rfl, rfl, rfl, rfl⟩ rfl
  | refuse => exact move_over ⟨rfl, rfl, rfl, rfl, rfl⟩ rfl
  | wait phase =>
    obtain ⟨inbox, p, hp, waited⟩ := a.course.waited_eq
    show a.feed.Move a.course.waited.feed
    rw [waited]
    rcases hp with rfl | rfl
    · exact .rest
    · exact move_over ⟨rfl, rfl, rfl, rfl, rfl⟩ rfl
  | detach consumer subscriptions phase =>
    exact move_over ⟨rfl, rfl, rfl, rfl, rfl⟩ (congrArg Phase.isOver phase)
  | retire => exact move_over ⟨rfl, rfl, rfl, rfl, rfl⟩ rfl

/-- What an overflow leaves of a step is a move. -/
theorem BreaksOff.move (h : a.BreaksOff v) : a.feed.Move v.killed.feed := by
  cases h with
  | done performs heavy stays => exact move_over { stays.books with } rfl
  | rest | far | pass => exact move_over ⟨rfl, rfl, rfl, rfl, rfl⟩ rfl
  | mark w m => cases m <;> exact move_over ⟨rfl, rfl, rfl, rfl, rfl⟩ rfl
  | store w value offset positions phase stage fine unfit =>
    refine .breakOff w value offset _ phase stage (fun version fits => unfit ?_) rfl
      ⟨rfl, rfl, rfl, rfl, rfl⟩
    exact (if_pos version).mpr fits

/-- A step of a replica on a genuine site is a move of its feed. -/
theorem step_moved {run : Run} (h : run.site.Genuine) : run.step.Moved run.feed := by
  refine ⟨?_, run.step_upholds.genuine h⟩
  have feed : run.step.feed = run.step.standing.feed := rfl
  rw [feed]
  cases run.step_takes with
  | rest waits same =>
    rw [same]
    exact .rest
  | wake waits paused standing shows =>
    obtain ⟨pendingRole, stopRequested, inbox, p, hp, woken⟩ := run.course.woken_eq
    rw [standing, woken]
    rcases hp with rfl | rfl
    · exact .rest
    · exact move_over ⟨rfl, rfl, rfl, rfl, rfl⟩ rfl
  | act waits awake performs => exact performs.move h
  | breakOff waits awake breaks standing =>
    rw [standing]
    exact breaks.move

end Run

end StoreFeed
