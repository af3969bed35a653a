import StoreFeed.Proofs.Replica.Readiness
import StoreFeed.Proofs.Replica.Ways
import StoreFeed.Proofs.Storage.Replay

/-!
# What errors do to a replica

An error takes one of three routes: a source that is away is tried again, whenever that is; before
the end of the push a record or commit that fails is tried again in its place; after it the replica
halts. So the errored flag is raised only by a record or commit that fails after the end of the
push, and what a replica consumed and stored changes only with a record that is finished
(`Life.errorPolicy`).
-/

namespace StoreFeed

/-- To store a value says nothing of the end of the push. -/
theorem Feed.endOfPush_stored (f : Feed) (w : Work) (offset : Nat) :
    (f.stored w offset).endOfPush = f.tracker.endOfPush := by
  unfold stored LagTracker.pastVersionRecord LagTracker.stamped
  split
  · cases w.record.origin <;> rfl
  · rfl

namespace Run

/-- The next step finishes a record: a control message takes effect, or a value is written. -/
structure Finishes (a : Run) (w : Work) : Prop where
  awake : a.replica.wakeAt = none
  phase : a.replica.phase = .working w
  fine : a.mishap? = none
  last : (∃ m, w.stage = .fresh ∧ w.record.payload = .control m) ∨
    ∃ value offset, w.stage = .write value offset

/-- What becomes of what a replica consumed and stored. -/
inductive Effect (a : Run) (g : Course) : Prop where
  | spares (values : g.feed.data.values = a.feed.data.values)
      (position : g.feed.tracker.versionPosition = a.feed.tracker.versionPosition)
      (endOfPush : g.feed.tracker.endOfPush = a.feed.tracker.endOfPush)
  | restores (since : Nat) (phase : a.replica.phase = .restoring since)
      (values : g.feed.data.values = a.feed.data.values)
      (tracker : g.feed.tracker = a.feed.tracker.resumed a.feed.data.checkpoint)
  /-- A control record of the version topic takes effect. -/
  | marks (w : Work) (m : ControlMessage) (finishes : a.Finishes w)
      (payload : w.record.payload = .control m)
      (values : g.feed.data.values = a.feed.data.values)
      (position : g.feed.tracker.versionPosition = w.record.offset + 1 ∨
        g.feed.phase = .killed ∧ g.feed.tracker.versionPosition = a.feed.tracker.versionPosition)
      (push : a.feed.tracker.endOfPush = true → g.feed.tracker.endOfPush = true)
  | writes (w : Work) (value : Option ByteArray) (offset : Nat) (finishes : a.Finishes w)
      (stage : w.stage = .write value offset)
      (values : g.feed.data.values = (a.feed.data.write w.record.key ⟨value, offset⟩).values)
      (position : g.feed.tracker.versionPosition = (a.feed.stored w offset).versionPosition ∨
        g.feed.phase = .killed ∧ g.feed.tracker.versionPosition = a.feed.tracker.versionPosition)
      (push : g.feed.tracker.endOfPush = a.feed.tracker.endOfPush)

variable {a : Run} {g : Course}

section Finishes

variable {w w' : Work}

theorem Finishes.eq_of_working (h : a.Finishes w) (phase : a.replica.phase = .working w') :
    w' = w := by
  rw [h.phase] at phase
  cases phase
  rfl

theorem Finishes.live (h : a.Finishes w) : a.replica.phase.isOver = false := by
  rw [h.phase]
  rfl

theorem Finishes.ne_mishap (h : a.Finishes w) (e : IngestionError) : a.mishap? ≠ some e := by
  rw [h.fine]
  rintro ⟨⟩

/-- A record that was not touched yet is finished at once only if it is a control message. -/
theorem Finishes.control_of_fresh (h : a.Finishes w) (fresh : w.stage = .fresh) :
    ∃ m, w.record.payload = .control m := by
  rcases h.last with ⟨m, _, payload⟩ | ⟨value, offset, stage⟩
  · exact ⟨m, payload⟩
  · rw [fresh] at stage
    cases stage

theorem Finishes.not_under_way (h : a.Finishes w) (fresh : w.stage ≠ .fresh)
    (write : ∀ value offset, w.stage ≠ .write value offset) : False := by
  rcases h.last with ⟨_, stage, _⟩ | ⟨value, offset, stage⟩
  · exact fresh stage
  · exact write value offset stage

end Finishes

theorem awake_of_paused (h : a.course.paused = false) : a.replica.wakeAt = none := by
  cases ht : a.replica.wakeAt with
  | none => rfl
  | some t =>
    rw [course, ht] at h
    cases h

theorem effect_obeyed (processed : Bool) : a.Effect (a.course.obeyed processed) := by
  obtain ⟨f, pendingRole, stopRequested, phase, hf, -, h⟩ := a.course.obeyed_eq processed
  rw [h]
  rcases hf with rfl | ⟨role, rfl⟩
  · exact .spares rfl rfl rfl
  · obtain ⟨_, _, hr⟩ := a.course.feed.inRole_eq role
    rw [hr]
    exact .spares rfl rfl rfl

theorem Does.effect (awake : a.course.paused = false) (h : a.Does g) : a.Effect g := by
  have awake := awake_of_paused awake
  cases h with
  | drift f paused like =>
    exact .spares (congrArg ReplicaData.values like.data) like.versionPosition like.endOfPush
  | restore since next phase => exact .restores since phase rfl rfl
  | mark w m b phase stage payload =>
    have fine := mishap?_of_fresh phase stage
    exact .marks w m ⟨awake, phase, fine, .inl ⟨m, stage, payload⟩⟩ payload rfl (.inl rfl)
      fun push => LagTracker.endOfPush_pastVersionRecord (LagTracker.endOfPush_marked push m) _
  | store w value offset b phase stage fine =>
    exact .writes w value offset ⟨awake, phase, fine, .inr ⟨value, offset, stage⟩⟩ stage rfl
      (.inl rfl) (a.feed.endOfPush_stored w offset)
  | obey processed => exact effect_obeyed processed
  | wait =>
    obtain ⟨_, _, _, h⟩ := a.course.waited_eq
    rw [h]
    exact .spares rfl rfl rfl
  | _ => exact .spares rfl rfl rfl

/-- An overflow leaves what it did, but for the position. -/
theorem Breaks.effect (awake : a.course.paused = false) (h : a.Breaks g) : a.Effect g := by
  cases h with
  | rest => exact .spares rfl rfl rfl
  | done does =>
    cases does.effect awake with
    | spares values position push => exact .spares values position push
    | restores since phase values tracker => exact .restores since phase values tracker
    | marks w m finishes payload values position push =>
      exact .marks w m finishes payload values (position.imp id fun h => ⟨rfl, h.2⟩) push
    | writes w value offset finishes stage values position push =>
      exact .writes w value offset finishes stage values (position.imp id fun h => ⟨rfl, h.2⟩) push
  | mark w m t phase stage payload position push =>
    have fine := mishap?_of_fresh phase stage
    exact .marks w m ⟨awake_of_paused awake, phase, fine, .inl ⟨m, stage, payload⟩⟩ payload rfl
      (.inr ⟨rfl, position⟩) push
  | store w value offset t phase stage fine position push =>
    exact .writes w value offset ⟨awake_of_paused awake, phase, fine,
      .inr ⟨value, offset, stage⟩⟩ stage
      rfl (.inr ⟨rfl, position⟩) push

/-- What a step consumes and stores. -/
theorem Goes.effect (h : a.Goes g) : a.Effect g := by
  cases h with
  | rest => exact .spares rfl rfl rfl
  | wake =>
    obtain ⟨_, _, _, _, _, h⟩ := a.course.woken_eq
    rw [h]
    exact .spares rfl rfl rfl
  | act awake does => exact does.effect awake
  | breakOff awake breaks => exact breaks.effect awake

/-! ## The errored flag -/

theorem Does.errored (h : a.Does g) :
    g.errored = a.course.errored ∨ a.Halts ∧ g = a.course.halted := by
  cases h with
  | halt halts => exact .inr ⟨halts, rfl⟩
  | obey processed =>
    obtain ⟨_, _, _, _, _, _, h⟩ := a.course.obeyed_eq processed
    rw [h]
    exact .inl rfl
  | wait =>
    obtain ⟨_, _, _, h⟩ := a.course.waited_eq
    rw [h]
    exact .inl rfl
  | _ => exact .inl rfl

/-- The errored flag is changed by a halt only. -/
theorem Goes.errored (h : a.Goes g) :
    g.errored = a.course.errored ∨ a.replica.wakeAt = none ∧ a.Halts := by
  cases h with
  | rest => exact .inl rfl
  | wake =>
    obtain ⟨_, _, _, _, _, h⟩ := a.course.woken_eq
    rw [h]
    exact .inl rfl
  | act awake does => exact does.errored.imp id fun halts => ⟨awake_of_paused awake, halts.1⟩
  | breakOff awake breaks =>
    cases breaks with
    | done does => exact does.errored.imp id fun halts => ⟨awake_of_paused awake, halts.1⟩
    | rest | mark | store => exact .inl rfl

/-! ## A record in hand -/

/-- A call fails with its own error, or with one that was planned. -/
theorem failure?_cases {α : Type} {op : Operation} {answer : Except IngestionError α}
    {e : IngestionError} (h : a.failure? op answer = some e) :
    answer = .error e ∨ ∃ op, a.fault? op = some e := by
  unfold failure? at h
  cases hf : a.fault? op with
  | some e' =>
    rw [hf] at h
    cases h
    exact .inr ⟨op, hf⟩
  | none =>
    rw [hf] at h
    cases answer with
    | error e' =>
      cases h
      exact .inl rfl
    | ok x => cases h

/-- The error that a record or commit meets has to do with the source, with storage or a merge, or
was planned. -/
theorem mishap?_cases {e : IngestionError} (h : a.mishap? = some e) :
    e.isRetriable = true ∨ e.isProcessing = true ∨ ∃ op, a.fault? op = some e := by
  unfold mishap? at h
  split at h
  · split at h
    · cases h
    · -- A merge fails as a merge.
      rcases failure?_cases h with answer | planned
      · cases merged : mergeBytes a.replica.settings.schema
            (a.site.storage.get? a.replica.id _) _ with
        | error e' =>
          rw [merged] at answer
          cases answer
          exact .inr (.inl rfl)
        | ok value =>
          rw [merged] at answer
          cases answer
      · exact .inr (.inr planned)
    · -- A topic that cannot be opened is away.
      dsimp only at h
      split at h
      · cases h
      · rw [Option.map_eq_some_iff] at h
        obtain ⟨cause, _, rfl⟩ := h
        exact .inl rfl
    · rcases failure?_cases h with answer | planned
      · unfold Log.checkAvailable at answer
        split at answer <;> cases answer
        exact .inl rfl
      · exact .inr (.inr planned)
    · rcases failure?_cases h with answer | planned
      · unfold Storage.write at answer
        split at answer <;> cases answer
        exact .inr (.inl rfl)
      · exact .inr (.inr planned)
  · rcases failure?_cases h with answer | planned
    · cases answer
    · exact .inr (.inr planned)
  · cases h

/-- What becomes of a record in hand. -/
inductive Works (a : Run) (w : Work) (g : Course) : Prop where
  | advances (stage : Stage) (log : Log) (fine : a.mishap? = none)
      (same : g = { a.course with feed := { a.feed with log, phase := .working { w with stage } } })
  | finishes (finishes : a.Finishes w)
  | startsOver (backoff : Backoff) (e : IngestionError) (retries : a.Retries e)
      (same : g = { a.course.inPhase (.working { w with stage := .fresh, backoff }) with
        paused := true })
  | halts (halts : a.Halts) (same : g = a.course.halted)

/-- With a record in hand no phase does anything else. -/
theorem Does.works {w : Work} (awake : a.replica.wakeAt = none)
    (phase : a.replica.phase = .working w) (h : a.Does g) : a.Works w g := by
  -- What other phases do is ruled out, and what is done with a record is done with this one.
  have other : ∀ {p : Phase}, a.replica.phase = p → (∀ w, p ≠ .working w) → False :=
    fun hp hne => hne w (hp.symm.trans phase)
  have same : ∀ {w' : Work}, a.replica.phase = .working w' → w' = w := by
    intro w' hp
    rw [phase] at hp
    cases hp
    rfl
  have settles : ∀ value, a.mishap? = none →
      a.Works w (a.course.inPhase (a.feed.settled w value)) := by
    intro value fine
    unfold Feed.settled
    split
    · exact .advances _ a.feed.log fine rfl
    · exact .advances _ a.feed.log fine rfl
  cases h with
  | rest ended =>
    rw [phase] at ended
    cases ended
  | drift f paused like free =>
    rw [phase] at free
    cases free
  | look w' p hp stage looks =>
    have fine := mishap?_of_fresh hp stage
    cases same hp
    cases looks with
    | put value => exact settles _ fine
    | delete => exact settles _ fine
    | update u => exact .advances _ a.feed.log fine rfl
  | merge w' u value hp stage fine =>
    cases same hp
    exact settles _ fine
  | openTopic w' value hp stage fine =>
    cases same hp
    exact .advances _ a.feed.log fine rfl
  | publish w' value offset log hp stage fine =>
    cases same hp
    exact .advances _ log fine rfl
  | mark w' m b hp stage payload | pass w' m b hp stage payload =>
    have fine := mishap?_of_fresh hp stage
    cases same hp
    exact .finishes ⟨awake, phase, fine, .inl ⟨m, stage, payload⟩⟩
  | store w' value offset b hp stage fine =>
    cases same hp
    exact .finishes ⟨awake, phase, fine, .inr ⟨value, offset, stage⟩⟩
  | startOver w' b e hp retries =>
    cases same hp
    exact .startsOver b e retries rfl
  | halt halts => exact .halts halts rfl
  | restore since next hp => exact (other hp fun _ => Phase.noConfusion).elim
  | poll consumer b batch hp => exact (other hp fun _ => Phase.noConfusion).elim
  | commit b hp => exact (other hp fun _ => Phase.noConfusion).elim
  | commitAgain b b' e hp => exact (other hp fun _ => Phase.noConfusion).elim
  | obey processed hp => exact (other hp fun _ => Phase.noConfusion).elim
  | wait hp => exact (other hp fun _ => Phase.noConfusion).elim
  | detach consumer subscriptions hp => exact (other hp fun _ => Phase.noConfusion).elim
  | retire hp => exact (other hp fun _ => Phase.noConfusion).elim

/-- A record stays in hand until it is finished, unless the replica ends. -/
theorem Goes.inHand {w : Work} (phase : a.replica.phase = .working w) (unfinished : ¬ a.Finishes w)
    (h : a.Goes g) : g.feed.phase.isOver = true ∨
      ∃ stage backoff, g.feed.phase = .working { w with stage, backoff } := by
  have same : a.feed.phase = .working { w with stage := w.stage, backoff := w.backoff } := phase
  cases h with
  | rest => exact .inr ⟨_, _, same⟩
  | wake =>
    obtain ⟨_, _, _, _, rfl | rfl, h⟩ := a.course.woken_eq
    · rw [h]
      exact .inr ⟨_, _, same⟩
    · rw [h]
      exact .inl rfl
  | act awake does =>
    cases does.works (awake_of_paused awake) phase with
    | advances stage log fine hg => exact .inr ⟨stage, w.backoff, congrArg (·.feed.phase) hg⟩
    | finishes finishes => exact absurd finishes unfinished
    | startsOver backoff e retries hg => exact .inr ⟨.fresh, backoff, congrArg (·.feed.phase) hg⟩
    | halts halts hg => exact .inl (congrArg (·.feed.phase.isOver) hg)
  | breakOff awake breaks => cases breaks <;> exact .inl rfl

/-- A record that fails and is spared is started over, unless an overflow ends the task. -/
theorem Goes.startsOver {w : Work} {e : IngestionError} (awake : a.replica.wakeAt = none)
    (phase : a.replica.phase = .working w) (retries : a.Retries e)
    (configured : ∀ op reason, a.fault? op ≠ some (.configuration reason)) (h : a.Goes g) :
    g = a.course.killed ∨ ∃ backoff,
      g =
        { a.course.inPhase (.working { w with stage := .fresh, backoff }) with
          paused := true } := by
  have failing : a.mishap? ≠ none := by
    rw [retries.mishap]
    exact Option.some_ne_none e
  have does : ∀ {g : Course}, a.Does g → ∃ backoff,
      g =
        { a.course.inPhase (.working { w with stage := .fresh, backoff }) with
          paused := true } := by
    intro g does
    cases does.works awake phase with
    | advances stage log fine => exact absurd fine failing
    | finishes finishes => exact absurd finishes.fine failing
    | startsOver backoff e' _ hg => exact ⟨backoff, hg⟩
    | halts halts =>
      cases halts with
      | failed e' mishap final push =>
        cases retries.mishap.symm.trans mishap
        rcases retries.spared with away | early
        · cases away.symm.trans final
        · cases early.symm.trans push
      | misconfigured op reason fault => exact absurd fault (configured op reason)
  cases h with
  | rest waits =>
    rw [isWaiting, Replica.isWaiting, phase, awake] at waits
    cases waits
  | wake paused =>
    rw [course, awake] at paused
    cases paused
  | act _ h => exact .inr (does h)
  | breakOff _ breaks =>
    cases breaks with
    | rest => exact .inl rfl
    | done h =>
      obtain ⟨backoff, rfl⟩ := does h
      exact .inl rfl
    | mark w' m t hp stage => exact absurd (mishap?_of_fresh hp stage) failing
    | store w' value offset t hp stage fine => exact absurd fine failing

end Run

/-! ## What is in hand is what the record says -/

/-- What is about to be done to a record is what the record says. -/
structure Feed.Sincere (f : Feed) : Prop where
  merging : ∀ w u, f.phase = .working w → w.stage = .merge u → w.record.payload = .update u
  publishing : ∀ w value, f.phase = .working w →
    w.stage = .openTopic value ∨ w.stage = .publish value →
    ¬ f.readsVersion w ∧ w.record.Makes f.settings.schema (f.get? w.record.key) value
  writing : ∀ w value offset, f.phase = .working w → w.stage = .write value offset →
    (f.readsVersion w → offset = w.record.offset) ∧
      w.record.Makes f.settings.schema (f.get? w.record.key) value

namespace Feed.Sincere

variable {f : Feed}

/-- Before a record was looked at nothing is in hand. -/
theorem of_fresh (fresh : ∀ w, f.phase = .working w → w.stage = .fresh) : f.Sincere where
  merging w u hp hs := by cases (fresh w hp).symm.trans hs
  publishing w value hp hs := by rcases hs with hs | hs <;> cases (fresh w hp).symm.trans hs
  writing w value offset hp hs := by cases (fresh w hp).symm.trans hs

/-- Outside a batch neither. -/
theorem of_idle (idle : ∀ w, f.phase ≠ .working w) : f.Sincere :=
  of_fresh fun w hp => absurd hp (idle w)

theorem of_isFree (free : f.phase.isFree = true) : f.Sincere := of_idle fun w hp => by
  rw [hp] at free
  cases free

/-- A record that is finished leaves nothing in hand. -/
theorem of_finished (t : LagTracker) (b : Backoff) (w : Work) : (f.finished t b w).Sincere :=
  of_fresh fun _ hp => stage_of_nextPhase hp

/-- The new value of a record's key is known. -/
theorem settled {w : Work} {value : Option ByteArray}
    (makes : w.record.Makes f.settings.schema (f.get? w.record.key) value) :
    Sincere { f with phase := f.settled w value } := by
  unfold Feed.settled
  split
  · constructor
    · rintro w' u ⟨⟩ ⟨⟩
    · rintro w' value ⟨⟩ (⟨⟨⟩⟩ | ⟨⟨⟩⟩)
    · rintro w' value offset ⟨⟩ ⟨⟩
      exact ⟨fun _ => rfl, makes⟩
  · rename_i realTime
    constructor
    · rintro w' u ⟨⟩ ⟨⟩
    · rintro w' value ⟨⟩ (⟨⟨⟩⟩ | ⟨⟨⟩⟩)
      exact ⟨realTime, makes⟩
    · rintro w' value offset ⟨⟩ ⟨⟩

end Feed.Sincere

namespace Run

variable {a : Run} {g : Course}

theorem Does.sincere (sincere : a.feed.Sincere) (h : a.Does g) : g.feed.Sincere := by
  cases h with
  | rest => exact sincere
  | drift f paused like free free' => exact .of_isFree free'
  | restore => exact .of_isFree rfl
  | poll => exact .of_fresh fun _ hp => Feed.stage_of_nextPhase hp
  | look w p phase stage looks =>
    cases looks with
    | put value payload => exact .settled (.put value payload)
    | delete payload => exact .settled (.delete payload)
    | update u payload =>
      constructor
      · rintro w' u' ⟨⟩ ⟨⟩
        exact payload
      · rintro w' value ⟨⟩ (⟨⟨⟩⟩ | ⟨⟨⟩⟩)
      · rintro w' value offset ⟨⟩ ⟨⟩
  | merge w u value phase stage fine merged =>
    exact .settled (.update u value (sincere.merging w u phase stage) merged)
  | openTopic w value phase stage =>
    constructor
    · rintro w' u ⟨⟩ ⟨⟩
    · rintro w' value ⟨⟩ (⟨⟨⟩⟩ | ⟨⟨⟩⟩)
      exact sincere.publishing w value phase (.inl stage)
    · rintro w' value offset ⟨⟩ ⟨⟩
  | publish w value offset log phase stage =>
    have known := sincere.publishing w value phase (.inr stage)
    constructor
    · rintro w' u ⟨⟩ ⟨⟩
    · rintro w' value ⟨⟩ (⟨⟨⟩⟩ | ⟨⟨⟩⟩)
    · rintro w' value offset ⟨⟩ ⟨⟩
      exact ⟨fun version => absurd version known.1, known.2⟩
  | mark | pass | store => exact .of_finished _ _ _
  | startOver =>
    refine .of_fresh ?_
    rintro w' ⟨⟩
    rfl
  | commit | commitAgain | halt | retire => exact .of_idle fun _ => Phase.noConfusion
  | obey processed =>
    obtain ⟨_, _, _, _, _, rfl | rfl, h⟩ := a.course.obeyed_eq processed
    · rw [h]
      exact .of_idle fun _ => Phase.noConfusion
    · rw [h]
      exact .of_isFree rfl
  | wait phase =>
    obtain ⟨_, _, hp, h⟩ := a.course.waited_eq
    rw [h]
    refine .of_idle fun w hw => ?_
    rcases hp with rfl | rfl
    · cases phase.symm.trans hw
    · cases hw
  | detach consumer subscriptions phase =>
    refine .of_idle fun w hw => ?_
    cases phase.symm.trans hw

/-- A step leaves in hand what the record says. -/
theorem Goes.sincere (sincere : a.feed.Sincere) (h : a.Goes g) : g.feed.Sincere := by
  cases h with
  | rest => exact sincere
  | wake =>
    obtain ⟨_, _, _, _, rfl | rfl, h⟩ := a.course.woken_eq
    · rw [h]
      exact sincere
    · rw [h]
      exact .of_idle fun _ => Phase.noConfusion
  | act _ does => exact does.sincere sincere
  | breakOff _ breaks => cases breaks <;> exact .of_idle fun _ => Phase.noConfusion

end Run

/-- What is shown to be errored is so. -/
theorem Run.StepsTo.errored_of_shown {a : Run} {g : Outlook} (h : a.StepsTo g)
    (sound : a.outlook.Sound) (raised : a.outlook.shown.errored = true → a.outlook.errored = true) :
    g.shown.errored = true → g.errored = true := by
  have turn : ∀ {g : Outlook}, a.Turns g → g.shown.errored = true → g.errored = true := by
    intro g turns shown
    rcases turns.shown with hs | ⟨_, hs⟩
    · rw [hs] at shown
      exact (turns.follows sound).errored (raised shown)
    · rw [hs] at shown
      exact shown
  cases h with
  | turn turns => exact turn turns
  | breakOff turns shown showing =>
    have raises := turn turns
    rcases showing with rfl | rfl
    · exact fun shown => (turns.follows sound).errored (raised shown)
    · exact raises

/-! ## Lives -/

namespace Life

/-- No call is answered that the settings are wrong. -/
def Configured (l : Life) : Prop :=
  ∀ n op reason, l.Steps n → (l.moment n).fault? op ≠ some (.configuration reason)

/-- Calls fail as a source, a storage or a merge does: none is answered that the settings are wrong,
and none like a task that failed. -/
structure Candid (l : Life) : Prop where
  configured : l.Configured
  own : ∀ n op, l.Steps n → (l.moment n).fault? op ≠ some .join

/-- The next offset of the version topic. -/
def position (l : Life) (n : Nat) : Nat := (l.moment n).replica.tracker.versionPosition

/-- What is stored. -/
def contents (l : Life) (n : Nat) : Contents := (l.moment n).feed.data.values

/-- A step finishes a record of the version topic, or one that was published there: a control
message takes effect, or the value that the record makes of its key is written. Where the next
offset is out of range the task ends. -/
inductive Consumes (l : Life) (n : Nat) (w : Work) : Prop where
  | control (m : ControlMessage) (finishes : (l.moment n).Finishes w)
      (payload : w.record.payload = .control m) (contents : l.contents (n + 1) = l.contents n)
      (position : l.position (n + 1) = w.record.offset + 1 ∨
        (l.moment (n + 1)).replica.phase = .killed ∧ l.position (n + 1) = l.position n)
  | value (value : Option ByteArray) (offset : Nat) (finishes : (l.moment n).Finishes w)
      (makes : w.record.Makes l.settings.schema ((l.contents n).get? w.record.key) value)
      (own : (l.moment n).feed.readsVersion w → offset = w.record.offset)
      (contents : l.contents (n + 1) =
        ((l.moment n).feed.data.write w.record.key ⟨value, offset⟩).values)
      (position : l.position (n + 1) = offset + 1 ∨
        (l.moment (n + 1)).replica.phase = .killed ∧ l.position (n + 1) = l.position n)

/-- The last checkpoint is read. -/
structure Resumes (l : Life) (n : Nat) : Prop where
  phase : ∃ since, (l.moment n).replica.phase = .restoring since
  contents : l.contents (n + 1) = l.contents n
  position : l.position (n + 1) =
    (((l.moment n).feed.data.checkpoint).map (·.versionOffset)).getD (l.position n)

/-- What errors do to a replica. -/
structure ErrorPolicy (l : Life) : Prop where
  /-- The flag is raised by a record or commit that fails in storage or as a merge, after the end of
  the push. -/
  raised : ∀ n, (l.moment n).replica.errored = false → (l.moment (n + 1)).replica.errored = true →
    l.Steps n ∧ (l.moment n).replica.tracker.endOfPush = true ∧
      ∃ e, (l.moment n).mishap? = some e ∧ e.isProcessing = true
  /-- It is shown only where it is raised. -/
  shown : ∀ n, (l.status n).errored = true → (l.moment n).replica.errored = true
  /-- A source that is away never raises it. -/
  away : ∀ n, (∀ e, (l.moment n).mishap? = some e → e.isRetriable = true) →
    (l.moment (n + 1)).replica.errored = (l.moment n).replica.errored
  /-- Before the end of the push a record that fails is started over, or an overflow ends the
  task. -/
  retried : ∀ n w e, l.Steps n → (l.moment n).replica.wakeAt = none →
    (l.moment n).replica.phase = .working w → (l.moment n).mishap? = some e →
    (l.moment n).replica.tracker.endOfPush = false →
      ((l.moment (n + 1)).replica.phase = .killed ∨
        (l.moment (n + 1)).replica.wakeAt.isSome = true ∧
        ∃ backoff, (l.moment (n + 1)).replica.phase =
          .working { w with stage := .fresh, backoff }) ∧
      l.contents (n + 1) = l.contents n ∧ l.position (n + 1) = l.position n
  /-- The position moves, and something is stored, only with the record that is finished. -/
  consumed : ∀ n, l.contents (n + 1) = l.contents n ∧ l.position (n + 1) = l.position n ∨
    l.Steps n ∧ (l.Resumes n ∨ ∃ w, l.Consumes n w)
  /-- Until the record in hand is finished it stays in hand, unless the replica ends, and nothing
  else is stored. -/
  inHand : ∀ n m w, n ≤ m → (l.moment n).replica.phase = .working w →
    (∀ k w', n ≤ k → k < m → l.Steps k → ¬ (l.moment k).Finishes w') →
      ((l.moment m).replica.phase.isOver = true ∨
        ∃ stage backoff, (l.moment m).replica.phase = .working { w with stage, backoff }) ∧
      l.contents m = l.contents n ∧ l.position m = l.position n

variable (l : Life)

theorem sincere (n : Nat) : (l.moment n).feed.Sincere := by
  induction n with
  | zero => exact .of_isFree rfl
  | succ n ih =>
    show (l.moment (n + 1)).course.feed.Sincere
    rcases l.goes_or_around n with ⟨_, _, goes⟩ | ⟨log, connected, h⟩
    · exact goes.sincere ih
    · rw [h]
      exact ⟨ih.merging, ih.publishing, ih.writing⟩

/-- From one moment to the next nothing is consumed, or a step has an effect. -/
theorem effect (n : Nat) :
    l.contents (n + 1) = l.contents n ∧ l.position (n + 1) = l.position n ∨
      l.Steps n ∧ (l.moment n).Effect (l.moment (n + 1)).course := by
  rcases l.goes_or_around n with ⟨steps, _, goes⟩ | ⟨log, connected, h⟩
  · exact .inr ⟨steps, goes.effect⟩
  · exact .inl ⟨congrArg (·.feed.data.values) h, congrArg (·.feed.tracker.versionPosition) h⟩

/-- The flag that is shown was raised. -/
theorem errored_of_shown (n : Nat) :
    (l.status n).errored = true → (l.moment n).replica.errored = true := by
  have both := l.outlook_induction
    (P := fun o => o.Sound ∧ (o.shown.errored = true → o.errored = true))
    ⟨l.sound 0, fun raised => raised⟩ (fun a h =>
      have steps := Run.step_stepsTo h.1.killed_or_shows
      ⟨steps.sound h.1, steps.errored_of_shown h.1 h.2⟩) n
  exact both.2

theorem raised {l : Life} (candid : l.Candid) {n : Nat}
    (before : (l.moment n).replica.errored = false)
    (after : (l.moment (n + 1)).replica.errored = true) :
    l.Steps n ∧ (l.moment n).replica.tracker.endOfPush = true ∧
      ∃ e, (l.moment n).mishap? = some e ∧ e.isProcessing = true := by
  rcases l.goes_or_around n with ⟨steps, _, goes⟩ | ⟨log, connected, h⟩
  · rcases goes.errored with same | ⟨awake, halts⟩
    · rw [show (l.moment n).course.errored = false from before,
        show (l.moment (n + 1)).course.errored = true from after] at same
      cases same
    · cases halts with
      | misconfigured op reason fault => exact absurd fault (candid.configured n op reason steps)
      | failed e mishap final push =>
        refine ⟨steps, push, e, mishap, ?_⟩
        rcases Run.mishap?_cases mishap with away | processing | ⟨op, planned⟩
        · cases away.symm.trans final
        · exact processing
        · cases e with
          | storage | merge => rfl
          | join => exact absurd planned (candid.own n op steps)
          | configuration reason => exact absurd planned (candid.configured n op reason steps)
          | sourceUnavailable => cases final
  · have same := congrArg Course.errored h
    rw [show (l.moment (n + 1)).course.errored = true from after,
      show (l.moment n).course.errored = false from before] at same
    cases same

/-- A record that is started over leaves what is consumed and stored. -/
theorem retried {l : Life} (candid : l.Candid) {n : Nat} {w : Work} {e : IngestionError}
    (steps : l.Steps n) (awake : (l.moment n).replica.wakeAt = none)
    (phase : (l.moment n).replica.phase = .working w) (retries : (l.moment n).Retries e) :
    ((l.moment (n + 1)).replica.phase = .killed ∨ (l.moment (n + 1)).replica.wakeAt.isSome = true ∧
        ∃ backoff, (l.moment (n + 1)).replica.phase =
          .working { w with stage := .fresh, backoff }) ∧
      l.contents (n + 1) = l.contents n ∧ l.position (n + 1) = l.position n := by
  have goes := Run.step_goes (l.moment n)
  rw [← moment_succ_of_steps steps] at goes
  rcases goes.startsOver awake phase retries fun op reason =>
      candid.configured n op reason steps with
    h | ⟨backoff, h⟩
  · exact ⟨.inl (congrArg (·.feed.phase) h), congrArg (·.feed.data.values) h,
      congrArg (·.feed.tracker.versionPosition) h⟩
  · exact ⟨.inr ⟨congrArg Course.paused h, backoff, congrArg (·.feed.phase) h⟩,
      congrArg (·.feed.data.values) h, congrArg (·.feed.tracker.versionPosition) h⟩

theorem consumed (n : Nat) :
    l.contents (n + 1) = l.contents n ∧ l.position (n + 1) = l.position n ∨
      l.Steps n ∧ (l.Resumes n ∨ ∃ w, l.Consumes n w) := by
  rcases l.effect n with same | ⟨steps, effect⟩
  · exact .inl same
  · cases effect with
    | spares contents position => exact .inl ⟨contents, position⟩
    | restores since phase contents tracker =>
      refine .inr ⟨steps, .inl ⟨⟨since, phase⟩, contents, ?_⟩⟩
      rw [show l.position (n + 1) = _ from congrArg LagTracker.versionPosition tracker]
      cases (l.moment n).feed.data.checkpoint with
      | none => rfl
      | some c => exact LagTracker.versionPosition_restored _ c
    | marks w m finishes payload contents position =>
      exact .inr ⟨steps, .inr ⟨w, .control m finishes payload contents position⟩⟩
    | writes w value offset finishes stage contents position =>
      obtain ⟨own, makes⟩ := (l.sincere n).writing w value offset finishes.phase stage
      rw [show (l.moment n).feed.settings = l.settings from (l.identity n).2] at makes
      refine .inr ⟨steps, .inr ⟨w, .value value offset finishes makes own contents ?_⟩⟩
      refine position.imp (fun h => h.trans ?_) fun killed => killed
      unfold Feed.stored
      split
      · rename_i version
        rw [own version]
        rfl
      · rfl

/-- Where no record is finished and no checkpoint read, nothing is consumed. -/
theorem kept_of_unfinished {n : Nat}
    (restored : ∀ since, (l.moment n).replica.phase ≠ .restoring since)
    (unfinished : l.Steps n → ∀ w, ¬ (l.moment n).Finishes w) :
    l.contents (n + 1) = l.contents n ∧ l.position (n + 1) = l.position n := by
  rcases l.consumed n with same | ⟨steps, resumes | ⟨w, consumes⟩⟩
  · exact same
  · obtain ⟨since, phase⟩ := resumes.phase
    exact absurd phase (restored since)
  · cases consumes with
    | control m finishes => exact absurd finishes (unfinished steps w)
    | value value offset finishes => exact absurd finishes (unfinished steps w)

/-- A record that is not finished stays in hand, unless the replica ends. -/
theorem inHand_succ {n : Nat} {w : Work} (phase : (l.moment n).replica.phase = .working w)
    (unfinished : l.Steps n → ¬ (l.moment n).Finishes w) :
    (l.moment (n + 1)).replica.phase.isOver = true ∨
      ∃ stage backoff, (l.moment (n + 1)).replica.phase = .working { w with stage, backoff } := by
  rcases l.goes_or_around n with ⟨steps, _, goes⟩ | ⟨log, connected, h⟩
  · exact goes.inHand phase (unfinished steps)
  · exact .inr ⟨w.stage, w.backoff, (congrArg (·.feed.phase) h).trans phase⟩

/-- What errors do to a replica, whatever calls fail, if they fail as they themselves do. -/
theorem errorPolicy {l : Life} (candid : l.Candid) : l.ErrorPolicy where
  raised n := raised candid
  shown := l.errored_of_shown
  away n away := by
    cases before : (l.moment n).replica.errored with
    | true => exact (l.follows n).1.errored before
    | false =>
      refine Bool.eq_false_iff.mpr fun after => ?_
      obtain ⟨_, _, e, mishap, kind⟩ := raised candid before after
      have retriable := away e mishap
      cases e <;> cases kind <;> cases retriable
  retried n w e steps awake phase mishap early :=
    retried candid steps awake phase ⟨mishap, .inr early⟩
  consumed := l.consumed
  inHand n m w hnm phase unfinished := by
    induction hnm with
    | refl => exact ⟨.inr ⟨w.stage, w.backoff, phase⟩, rfl, rfl⟩
    | step hnm ih =>
      rename_i m
      obtain ⟨held, contents, position⟩ := ih fun k w' hk hkm =>
        unfinished k w' hk (Nat.lt_succ_of_lt hkm)
      have unfinished := fun steps w' => unfinished m w' hnm (Nat.lt_succ_self m) steps
      have kept : l.contents (m + 1) = l.contents m ∧ l.position (m + 1) = l.position m := by
        refine l.kept_of_unfinished (fun since restoring => ?_) unfinished
        rcases held with ended | ⟨stage, backoff, phase⟩
        · rw [restoring] at ended
          cases ended
        · cases restoring.symm.trans phase
      refine ⟨?_, kept.1.trans contents, kept.2.trans position⟩
      rcases held with ended | ⟨stage, backoff, phase⟩
      · exact .inl (l.isOver_kept m ended)
      · rcases l.inHand_succ phase fun steps => unfinished steps _ with ended | ⟨_, _, phase⟩
        · exact .inl ended
        · exact .inr ⟨_, _, phase⟩

end Life

end StoreFeed
