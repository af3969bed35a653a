import StoreFeed.Proofs.Replica.Calls

/-!
# The walk through a step

One lemma for what each phase does, and from them the main statement: whether it is broken off or
not, a step does one of the things that `Run.Takes` lists, upholds what it does not change, and
accounts for what it does (`Act.ends_step`). Nothing is assumed of the faults of calls, of the
records that are polled, or of what the replica shows.
-/

namespace StoreFeed

open Decimal (maxWord64)

namespace Run

/-- A replica did what its phase says. -/
structure Ended (a b : Run) : Prop where
  performs : a.Performs b.standing
  upholds : a.Upholds b
  shows : a.outlook.Shows → b.outlook.Shows
  accounts : a.site.stats.Sound → a.Accounts b

/-- A run whose task was ended by an overflow. -/
def ended (run : Run) : Run :=
  { run with replica := { run.replica with phase := .killed, wakeAt := none } }

/-- A replica was broken off in what its phase says. -/
structure Broken (a b : Run) : Prop where
  breaks : ∃ v, a.BreaksOff v ∧ b.standing.killed = v.killed
  upholds : a.Upholds b
  shown : a.outlook.Shows → b.replica.status.face = a.replica.status.face ∨ b.outlook.Shows
  accounts : a.site.stats.Sound → a.Accounts b.ended

variable {a b : Run} {u v : Standing}

theorem At.ended (h : a.At v b) (performs : a.Performs v) : a.Ended b :=
  ⟨h.standing ▸ performs, h.upholds, h.shows, fun sound => .keeps (h.keeps sound)⟩

theorem Lost.broken (h : a.Lost u b) (breaks : a.BreaksOff v) (same : u.killed = v.killed) :
    a.Broken b :=
  ⟨⟨v, breaks, by rw [h.standing, same]⟩, h.upholds, h.shown, fun sound =>
    .keeps (h.keeps sound).killed⟩

/-- Where the lag is too large to show what was done, it is done all the same. -/
theorem At.broken (h : a.At u b) {w : Standing} {c : Run} (h' : b.Drops w c)
    (face : u.face = a.standing.face ∨ w.face = u.face)
    (heavy : w.feed.tracker.Heavy → a.replica.tracker.Heavy) (performs : a.Performs v)
    (stays : a.Stays v) (same : w.killed = v.killed) : a.Broken c := by
  have tracker : c.replica.tracker = w.feed.tracker :=
    congrArg (fun v : Standing => v.feed.tracker) h'.standing
  exact (h.drops h' face).broken (.done performs (heavy (tracker ▸ h'.heavy)) stays) same

end Run

namespace Act

variable {α : Type} {a b : Run} {v : Standing}

/-- What is next in a batch is looked for. -/
theorem ends_nextRecord {run : Run} {batch : List (TopicPartition × ChangeRecord)}
    {processed : Bool} {Q : Unit → Run → Prop} {E : Run → Prop}
    (made : Q () { run with replica := { run.replica with
      phase := run.feed.nextPhase (Backoff.ofSettings run.site.settings) batch processed } }) :
    (nextRecord batch processed).Ends run Q E := by
  induction batch with
  | nil => cases processed <;> exact made
  | cons e rest ih =>
    obtain ⟨topic, record⟩ := e
    unfold nextRecord
    simp only [ends_bind, ends_self]
    unfold Feed.nextPhase at made
    split
    · rename_i hn
      rw [if_pos (show (!run.feed.subscriptions.contains topic) = true from hn)] at made
      exact ih made
    · rename_i hn
      rw [if_neg (show ¬ (!run.feed.subscriptions.contains topic) = true from hn)] at made
      split
      · rename_i hlt
        rw [if_pos (show topic = run.feed.id.versionTopic ∧
          record.offset < run.feed.tracker.versionPosition from hlt)] at made
        exact ih made
      · rename_i hlt
        rw [if_neg (show ¬ (topic = run.feed.id.versionTopic ∧
          record.offset < run.feed.tracker.versionPosition) from hlt)] at made
        rw [ends_bind, ends_settings]
        exact made

/-- An action brings a step to its end that began in `a` and has come to `b`. -/
def Leads (m : Act Unit) (a b : Run) : Prop := m.Ends b (fun _ c => a.Ended c) a.Broken

/-- An action done aside at the start of others. Where it is broken off, all but what was asked was
as before, and a call had failed or the lag was to be taken. -/
theorem Aside.leads {m : Act α} (hm : m.Aside) {asked : List (TopicPartition × Nat)}
    (h : a.At { a.standing with asked } b) (weighs : a.Stumbles ∨ a.replica.phase.weighs)
    {f : α → Act Unit} (hf : ∀ x c, a.At { a.standing with asked } c → (f x).Leads a c) :
    (m >>= f).Leads a b := by
  unfold Leads
  rw [ends_bind]
  exact hm.ends h hf fun c hc heavy => hc.broken (.rest asked heavy weighs) rfl

/-- What is counted at the start of others. -/
theorem Counts.leads {m : Act α} (hm : m.Counts) (h : a.At v b) {f : α → Act Unit}
    (hf : ∀ x c, a.At v c → (f x).Leads a c) : (m >>= f).Leads a b := by
  unfold Leads
  rw [ends_bind]
  exact hm.ends h hf

theorem leads_goTo (h : a.At v b) {p : Phase} (live : p ≠ .stopped)
    (performs : a.Performs (v.inPhase p)) : (goTo p).Leads a b :=
  (h.inPhase live).ended performs

/-- Another state than that of an error is gone to. Where that cannot be shown it is gone to all the
same. -/
theorem leads_setState (h : a.At a.standing b) {state : ReplicaState} (fine : state ≠ .error)
    (performs : a.Performs v) (stays : a.Stays v)
    (same : Standing.killed { a.standing with state } = v.killed) {f : Unit → Act Unit}
    (hf : ∀ c, a.At { a.standing with state } c → (f ()).Leads a c) :
    (setState state >>= f).Leads a b := by
  unfold Leads
  rw [ends_bind]
  refine (ends_setState fine b).mono ?_ ?_
  · intro _ c hc
    rw [h.standing] at hc
    exact hf c (h.passes hc)
  · intro c hc
    rw [h.standing] at hc
    exact h.broken hc (.inl rfl) id performs stays same

/-- A batch is gone on with. -/
theorem leads_nextRecord (h : a.At v b) {batch : List (TopicPartition × ChangeRecord)}
    {processed : Bool} (performs : a.Performs (v.inPhase
      (v.feed.nextPhase (Backoff.ofSettings a.site.settings) batch processed))) :
    (nextRecord batch processed).Leads a b := by
  have feed : b.feed = v.feed := congrArg Standing.feed h.standing
  refine ends_nextRecord ?_
  rw [h.upholds.settings, feed]
  exact (h.inPhase (Phase.ne_of_isOver (Feed.isOver_nextPhase ..) rfl)).ended performs

/-! ## Failures -/

section Halting

variable {asked : List (TopicPartition × Nat)} (h : a.At { a.standing with asked } b)
include h

/-- How a replica stands that raised its flag and went to the state of an error. -/
theorem standing_halting {c : Run} (hc : c.standing = { b.raised.standing with state := .error }) :
    c.standing = { a.standing with
      course := { a.course with errored := true }, state := .error, asked } :=
  hc.trans (congrArg (fun v : Standing =>
    { v with course := { v.course with errored := true }, state := .error }) h.standing)

/-- Where the lag is too large to show that a replica halts, it halts all the same. -/
theorem broken_halting (live : a.replica.phase.isOver = false)
    (performs : a.Performs { a.standing with course := a.course.halted, state := .error, asked })
    {c : Run} (hc : b.raised.Shifts { b.raised.standing with state := .error } c)
    (heavy : c.replica.tracker.Heavy)
    (shown : c.replica.status = b.replica.status ∨ c.outlook.Shows)
    (alarmed : a.site.stats.Sound → a.Alarms c) : a.Broken c := by
  have stands := standing_halting h hc.standing
  have tracker : c.replica.tracker = a.replica.tracker :=
    congrArg (fun v : Standing => v.feed.tracker) stands
  have breaks := Run.BreaksOff.done performs (tracker ▸ heavy)
    ⟨⟨rfl, rfl, rfl, rfl, rfl⟩, Phase.noConfusion⟩
  refine ⟨⟨_, breaks, ?_⟩, h.upholds.shifts (b.shifts_raised.trans hc), fun shows => ?_,
    fun sound => .alarms live (alarmed sound).killed⟩
  · rw [stands]
    rfl
  · have before : b.replica.status.face = a.replica.status.face :=
      (h.shows shows).trans ((congrArg Standing.face h.standing).trans shows.symm)
    exact shown.imp_left fun same => (congrArg _ same).trans before

/-- A replica that halts raises its flag and that of its version, and shows it unless its lag is out
of range. -/
theorem leads_halt (live : a.replica.phase.isOver = false)
    (performs : a.Performs { a.standing with course := a.course.halted, state := .error, asked }) :
    halt.Leads a b := by
  have alarms : a.site.stats.Sound → a.Alarms b.raised := fun sound =>
    (h.keeps sound).alarms (Run.alarms_raised (h.keeps sound).sound)
  have raised := b.shifts_raised
  unfold Leads halt
  simp only [ends_bind, ends_self, ends_modifySelf, ends_modifySite]
  -- The state is shown and then reported; a lag out of range may break off either of the two.
  refine (ends_setState_enters .error b.raised).mono ?_ ?_
  · rintro _ c ⟨hc, shown, enters⟩
    have alarmed : a.site.stats.Sound → a.Alarms c := fun sound =>
      (alarms sound).enters (enters (alarms sound).sound)
    refine (ends_report c).mono ?_ ?_
    · rintro _ d ⟨hd, shows⟩
      have kept : a.site.stats.Sound → a.Alarms d := fun sound =>
        (alarmed sound).keeps (hd.keeps (alarmed sound).sound)
      have stands : d.standing.inPhase .parked =
          { a.standing with course := a.course.halted, state := .error, asked } := by
        rw [hd.standing, standing_halting h hc.standing]
        rfl
      refine ⟨?_, h.upholds.shifts ((raised.trans hc).trans ⟨rfl, hd.settings, hd.injected,
        hd.faults, hd.storage, hd.paced⟩), fun _ => shows, fun sound => .alarms live ?_⟩
      · show a.Performs (d.standing.inPhase .parked)
        rw [stands]
        exact performs
      · exact (kept sound).keeps
          (.of_same (kept sound).sound rfl rfl rfl rfl Phase.noConfusion rfl rfl)
    · rintro d ⟨hd, status⟩
      refine broken_halting h live performs (hc.trans (hc.standing ▸ hd.toShifts)) hd.heavy ?_
        fun sound => (alarmed sound).keeps (hd.keeps (alarmed sound).sound)
      rcases shown with rfl | shows
      · exact .inl status
      · have same : d.replica.status.face = c.replica.status.face := congrArg _ status
        exact .inr (same.trans (shows.trans (congrArg Standing.face hd.standing.symm)))
  · rintro c ⟨hc, status, heavy, enters⟩
    have tracker : c.replica.tracker = b.raised.replica.tracker :=
      congrArg (fun v : Standing => v.feed.tracker) hc.standing
    exact broken_halting h live performs hc (tracker ▸ heavy) (.inl status) fun sound =>
      (alarms sound).enters (enters (alarms sound).sound)

end Halting

/-- A phase is gone to, and a pause comes before it. -/
theorem leads_pause (h : a.At v b) {p : Phase} {ms : Nat} (live : p ≠ .stopped)
    (performs : a.Performs { v with course := { v.course.inPhase p with paused := true } }) :
    (do goTo p; pause ms : Act Unit).Leads a b := by
  have paused := (h.inPhase live).change
    (r := { b.replica with phase := p, wakeAt := some (b.commons.now + ms) })
    (fun v => { v with course := { v.course with paused := true } }) rfl rfl rfl rfl id fun _ h => h
  exact paused.ended performs

/-- What follows a look at the push timeout follows whether or not its flag is raised. -/
theorem leads_checkPushTimeout {asked : List (TopicPartition × Nat)}
    (h : a.At { a.standing with asked } b)
    (performs : ∀ pushTimeout, a.Warns pushTimeout → ∃ v, a.Performs v ∧ a.Stays v ∧
      Standing.killed { a.standing with pushTimeout, asked } = v.killed)
    {f : Unit → Act Unit} (hf : ∀ pushTimeout c, a.Warns pushTimeout →
      a.At { a.standing with pushTimeout, asked } c → (f ()).Leads a c) :
    (checkPushTimeout >>= f).Leads a b := by
  have stands : ∀ pushTimeout, { b.standing with pushTimeout } =
      { a.standing with pushTimeout, asked } := fun pushTimeout =>
    congrArg (fun v : Standing => { v with pushTimeout }) h.standing
  have timeout : b.replica.pushTimeout = a.replica.pushTimeout :=
    congrArg Standing.pushTimeout h.standing
  have tracker : b.replica.tracker = a.replica.tracker :=
    congrArg (fun v : Standing => v.feed.tracker) h.standing
  unfold Leads
  rw [ends_bind]
  refine (ends_checkPushTimeout b).mono ?_ ?_
  · rintro _ c ⟨pushTimeout, warns, hc⟩
    unfold Run.Warns at warns
    rw [timeout, tracker] at warns
    rw [stands] at hc
    exact hf pushTimeout c warns (h.passes hc)
  · rintro c ⟨push, hc⟩
    rw [stands] at hc
    obtain ⟨v, performs, stays, same⟩ := performs true (.inr ⟨rfl, tracker ▸ push⟩)
    exact h.broken hc (.inl rfl) id performs stays same

/-- Once the end of the push was received it is not late. -/
theorem leads_checkPushTimeout_of_endOfPush (h : a.At v b)
    (push : v.feed.tracker.endOfPush = true) {f : Unit → Act Unit}
    (hf : ∀ c, a.At v c → (f ()).Leads a c) : (checkPushTimeout >>= f).Leads a b := by
  have push : b.replica.tracker.endOfPush = true :=
    (congrArg (fun v : Standing => v.feed.tracker.endOfPush) h.standing).trans push
  unfold Leads
  rw [ends_bind]
  refine (ends_checkPushTimeout b).mono ?_ ?_
  · rintro _ c ⟨pushTimeout, warns, hc⟩
    obtain rfl : pushTimeout = b.replica.pushTimeout :=
      warns.resolve_right fun late => Bool.noConfusion (push.symm.trans late.2)
    have same : { b.standing with pushTimeout := b.replica.pushTimeout } = v := h.standing
    rw [same] at hc
    exact hf c (h.passes hc)
  · rintro c ⟨late, -⟩
    cases push.symm.trans late

/-- The source is tried again in a phase, unless its settings are wrong. -/
theorem leads_retry {asked : List (TopicPartition × Nat)} (h : a.At { a.standing with asked } b)
    (stumbles : a.Stumbles) {operation : String} {e : IngestionError}
    (fine : ∀ reason, e ≠ .configuration reason) {p : Phase} (live : p.isOver = false)
    (performs : ∀ pushTimeout, a.Warns pushTimeout →
      a.Performs { a.standing.tried p pushTimeout with asked }) :
    (retrySource operation e p).Leads a b := by
  unfold retrySource
  split
  · exact absurd rfl (fine _)
  · refine (aside_onSourceFailure _).leads h (.inl stumbles) fun _ c hc => ?_
    refine leads_checkPushTimeout hc (fun pushTimeout warns =>
      ⟨_, performs pushTimeout warns, ⟨⟨rfl, rfl, rfl, rfl, rfl⟩, Phase.ne_of_isOver live rfl⟩,
        rfl⟩) fun pushTimeout c warns hc => ?_
    have hc := hc.change (r := { c.replica with backoff := c.replica.backoff.next.2 }) id
      rfl rfl rfl rfl id fun _ h => h.next
    exact leads_pause hc (Phase.ne_of_isOver live rfl) (performs pushTimeout warns)

/-- A call outside a batch is tried again, or wrong settings halt the replica. -/
theorem leads_retrySource {asked : List (TopicPartition × Nat)}
    (h : a.At { a.standing with asked } b) (asks : asked = a.questions ++ a.asked)
    {operation : String} {e : IngestionError} (failed : a.Failed e) (near : a.Near) {p : Phase}
    (next : a.replica.phase.retry? = some p) : (retrySource operation e p).Leads a b := by
  subst asks
  obtain ⟨live, live'⟩ := Phase.live_of_retry? next
  by_cases misconfigured : ∃ reason, e = .configuration reason
  · obtain ⟨reason, rfl⟩ := misconfigured
    obtain ⟨op, calls, fault⟩ := failed.plans reason rfl
    exact leads_halt h live (.refuse op reason (by rw [next]; rfl) calls fault near)
  · exact leads_retry h failed.stumbles (fun reason he => misconfigured ⟨reason, he⟩) live'
      fun pushTimeout warns => .again p pushTimeout next failed.stumbles warns near

/-- Where no question was put to the log. -/
theorem leads_retryCall (h : a.At a.standing b) (unasked : a.sought? = none) {operation : String}
    {e : IngestionError} (failed : a.Failed e) {p : Phase}
    (next : a.replica.phase.retry? = some p) :
    (retrySource operation e p).Leads a b := by
  have h : a.At { a.standing with asked := a.asked } b := h
  exact leads_retrySource h (a.asked_of_sought? unasked) failed (a.near_of_sought? unasked) next

/-- A record or commit is tried again, or the replica halts. -/
theorem leads_processingFailed (h : a.At a.standing b) (live : a.replica.phase.isOver = false)
    {e : IngestionError} (mishap : a.mishap? = some e) (backoff : Backoff) {again : Backoff → Phase}
    (live' : ∀ backoff', (again backoff').isOver = false)
    (retry : ∀ backoff' pushTimeout, a.Retries e →
      (backoff' = backoff ∨ backoff' = backoff.next.2) →
      a.Warns pushTimeout → a.Performs (a.standing.tried (again backoff') pushTimeout)) :
    (processingFailed e backoff again).Leads a b := by
  have stumbles : a.Stumbles := .mishap e mishap
  unfold processingFailed
  split
  · rename_i retriable
    refine leads_retry h stumbles (fun reason he => ?_) (live' _) fun pushTimeout =>
      retry _ pushTimeout ⟨mishap, .inl retriable⟩ (.inl rfl)
    rw [he] at retriable
    cases retriable
  · rename_i final
    have push : b.replica.tracker.endOfPush = a.replica.tracker.endOfPush :=
      congrArg (fun v : Standing => v.feed.tracker.endOfPush) h.standing
    have counted : (modifyMetrics (·.failed e.kind a.replica.tracker.endOfPush)).Counts :=
      counts_modifyMetrics (by simp [Metrics.ReplicaMetrics.failed])
    have coded : (modifySelf fun r => { r with mergeErrorCode := e.code }).Counts :=
      counts_modifySelf _ (by intro _; rfl) (by simp) (by simp)
    -- The rest is the same whether or not the error has a code.
    have rest : ∀ c, a.At a.standing c →
        (if a.replica.tracker.endOfPush = true then halt
          else do
            checkPushTimeout
            goTo (again backoff.next.2)
            pause backoff.next.1 : Act Unit).Leads a c := by
      intro c hc
      split
      · rename_i push
        exact leads_halt hc live (.fail e mishap (Bool.eq_false_iff.mpr final) push)
      · rename_i push
        have retried := fun pushTimeout => retry _ pushTimeout
          ⟨mishap, .inr (Bool.eq_false_iff.mpr push)⟩ (.inr rfl)
        exact leads_checkPushTimeout hc (fun pushTimeout warns =>
          ⟨_, retried pushTimeout warns,
            ⟨⟨rfl, rfl, rfl, rfl, rfl⟩, Phase.ne_of_isOver (live' _) rfl⟩, rfl⟩)
          fun pushTimeout c warns hc => leads_pause hc (Phase.ne_of_isOver (live' _) rfl)
            (retried pushTimeout warns)
    unfold Leads
    rw [ends_bind, ends_self, push]
    refine counted.leads h fun _ c hc => ?_
    by_cases hcode : e.code ≠ 0
    · rw [if_pos hcode]
      exact coded.leads hc fun _ c hc => rest c hc
    · rw [if_neg hcode]
      exact rest c hc

/-! ## Subscribing -/

theorem leads_start (hp : a.replica.phase = .created) : start.Leads a a := by
  have done := fun since => Run.Performs.start since hp
  exact leads_setState (.refl a) ReplicaState.noConfusion (done 0)
    ⟨⟨rfl, rfl, rfl, rfl, rfl⟩, Phase.noConfusion⟩ rfl
    fun b hb => leads_goTo hb Phase.noConfusion (done b.commons.now)

theorem leads_restoreCheckpoint {since : Nat} (hp : a.replica.phase = .restoring since) :
    (restoreCheckpoint since).Leads a a := by
  unfold Leads restoreCheckpoint
  rw [ends_bind]
  refine ends_readCheckpoint (by simp [hp, Phase.calls]) (fun e b failed hb => ?_) fun b hb => ?_
  · exact leads_retryCall hb (a.sought?_of_phase (by simp [hp])) failed (by rw [hp]; rfl)
  · -- However the tracker goes on, the replica goes on to acquire a consumer.
    have rest : ∀ b, a.At (a.standing.withFeed { a.feed with
          tracker := a.feed.tracker.resumed a.feed.data.checkpoint }) b →
        (do
          stepTook .prepare since
          goTo (.acquiring (← now)) : Act Unit).Leads a b := by
      refine fun b hb => (counts_stepTook _ _).leads hb fun _ c hc => ?_
      exact leads_goTo hc Phase.noConfusion (.restore since c.commons.now hp)
    dsimp only
    cases hc : a.feed.data.checkpoint with
    | none =>
      rw [hc] at rest
      exact rest b hb
    | some c =>
      rw [hc] at rest
      exact rest _ (hb.withTracker (·.restored c))

theorem leads_acquire {since : Nat} (hp : a.replica.phase = .acquiring since) :
    (acquire since).Leads a a := by
  unfold Leads acquire
  rw [ends_bind]
  refine ends_acquireConsumer (by simp [hp, Phase.calls]) (fun e b failed hb => ?_) fun b hb => ?_
  · exact leads_retryCall hb (a.sought?_of_phase (by simp [hp])) failed (by rw [hp]; rfl)
  · have hb := hb.change (r := { b.replica with consumer := some Consumer.fresh })
      (fun v => v.withFeed { v.feed with consumer := some Consumer.fresh }) rfl rfl rfl rfl id
      fun _ h => h
    show (stepTook .acquire since >>= fun _ => goTo (.aligning true)).Leads a _
    refine (counts_stepTook _ _).leads hb fun _ c hc => ?_
    exact leads_goTo hc Phase.noConfusion (.acquire since hp)

/-- Where a missing partition is to be read from is known, or the log is asked. -/
theorem ends_startOffset {first : Bool} {c : Consumer} {tp : TopicPartition}
    {rest : List TopicPartition} (hp : a.replica.phase = .aligning first)
    (consumer : a.replica.consumer = some c)
    (kept : a.replica.subscriptions.diff a.replica.desiredSubscriptions = [])
    (missing : a.replica.desiredSubscriptions.diff a.replica.subscriptions = tp :: rest)
    {Q : Except IngestionError Nat → Run → Prop} {E : Run → Prop}
    (failed : ∀ e b, a.Failed e → a.Near →
      a.At { a.standing with asked := a.questions ++ a.asked } b → Q (.error e) b)
    (made : ∀ offset b, a.feed.StartsAt tp offset → a.Near →
      a.At { a.standing with asked := a.questions ++ a.asked } b → Q (.ok offset) b)
    (far : a.sought?.isSome → maxWord64 < a.replica.settings.rewindSeconds * 1000 → E a) :
    (startOffset tp).Ends a Q E := by
  -- Where the start is known nothing is sought, so the questions of the host stay what they were.
  have sought : a.sought? = if a.replica.knowsStart tp then none else some tp := by
    unfold Run.sought?
    rw [hp, consumer]
    dsimp only
    rw [kept, missing]
  unfold Replica.knowsStart at sought
  unfold startOffset
  simp only [ends_bind, ends_self]
  by_cases version : tp = a.replica.id.versionTopic
  · rw [if_pos version]
    have known : a.sought? = none := by simpa [version] using sought
    refine made _ a ?_ (a.near_of_sought? known) (a.asked_of_sought? known ▸ .refl a)
    exact (if_pos version).mpr rfl
  · rw [if_neg version]
    have startsAt : ∀ offset,
        (∀ next, a.feed.tracker.realTimePosition? tp.region = some next → offset = next) →
        a.feed.StartsAt tp offset := fun _ h => (if_neg version).mpr h
    cases position : a.replica.tracker.realTimePosition? tp.region with
    | some next =>
      have known : a.sought? = none := by simpa [position] using sought
      refine made _ a (startsAt _ fun next' h => ?_) (a.near_of_sought? known)
        (a.asked_of_sought? known ▸ .refl a)
      exact Option.some.inj (position.symm.trans h)
    | none =>
      have sought : a.sought? = some tp := by simpa [version, position] using sought
      have questions : a.questions =
          [(tp, a.commons.now - a.replica.settings.rewindSeconds * 1000)] := by
        rw [Run.questions, sought]
        rfl
      rw [questions] at failed made
      have asks : a.replica.settings.rewindSeconds * 1000 ≤ maxWord64 →
          (offsetForTimestamp tp (a.commons.now - a.replica.settings.rewindSeconds * 1000)).Ends
            a Q E := fun near =>
        ends_offsetForTimestamp (by simp [hp, Phase.calls])
          (fun e b he hb => failed e b he (fun _ => near) hb)
          (fun offset b hb => made offset b
            (startsAt _ fun next h => by cases position.symm.trans h) (fun _ => near) hb)
      unfold VersionSettings.rewindSeconds at asks far
      dsimp only
      cases hybrid : a.replica.settings.hybrid with
      | none =>
        rw [hybrid] at asks
        exact asks (by simp)
      | some h =>
        rw [hybrid] at asks far
        simp only [ends_bind]
        rw [ends_ofWord]
        refine ⟨fun rewind product => ?_, fun e he => far (by rw [sought]; rfl) ?_⟩
        · obtain ⟨rfl, near⟩ := Word.mul_eq_ok_iff.mp product
          exact asks near
        · exact Nat.lt_of_not_le fun near => by
            rw [Word.mul_eq_ok_iff.mpr ⟨rfl, near⟩] at he
            cases he

theorem leads_aligned {first : Bool} (hp : a.replica.phase = .aligning first)
    (performs : a.Performs { a.standing.inPhase .polling with
      state := if first then .bootstrapping else a.replica.state }) :
    (Act.aligned first).Leads a a := by
  have stays : a.Stays { a.standing.inPhase .polling with state := .bootstrapping } :=
    ⟨⟨rfl, rfl, rfl, rfl, rfl⟩, Phase.noConfusion⟩
  unfold Act.aligned
  cases first with
  | false => exact leads_goTo (.refl a) Phase.noConfusion performs
  | true =>
    have weighs : a.replica.phase.weighs := by rw [hp]; rfl
    refine aside_sourceRecovered.leads (.refl a) (.inr weighs) fun _ b hb => ?_
    refine leads_setState hb ReplicaState.noConfusion performs stays rfl fun b hb => ?_
    unfold Leads
    simp only [ends_bind]
    refine aside_showStatus.ends hb (fun _ b hb => leads_goTo hb Phase.noConfusion performs)
      fun b hb heavy => hb.broken (.done performs heavy stays) rfl

theorem leads_align {first : Bool} (hp : a.replica.phase = .aligning first) :
    (align first).Leads a a := by
  have next : a.replica.phase.retry? = some (.aligning first) := by rw [hp]; rfl
  unfold Leads align
  simp only [ends_bind, ends_self]
  cases consumer : a.replica.consumer with
  | none =>
    have unasked : a.sought? = none := by
      unfold Run.sought?
      rw [consumer]
      split <;> simp_all
    exact leads_retryCall (.refl a) unasked (.of_unequipped (by rw [hp]; rfl) consumer) next
  | some c =>
    dsimp only
    split
    · rename_i tp rest surplus
      rw [ends_bind]
      refine ends_unsubscribe (by simp [hp, Phase.calls]) (fun e b failed hb => ?_) fun b hb => ?_
      · exact leads_retryCall hb (Run.sought?_of_surplus surplus) failed next
      · have hb := hb.change
          (r := { b.replica with subscriptions := b.replica.subscriptions.erase tp })
          (fun v => v.withFeed { v.feed with subscriptions := v.feed.subscriptions.erase tp })
          rfl rfl rfl rfl id fun _ h => h
        exact hb.ended (.drop first c tp rest hp consumer surplus)
    · rename_i tp rest kept missing
      rw [ends_bind]
      refine ends_startOffset hp consumer kept missing (fun e b failed near hb => ?_)
        (fun offset b startsAt near hb => ?_) fun sought far => ?_
      · exact leads_retrySource hb rfl failed near next
      · refine leads_goTo hb Phase.noConfusion (.aim first tp offset hp kept ?_ startsAt near)
        exact missing ▸ List.mem_cons_self
      · exact (Run.At.refl a).lost.broken (.far sought far) rfl
    · rename_i kept complete
      exact leads_aligned hp (.align first hp (by rw [consumer]; rfl) kept complete)

theorem leads_attach {first : Bool} {tp : TopicPartition} {offset : Nat}
    (hp : a.replica.phase = .attaching first tp offset) : (attach first tp offset).Leads a a := by
  have next : a.replica.phase.retry? = some (.aligning first) := by rw [hp]; rfl
  have unasked : a.sought? = none := a.sought?_of_phase (by simp [hp])
  unfold Leads attach
  simp only [ends_bind, ends_self]
  cases consumer : a.replica.consumer with
  | none => exact leads_retryCall (.refl a) unasked (.of_unequipped (by rw [hp]; rfl) consumer) next
  | some c =>
    dsimp only
    rw [ends_bind]
    refine ends_subscribe (by simp [hp, Phase.calls]) (fun e b failed hb => ?_) fun b hb => ?_
    · exact leads_retryCall hb unasked failed next
    · have performs := Run.Performs.attach first c tp offset hp consumer
      -- What is left is the same for all topics.
      have rest : ∀ b, a.At (a.standing.withFeed { a.feed with
            consumer := some ⟨c.positions.insert tp offset⟩
            tracker := if tp = a.feed.id.versionTopic then a.feed.tracker
              else a.feed.tracker.atRealTimePosition tp.region offset }) b →
          (do
            modifySelf fun r => { r with subscriptions := r.subscriptions.add tp }
            goTo (.aligning first) : Act Unit).Leads a b := by
        intro b hb
        have hb :=
          hb.change (r := { b.replica with subscriptions := b.replica.subscriptions.add tp })
          (fun v => v.withFeed { v.feed with subscriptions := v.feed.subscriptions.add tp })
          rfl rfl rfl rfl id fun _ h => h
        exact leads_goTo hb Phase.noConfusion performs
      show (now >>= fun since => stepTook .subscribe since >>= _).Leads a b
      refine counts_now.leads hb fun _ b hb => (counts_stepTook _ _).leads hb fun _ b hb => ?_
      by_cases version : tp = a.replica.id.versionTopic
      · rw [if_neg (not_not_intro version)]
        rw [if_pos (show tp = a.feed.id.versionTopic from version)] at rest
        exact rest b hb
      · rw [if_pos version]
        rw [if_neg (show ¬ tp = a.feed.id.versionTopic from version)] at rest
        exact rest _ (hb.withTracker (·.atRealTimePosition tp.region offset))

theorem leads_pollBatch (hp : a.replica.phase = .polling) : pollBatch.Leads a a := by
  have next : a.replica.phase.retry? = some (.aligning false) := by rw [hp]; rfl
  have unasked : a.sought? = none := a.sought?_of_phase (by simp [hp])
  unfold Leads pollBatch
  simp only [ends_bind, ends_self]
  cases consumer : a.replica.consumer with
  | none => exact leads_retryCall (.refl a) unasked (.of_unequipped (by rw [hp]; rfl) consumer) next
  | some c =>
    dsimp only
    rw [ends_bind]
    refine ends_poll (by simp [hp, Phase.calls]) (fun e b failed hb => ?_)
      fun batch c' b fine polled hb => ?_
    · exact leads_retryCall hb unasked failed next
    · have performs := Run.Performs.poll c c' batch hp consumer fine polled
      simp only [ends_bind, ends_self]
      refine aside_sourceRecovered.ends hb (fun _ b hb => ?_) fun b hb heavy =>
        hb.broken (.done performs heavy
          ⟨⟨rfl, rfl, rfl, rfl, rfl⟩, Phase.ne_of_isOver (Feed.isOver_nextPhase ..) rfl⟩) rfl
      refine (counts_modifyMetrics (by simp [Metrics.ReplicaMetrics.polled])).ends hb
        fun _ b hb => leads_nextRecord hb performs

/-! ## Records -/

section Effects

variable {E : Run → Prop}

/-- The position behind an offset has to be in range. -/
theorem ends_behind {run : Run} {offset : Nat} {f : Nat → Act α} {Q : α → Run → Prop} :
    (ofWord (Word.add offset 1) >>= f).Ends run Q E ↔
      (offset < maxWord64 → (f (offset + 1)).Ends run Q E) ∧ (¬ offset < maxWord64 → E run) := by
  rw [ends_bind, ends_ofWord]
  refine ⟨fun h => ⟨fun fits => ?_, fun unfit => ?_⟩, fun h =>
    ⟨fun next sum => ?_, fun e sum => ?_⟩⟩
  · exact h.1 _ (Word.add_eq_ok_iff.mpr ⟨rfl, fits⟩)
  · cases sum : Word.add offset 1 with
    | error e => exact h.2 e sum
    | ok next =>
      obtain ⟨rfl, fits⟩ := Word.add_eq_ok_iff.mp sum
      exact absurd fits unfit
  · obtain ⟨rfl, fits⟩ := Word.add_eq_ok_iff.mp sum
    exact h.1 fits
  · refine h.2 fun fits => ?_
    rw [Word.add_eq_ok_iff.mpr ⟨rfl, fits⟩] at sum
    cases sum

/-- A record of the version topic is done, or a position is out of range. -/
theorem ends_finishVersionRecord (h : a.At v b) (r : ChangeRecord) {Q : Unit → Run → Prop}
    (made : ∀ c, r.InRange → a.At (v.withFeed { v.feed with
      tracker := v.feed.tracker.pastVersionRecord r }) c → Q () c)
    (lost : ∀ realTimePositions c, ¬ r.InRange → a.Lost (v.withFeed { v.feed with
      tracker := { v.feed.tracker with realTimePositions } }) c → E c) :
    (finishVersionRecord r).Ends b Q E := by
  -- What is left is the same whether or not the record is stamped.
  have rest : ∀ c, (∀ p, r.origin = some p → p.offset < maxWord64) →
      a.At (v.withFeed { v.feed with tracker := v.feed.tracker.stamped r.origin }) c →
      (do
        let next ← ofWord (Word.add r.offset 1)
        modifyTracker (·.atVersionPosition next)
        recordConsumed r none : Act Unit).Ends c Q E := by
    intro c stamp hc
    refine ends_behind.mpr ⟨fun fits => ?_, fun unfit => ?_⟩
    · rw [ends_bind, ends_modifyTracker]
      refine (counts_recordConsumed r none).ends
        (hc.withTracker (·.atVersionPosition (r.offset + 1))) fun _ c hc => made c ⟨fits, stamp⟩ hc
    · refine lost (v.feed.tracker.stamped r.origin).realTimePositions c
        (fun fits => unfit fits.1) ?_
      have stays : v.feed.tracker.stamped r.origin = { v.feed.tracker with
          realTimePositions := (v.feed.tracker.stamped r.origin).realTimePositions } := by
        cases r.origin <;> rfl
      exact stays ▸ hc.lost
  unfold finishVersionRecord
  cases origin : r.origin with
  | none =>
    rw [origin] at rest
    exact rest b (fun p hp => by cases hp) h
  | some p =>
    rw [origin] at rest
    refine ends_behind.mpr ⟨fun fits => ?_, fun unfit => ?_⟩
    · rw [ends_bind]
      refine rest _ ?_ (h.withTracker (·.atRealTimePosition p.region (p.offset + 1)))
      rintro _ ⟨⟩
      exact fits
    · exact lost v.feed.tracker.realTimePositions b (fun fits => unfit (fits.2 p origin)) h.lost

theorem ends_finishRealTimeControl (h : a.At v b) (tp : TopicPartition) (r : ChangeRecord)
    {Q : Unit → Run → Prop}
    (made : ∀ c,
      a.At (v.withFeed { v.feed with tracker := v.feed.tracker.pastRealTimeRecord tp r }) c →
      Q () c)
    (lost : ∀ c, ¬ r.offset < maxWord64 → a.Lost v c → E c) :
    (finishRealTimeControl tp r).Ends b Q E :=
  ends_behind.mpr ⟨fun _ => made _ (h.withTracker (·.atRealTimePosition tp.region (r.offset + 1))),
    fun unfit => lost b unfit h.lost⟩

/-- A record of a real-time topic is done, or a position is out of range. -/
theorem ends_finishRealTimeRecord (h : a.At v b) (tp : TopicPartition) (r : ChangeRecord)
    (value : Option ByteArray) (published : Nat) {Q : Unit → Run → Prop}
    (made : ∀ c, r.offset < maxWord64 → published < maxWord64 → a.At (v.withFeed { v.feed with
      tracker := (v.feed.tracker.pastRealTimeRecord tp r).atVersionPosition (published + 1) }) c →
      Q () c)
    (lost : ∀ realTimePositions c, ¬ (r.offset < maxWord64 ∧ published < maxWord64) →
      a.Lost (v.withFeed { v.feed with tracker := { v.feed.tracker with realTimePositions } }) c →
      E c) : (finishRealTimeRecord tp r value published).Ends b Q E := by
  unfold finishRealTimeRecord
  refine ends_behind.mpr ⟨fun fits => ?_, fun unfit =>
    lost v.feed.tracker.realTimePositions b (fun fits => unfit fits.1) h.lost⟩
  have h := h.withTracker (·.atRealTimePosition tp.region (r.offset + 1))
  rw [ends_bind]
  refine ends_behind.mpr ⟨fun fits' => ?_, fun unfit => ?_⟩
  · have h := h.withTracker (·.atVersionPosition (published + 1))
    simp only [ends_bind, ends_modifyTracker]
    refine (counts_record _).ends h fun _ c hc => (counts_record _).ends hc fun _ c hc => ?_
    exact (counts_recordConsumed _ _).ends hc fun _ c hc => made c fits fits' hc
  · exact lost (v.feed.tracker.pastRealTimeRecord tp r).realTimePositions _
      (fun fits => unfit fits.2) h.lost

end Effects

section Work

variable {w : Work} (hp : a.replica.phase = .working w)
include hp

/-- A record that failed is started over, or the replica halts. -/
theorem leads_recordFailed (h : a.At a.standing b) {e : IngestionError}
    (mishap : a.mishap? = some e) :
    (recordFailed w e).Leads a b :=
  leads_processingFailed h (by rw [hp]; rfl) mishap w.backoff (fun _ => rfl)
    fun b' pushTimeout retries pauses => .startOver w b' e pushTimeout hp retries pauses

omit hp in
theorem leads_settleValue (h : a.At a.standing b) (value : Option ByteArray)
    (performs : a.Performs (a.standing.inPhase (a.feed.settled w value))) :
    (settleValue w value).Leads a b := by
  have id : b.replica.id = a.replica.id := congrArg (fun v : Standing => v.feed.id) h.standing
  unfold Leads settleValue fromVersionTopic
  simp only [ends_bind, ends_self, ends_pure, id, decide_eq_true_eq]
  split
  · rename_i version
    rw [Feed.settled_of_readsVersion (f := a.feed) version] at performs
    exact leads_goTo h Phase.noConfusion performs
  · rename_i realTime
    rw [Feed.settled_of_not_readsVersion (f := a.feed) realTime] at performs
    exact leads_goTo h Phase.noConfusion performs

theorem leads_lookAt (hs : w.stage = .fresh) : (lookAt w).Leads a a := by
  unfold Leads lookAt
  split
  · rename_i value payload
    exact leads_settleValue (.refl a) _ (.look w _ hp hs (.put value payload))
  · rename_i payload
    exact leads_settleValue (.refl a) _ (.look w _ hp hs (.delete payload))
  · rename_i u payload
    exact leads_goTo (.refl a) Phase.noConfusion (.look w _ hp hs (.update u payload))
  · rename_i m payload
    unfold fromVersionTopic
    simp only [ends_bind, ends_self, ends_pure, decide_eq_true_eq]
    split
    · rename_i version
      -- What is left is the same for every message.
      have rest : ∀ b, a.At (a.standing.withFeed { a.feed with
            tracker := a.feed.tracker.marked m }) b →
          (do
            finishVersionRecord w.record
            nextRecord w.rest true : Act Unit).Leads a b := by
        intro b hb
        unfold Leads
        rw [ends_bind]
        refine ends_finishVersionRecord hb _ (fun b fits hb => ?_) fun positions b unfit hb => ?_
        · exact leads_nextRecord hb (.mark w m hp hs payload version fits)
        · exact hb.broken (.mark w m positions hp hs payload version unfit) rfl
      have marked := fun t => (Run.At.refl a).withTracker t
      cases m with
      | startOfPush => exact rest a (.refl a)
      | endOfPush => exact rest _ (marked fun t => { t with endOfPush := true })
      | startOfBufferReplay => exact rest _ (marked fun t => { t with startOfBufferReplay := true })
    · rename_i realTime
      rw [ends_bind]
      refine ends_finishRealTimeControl (.refl a) _ _ (fun b hb => ?_) fun b unfit hb => ?_
      · exact leads_nextRecord hb (.pass w m hp hs payload realTime)
      · exact hb.broken (.pass w m hp hs payload realTime (Nat.le_of_not_lt unfit)) rfl

theorem leads_mergeUpdate {u : PartialUpdate} (hs : w.stage = .merge u) :
    (mergeUpdate w u).Leads a a := by
  have hm := Run.mishap?_of_merge hp hs
  unfold Run.failure? at hm
  unfold Leads mergeUpdate
  rw [ends_bind]
  refine ends_readValue (by simp [hp, hs, Phase.calls]) (fun e b fault hb => ?_) fun b fine hb => ?_
  · rw [fault] at hm
    exact leads_recordFailed hp hb hm
  · have settings : b.replica.settings = a.replica.settings :=
      congrArg (fun v : Standing => v.feed.settings) hb.standing
    rw [fine] at hm
    dsimp only
    rw [ends_bind, ends_self, settings]
    refine (counts_modifyMetrics (by simp [Metrics.ReplicaMetrics.merged])).leads hb
      fun _ b hb => ?_
    split
    · rename_i value merged
      have merged : mergeBytes a.replica.settings.schema (a.feed.get? w.record.key) u =
        .ok value := merged
      rw [merged] at hm
      refine (counts_modifySelf _ (by intro _; rfl) (by simp) (by simp)).leads hb fun _ b hb => ?_
      exact leads_settleValue hb _ (.merge w u value hp hs hm merged)
    · rename_i e merged
      have merged : mergeBytes a.replica.settings.schema (a.feed.get? w.record.key) u =
        .error e := merged
      rw [merged] at hm
      exact leads_recordFailed hp hb hm

theorem leads_openVersionTopic {value : Option ByteArray} (hs : w.stage = .openTopic value) :
    (openVersionTopic w value).Leads a a := by
  have hm := Run.mishap?_of_openTopic hp hs
  unfold Leads openVersionTopic
  simp only [ends_bind, ends_self]
  refine ends_openTopic (by simp [hp, hs, Phase.calls]) (fun e b held failure hb => ?_)
    fun b fine hb => ?_
  · rw [held, failure] at hm
    exact leads_recordFailed hp hb hm
  · refine leads_goTo hb Phase.noConfusion (.openTopic w value hp hs ?_)
    rw [hm]
    rcases fine with held | fine
    · rw [held]
      rfl
    · rw [fine]
      split <;> rfl

theorem leads_publishValue {value : Option ByteArray} (hs : w.stage = .publish value) :
    (publishValue w value).Leads a a := by
  have hm := Run.mishap?_of_publish hp hs
  unfold Leads publishValue
  simp only [ends_bind, ends_self]
  refine ends_produce (by simp [hp, hs, Phase.calls]) (fun e b failure hb => ?_) fun b fine hb => ?_
  · exact leads_recordFailed hp hb (hm.trans failure)
  · exact leads_goTo hb Phase.noConfusion (.publish w value hp hs (hm.trans fine))

theorem leads_storeValue {value : Option ByteArray} {offset : Nat}
    (hs : w.stage = .write value offset) : (storeValue w value offset).Leads a a := by
  have hm := Run.mishap?_of_write hp hs
  unfold Leads storeValue fromVersionTopic
  rw [ends_bind]
  refine ends_writeValue (by simp [hp, hs, Phase.calls]) (by simp [hp, hs, Phase.stores])
    (fun e b failure hb => ?_) fun b fine hb => ?_
  · exact leads_recordFailed hp hb (hm.trans failure)
  · have id : b.replica.id = a.replica.id := congrArg (fun v : Standing => v.feed.id) hb.standing
    have performs := Run.Performs.store w value offset hp hs (hm.trans fine)
    have breaks := fun positions =>
      Run.BreaksOff.store w value offset positions hp hs (hm.trans fine)
    unfold Run.Fits at performs breaks
    unfold Feed.stored at performs
    simp only [ends_bind, ends_self, ends_pure, id, decide_eq_true_eq]
    split
    · rename_i version
      simp only [if_pos (show a.feed.readsVersion w from version)] at performs breaks
      rw [ends_bind]
      exact ends_finishVersionRecord hb _ (fun b fits hb => leads_nextRecord hb (performs fits))
        fun positions b unfit hb => hb.broken (breaks positions unfit) rfl
    · rename_i realTime
      simp only [if_neg (show ¬ a.feed.readsVersion w from realTime)] at performs breaks
      rw [ends_bind]
      exact ends_finishRealTimeRecord hb _ _ _ _
        (fun b fits fits' hb => leads_nextRecord hb (performs ⟨fits, fits'⟩))
        fun positions b unfit hb => hb.broken (breaks positions unfit) rfl

theorem leads_workOn : (workOn w).Leads a a := by
  unfold workOn
  split
  · rename_i hs
    exact leads_lookAt hp hs
  · rename_i hs
    exact leads_mergeUpdate hp hs
  · rename_i hs
    exact leads_openVersionTopic hp hs
  · rename_i hs
    exact leads_publishValue hp hs
  · rename_i hs
    exact leads_storeValue hp hs

end Work

/-! ## The rest of a cycle -/

theorem leads_commitBatch {backoff : Backoff} (hp : a.replica.phase = .committing backoff) :
    (commitBatch backoff).Leads a a := by
  have hm := Run.mishap?_of_committing hp
  unfold Leads commitBatch
  simp only [ends_bind, ends_self, ends_ofWord]
  refine ⟨fun _ _ => ?_, fun e he => ?_⟩
  · refine ends_commit (by simp [hp, Phase.calls]) (by rw [hp]; rfl) (fun e b failure hb => ?_)
      fun b fine hb => ?_
    · exact leads_processingFailed hb (by rw [hp]; rfl) (hm.trans failure) _
        (fun _ => rfl) fun b' pushTimeout retries pauses =>
          .commitAgain backoff b' e pushTimeout hp retries pauses
    · exact leads_goTo hb Phase.noConfusion (.commit backoff hp (hm.trans fine))
  · have heavy : a.replica.tracker.Heavy := LagTracker.heavy_of_snapshot he
    exact (Run.At.refl a).lost.broken (.rest a.asked heavy (.inr (by rw [hp]; rfl))) rfl

/-- To take a role may overflow when it is shown, but then it is taken. -/
theorem ends_takeRole (h : a.At v b) (role : Role) {Q : Unit → Run → Prop} {E : Run → Prop}
    (made : ∀ c, a.At (v.withFeed (v.feed.inRole role)) c → Q () c)
    (lost : ∀ c, a.Lost (v.withFeed (v.feed.inRole role)) c → v.feed.tracker.Heavy → E c) :
    (takeRole role).Ends b Q E := by
  have same : b.replica.role = v.feed.role := congrArg (fun v : Standing => v.feed.role) h.standing
  unfold Feed.inRole at made lost
  unfold takeRole
  rw [ends_bind, ends_self, same]
  split
  · rename_i other
    rw [if_pos other] at made lost
    simp only [ends_bind]
    refine (counts_modifyMetrics (by simp [Metrics.ReplicaMetrics.changeRole])).ends h
      fun _ c hc => ?_
    have taken := hc.change
      (r := { c.replica with
        role
        tracker := { c.replica.tracker with role }
        consumesRealTime := false
        catchUpTarget := none })
      (fun v => v.withFeed { v.feed with
        role
        tracker := { v.feed.tracker with role }
        consumesRealTime := false
        catchUpTarget := none }) rfl rfl rfl rfl id fun _ h => h
    exact aside_showStatus.ends taken (fun _ c hc => made c hc) fun c hc heavy => lost c hc heavy
  · rename_i same
    rw [if_neg same] at made
    exact made b h

/-- All commands that have come by the safe point are taken to heart. -/
theorem at_informed (a : Run) : a.At { a.standing with course := a.course.informed }
    { a with replica := { a.replica.inbox.foldl Replica.heed a.replica with
      inbox := []
      stopRequested := (a.replica.inbox.foldl Replica.heed a.replica).stopRequested ||
        !(a.replica.inbox.foldl Replica.heed a.replica).connected } } := by
  rw [Replica.foldl_heed, Course.informed_eq]
  exact (Run.At.refl a).change
    (fun v => { v with course := { v.course with
      pendingRole := (lastRole? a.replica.inbox).or a.replica.pendingRole
      stopRequested := a.replica.stopRequested || decide (.stop ∈ a.replica.inbox) ||
        !a.replica.connected
      inbox := [] } }) rfl rfl rfl rfl id fun _ h => h

/-- Once commands are taken to heart, a stop or the role asked for takes effect. -/
theorem leads_steered {processed : Bool} (hp : a.replica.phase = .safePoint processed)
    (h : a.At { a.standing with course := a.course.informed } b) :
    (if b.replica.stopRequested then goTo .leaving
      else match b.replica.pendingRole with
        | some role => do
          modifySelf fun r => { r with pendingRole := none }
          takeRole role
          goTo (.promoting processed)
        | none => goTo (.promoting processed) : Act Unit).Leads a b := by
  have stops : b.replica.stopRequested = a.course.informed.stopRequested :=
    congrArg (fun v : Standing => v.course.stopRequested) h.standing
  have role : b.replica.pendingRole = a.course.informed.pendingRole :=
    congrArg (fun v : Standing => v.course.pendingRole) h.standing
  have kept : a.course.informed.feed = a.feed := by
    rw [Course.informed_eq]
    rfl
  have performs := Run.Performs.obey processed hp
  unfold Course.obeyed Course.steered at performs
  rw [stops, role]
  split
  · rename_i stop
    rw [if_pos stop] at performs
    exact leads_goTo h Phase.noConfusion performs
  · rename_i stay
    rw [if_neg stay] at performs
    cases asks : a.course.informed.pendingRole with
    | none =>
      rw [asks] at performs
      exact leads_goTo h Phase.noConfusion performs
    | some role =>
      rw [asks] at performs
      have h := h.change (r := { b.replica with pendingRole := none })
        (fun v => { v with course := { v.course with pendingRole := none } }) rfl rfl rfl rfl id
        fun _ h => h
      unfold Leads
      simp only [ends_bind, ends_modifySelf]
      refine ends_takeRole h role (fun c hc => ?_) fun c hc heavy => ?_
      · exact leads_goTo hc Phase.noConfusion performs
      · have heavy : a.course.informed.feed.tracker.Heavy := heavy
        rw [kept] at heavy
        refine hc.broken (.done performs heavy ⟨?_, Phase.noConfusion⟩) rfl
        show a.feed.SameBooks { a.course.informed.feed.inRole role with phase := _ }
        rw [kept]
        exact { a.feed.sameBooks_inRole role with }

theorem leads_obey {processed : Bool} (hp : a.replica.phase = .safePoint processed) :
    (obey processed).Leads a a :=
  leads_steered hp (at_informed a)

/-- To look whether a target is reached aims at it. -/
theorem ends_turnAt (h : a.At v b) {target : Nat} {Q : Unit → Run → Prop} {E : Run → Prop}
    (aims : v.feed.catchUpTarget = some target)
    (made : ∀ c, a.At (v.withFeed (v.feed.aimedAt target)) c → Q () c) :
    (turnAt target).Ends b Q E := by
  have position : b.replica.tracker.versionPosition = v.feed.tracker.versionPosition :=
    congrArg (fun v : Standing => v.feed.tracker.versionPosition) h.standing
  unfold Feed.aimedAt at made
  unfold turnAt
  rw [ends_modifySelf, position]
  split
  · rename_i reached
    rw [if_pos reached] at made
    exact made _ (h.change
      (fun v => v.withFeed { v.feed with consumesRealTime := true, catchUpTarget := none })
      rfl rfl rfl rfl id fun _ h => h)
  · rename_i ahead
    rw [if_neg ahead, ← aims] at made
    exact made b h

theorem leads_promote {processed : Bool} (hp : a.replica.phase = .promoting processed) :
    (promote processed).Leads a a := by
  have goOn : ∀ b, a.At a.standing b → (goTo (.samplingVersion processed)).Leads a b := fun b hb =>
    leads_goTo hb Phase.noConfusion (.promote processed hp)
  unfold Leads promote
  simp only [ends_bind, ends_self]
  split
  · rename_i due
    obtain ⟨leader, hybrid, push, waits⟩ := due
    have waits : a.replica.consumesRealTime = false := by simpa using waits
    split
    · rename_i target aims
      rw [ends_bind]
      refine ends_turnAt (.refl a) aims fun b hb => leads_goTo hb Phase.noConfusion ?_
      exact .turn processed target hp leader hybrid push waits (.inl aims)
    · rename_i aimless
      rw [ends_bind]
      refine ends_endOffset (by simp [hp, Phase.calls]) (fun e b _ stumbles hb => ?_)
        fun b _ hb => ?_
      · exact (aside_onSourceFailure _).leads hb (.inl stumbles) fun _ b hb => goOn b hb
      · have hb := hb.change
          (r := { b.replica with catchUpTarget := some a.feed.versionRecords.length })
          (fun v => v.withFeed { v.feed with catchUpTarget := some a.feed.versionRecords.length })
          rfl rfl rfl rfl id fun _ h => h
        simp only [ends_bind, ends_modifySelf]
        refine ends_turnAt hb rfl fun b hb => ?_
        refine leads_goTo hb Phase.noConfusion ?_
        -- To take the target first changes nothing about aiming at it.
        exact .turn processed _ hp leader hybrid push waits (.inr ⟨aimless, rfl⟩)
  · exact goOn a (.refl a)

theorem leads_sampleVersion {processed : Bool} (hp : a.replica.phase = .samplingVersion processed) :
    (sampleVersion processed).Leads a a := by
  unfold Leads sampleVersion
  simp only [ends_bind, ends_self]
  refine ends_endOffset (by simp [hp, Phase.calls]) (fun e b _ stumbles hb => ?_) fun b _ hb => ?_
  · exact (aside_onSourceFailure _).leads hb (.inl stumbles) fun _ b hb =>
      leads_goTo hb Phase.noConfusion (.miss processed hp)
  · have hb := hb.withTracker (·.withVersionEnd a.feed.versionRecords.length)
    show Ends (modifyTracker _ >>= _) b _ _
    rw [ends_bind, ends_modifyTracker]
    split
    · exact leads_goTo hb Phase.noConfusion (.sampleVersion processed _ hp (.inr rfl))
    · exact leads_goTo hb Phase.noConfusion (.sampleVersion processed _ hp (.inl rfl))

theorem leads_sampleRegion {processed : Bool} {regions : List (Option RegionId)}
    (hp : a.replica.phase = .samplingRegions processed regions) :
    (sampleRegion processed regions).Leads a a := by
  cases regions with
  | nil => exact leads_goTo (.refl a) Phase.noConfusion (.sampled processed [] hp (.inl rfl))
  | cons region rest =>
    unfold Leads sampleRegion
    simp only [ends_bind, ends_self]
    refine ends_endOffset (by simp [hp, Phase.calls]) (fun e b _ stumbles hb => ?_)
      fun b answered hb => ?_
    · exact (aside_onSourceFailure _).leads hb (.inl stumbles) fun _ b hb =>
        leads_goTo hb Phase.noConfusion (.sampled processed _ hp (.inr stumbles))
    · have hb := hb.withTracker (·.withRealTimeEnd region
        (a.feed.log.records (a.feed.id.realTimeTopic region)).length)
      exact leads_goTo hb Phase.noConfusion (.sampleRegion processed region rest hp answered)

/-- At the end of a cycle a report and, where nothing was processed, a pause. -/
theorem leads_conclusion (h : a.At v b) (processed : Bool)
    (tracker : v.feed.tracker = a.feed.tracker)
    (books : a.feed.SameBooks v.feed) (performs : ∀ paused, a.Performs { v with
      course := { v.course.inPhase (.aligning false) with paused } }) :
    (do
      report
      goTo (.aligning false)
      if !processed then pause (← settings).pollInterval : Act Unit).Leads a b := by
  unfold Leads
  rw [ends_bind]
  refine aside_report.ends h (fun _ c hc => ?_) fun c hc heavy => ?_
  · have hc := hc.inPhase (p := .aligning false) Phase.noConfusion
    rw [ends_bind, ends_goTo]
    cases processed with
    | true => exact hc.ended (performs v.course.paused)
    | false =>
      have hc := hc.change
        (r := { c.replica with
          phase := .aligning false
          wakeAt := some (c.commons.now + c.site.settings.pollInterval) })
        (fun v => { v with course := { v.course with paused := true } }) rfl rfl rfl rfl id
        fun _ h => h
      exact hc.ended (performs true)
  · rw [tracker] at heavy
    exact hc.broken (.done (performs true) heavy ⟨{ books with }, Phase.noConfusion⟩) rfl

theorem leads_conclude {processed : Bool} (hp : a.replica.phase = .concluding processed) :
    (conclude processed).Leads a a := by
  have stays : (do
      checkPushTimeout
      report
      goTo (.aligning false)
      if !processed then pause (← settings).pollInterval : Act Unit).Leads a a := by
    have performs := fun paused pushTimeout => Run.Performs.conclude processed paused pushTimeout hp
    refine leads_checkPushTimeout (.refl a) (fun pushTimeout warns =>
      ⟨_, performs true pushTimeout warns, ⟨⟨rfl, rfl, rfl, rfl, rfl⟩, Phase.noConfusion⟩, rfl⟩)
      fun pushTimeout b warns hb => ?_
    exact leads_conclusion hb processed rfl ⟨rfl, rfl, rfl, rfl, rfl⟩ fun paused =>
      performs paused pushTimeout warns
  unfold Leads conclude
  rw [ends_bind, ends_self]
  by_cases state : a.replica.state = .bootstrapping
  · rw [if_pos state, ends_bind, ends_ofWord]
    refine ⟨fun caughtUp hc => ?_, fun e he => ?_⟩
    · cases caughtUp with
      | false => exact stays
      | true =>
        have performs := fun paused => Run.Performs.goOnline processed paused hp state hc
        refine leads_setState (.refl a) ReplicaState.noConfusion (performs true)
          ⟨⟨rfl, rfl, rfl, rfl, rfl⟩, Phase.noConfusion⟩ rfl fun b hb => ?_
        refine leads_checkPushTimeout_of_endOfPush hb (LagTracker.endOfPush_of_isCaughtUp hc)
          fun c hc => ?_
        exact leads_conclusion hc processed rfl ⟨rfl, rfl, rfl, rfl, rfl⟩ performs
    · have heavy : a.replica.tracker.Heavy := LagTracker.heavy_of_isCaughtUp he
      exact (Run.At.refl a).lost.broken (.rest a.asked heavy (.inr (by rw [hp]; rfl))) rfl
  · rw [if_neg state]
    exact stays

/-! ## Leaving -/

theorem leads_retire (hp : a.replica.phase = .leaving) : retire.Leads a a := by
  have performs := Run.Performs.retire hp
  have hr : a.At a.standing a.unreported :=
    ⟨rfl, ⟨rfl, .inl rfl, fun _ => .inl rfl, fun _ => rfl, fun _ _ => rfl, fun _ h => h⟩, id,
      .unreported⟩
  unfold Leads retire
  rw [ends_bind, ends_self, ends_bind, ends_modifySite, ends_bind]
  refine (ends_setState_enters .unsubscribed a.unreported).mono ?_ ?_
  · rintro _ b ⟨shifts, shown, enters⟩
    have hb := hr.passes (shifts.passes shown fun sound =>
      (enters sound).keeps ReplicaState.noConfusion)
    have standing : b.standing = { a.standing with state := .unsubscribed } := hb.standing
    refine ⟨?_, { hb.upholds with }, hb.shows, fun sound => .retires ?_⟩
    · show a.Performs (b.standing.inPhase .stopped)
      rw [standing]
      exact performs
    · refine (hb.keeps sound).retires sound ?_ (congrArg Standing.state standing)
      exact (enters (hr.keeps sound).sound).stats
  · rintro b ⟨shifts, status, heavy, enters⟩
    have shown : a.unreported.outlook.Shows →
        b.replica.status.face = a.unreported.replica.status.face := fun _ => congrArg _ status
    have tracker : b.replica.tracker = a.replica.tracker :=
      congrArg (fun v : Standing => v.feed.tracker) shifts.standing
    refine hr.broken ⟨shifts, shown, tracker ▸ heavy, fun sound =>
      (enters sound).keeps ReplicaState.noConfusion⟩ (.inl rfl) id performs
        ⟨⟨rfl, rfl, rfl, rfl, rfl⟩, Phase.noConfusion⟩ rfl

theorem leads_leave (hp : a.replica.phase = .leaving) : leave.Leads a a := by
  unfold Leads leave
  rw [ends_bind, ends_self]
  split
  · rename_i c tp _ _ _
    have detach : ∀ consumer b, a.At (a.standing.withFeed { a.feed with consumer }) b →
        (modifySelf fun r => { r with subscriptions := r.subscriptions.erase tp }).Leads a b := by
      intro consumer b hb
      have hb := hb.change
        (r := { b.replica with subscriptions := b.replica.subscriptions.erase tp })
        (fun v => v.withFeed { v.feed with subscriptions := v.feed.subscriptions.erase tp })
        rfl rfl rfl rfl id fun _ h => h
      exact hb.ended (.detach consumer _ hp)
    rw [ends_bind]
    exact ends_unsubscribe (by simp [hp, Phase.calls]) (fun _ b _ hb => detach _ b hb)
      fun b hb => detach _ b hb
  · exact leads_retire hp

theorem leads_waitForStop (hp : a.replica.phase = .parked) : waitForStop.Leads a a := by
  have performs := Run.Performs.wait hp
  have heard := fun rest => (Run.At.refl a).change (r := { a.replica with inbox := rest })
    (fun v => { v with course := { v.course with inbox := rest } }) rfl rfl rfl rfl id fun _ h => h
  unfold Course.waited at performs
  unfold Leads waitForStop
  rw [ends_bind, ends_self]
  cases inbox : a.replica.inbox with
  | nil =>
    rw [show a.course.inbox = [] from inbox] at performs
    have same : (a.replica.stopRequested || !a.replica.connected) = a.course.hearsStop := rfl
    dsimp only at performs ⊢
    rw [same]
    split
    · rename_i hears
      rw [if_pos hears] at performs
      exact leads_goTo (.refl a) Phase.noConfusion performs
    · rename_i hears
      rw [if_neg hears] at performs
      exact (Run.At.refl a).ended performs
  | cons c rest =>
    rw [show a.course.inbox = c :: rest from inbox] at performs
    cases c with
    | stop => exact leads_goTo (heard rest) Phase.noConfusion performs
    | changeRole role => exact (heard rest).ended performs

/-! ## Steps -/

/-- What any phase that does not wait leads to. -/
theorem leads_inPhase {p : Phase} (hp : a.replica.phase = p) (waits : a.isWaiting = false) :
    (inPhase p).Leads a a := by
  unfold Run.isWaiting Replica.isWaiting at waits
  cases p with
  | created => exact leads_start hp
  | restoring since => exact leads_restoreCheckpoint hp
  | acquiring since => exact leads_acquire hp
  | aligning first => exact leads_align hp
  | attaching first tp offset => exact leads_attach hp
  | polling => exact leads_pollBatch hp
  | working w => exact leads_workOn hp
  | committing b => exact leads_commitBatch hp
  | safePoint processed => exact leads_obey hp
  | promoting processed => exact leads_promote hp
  | samplingVersion processed => exact leads_sampleVersion hp
  | samplingRegions processed rest => exact leads_sampleRegion hp
  | concluding processed => exact leads_conclude hp
  | parked => exact leads_waitForStop hp
  | leaving => exact leads_leave hp
  | stopped =>
    rw [hp] at waits
    cases waits
  | killed =>
    rw [hp] at waits
    cases waits

/-- The end of a pause. -/
theorem ends_wake (a : Run) {E : Run → Prop} :
    wake.Ends a (fun _ b => a.At { a.standing with course := a.course.woken } b) E := by
  -- A command is heard, or that nobody can send one; what is left is the same.
  have rest : ∀ b, a.At { a.standing with course := a.course.roused } b →
      (if b.replica.stopRequested then goTo .leaving else pure () : Act Unit).Ends b
        (fun _ c => a.At { a.standing with course := a.course.woken } c) E := by
    intro b hb
    have stops : b.replica.stopRequested = a.course.roused.stopRequested :=
      congrArg (fun v : Standing => v.course.stopRequested) hb.standing
    unfold Course.woken
    rw [stops]
    split
    · exact hb.inPhase Phase.noConfusion
    · exact hb
  unfold wake
  rw [ends_bind, ends_modifySelf, ends_bind, ends_self]
  refine rest _ ?_
  unfold Course.roused
  cases inbox : a.replica.inbox with
  | nil =>
    rw [show a.course.inbox = [] from inbox]
    exact (Run.At.refl a).change
      (r := { a.replica with
        wakeAt := none
        stopRequested := a.replica.stopRequested || !a.replica.connected
        inbox := [] })
      (fun v => { v with course := { v.course with
        paused := false, stopRequested := v.course.hearsStop, inbox := [] } })
      rfl rfl rfl rfl id fun _ h => h
  | cons c rest =>
    rw [show a.course.inbox = c :: rest from inbox]
    cases c with
    | changeRole role =>
      exact (Run.At.refl a).change
        (r := { a.replica with pendingRole := some role, inbox := rest, wakeAt := none })
        (fun v => { v with
          course := { v.course.heed (.changeRole role) with inbox := rest, paused := false } })
        rfl rfl rfl rfl id fun _ h => h
    | stop =>
      exact (Run.At.refl a).change
        (r := { a.replica with stopRequested := true, inbox := rest, wakeAt := none })
        (fun v => { v with
          course := { v.course.heed .stop with inbox := rest, paused := false } })
        rfl rfl rfl rfl id fun _ h => h

end Act

namespace Run

variable {a b : Run}

/-- A step does one of the things that are listed, upholds the rest, and accounts for what it
does. -/
structure Steps (a b : Run) : Prop where
  takes : a.Takes b
  upholds : a.Upholds b
  accounts : a.site.stats.Sound → a.Accounts b

theorem Ended.steps (h : a.Ended b) (waits : a.isWaiting = false)
    (awake : a.replica.wakeAt = none) : a.Steps b :=
  ⟨.act waits awake h.performs h.shows, h.upholds, h.accounts⟩

theorem Broken.steps (h : a.Broken b) (waits : a.isWaiting = false)
    (awake : a.replica.wakeAt = none) : a.Steps b.ended := by
  obtain ⟨v, breaks, standing⟩ := h.breaks
  refine ⟨.breakOff waits awake breaks standing fun shows => ?_, { h.upholds with }, h.accounts⟩
  have face : b.standing.face = v.face := (congrArg Standing.face standing :)
  exact (h.shown shows).imp_right fun shows => shows.trans face

/-- What a phase does ends no task as an overflow does. -/
theorem Performs.ne_killed {v : Standing} (h : a.Performs v) : v.feed.phase ≠ .killed := by
  have live : ∀ {p : Phase}, p.isOver = false → p ≠ .killed := fun live =>
    Phase.ne_of_isOver live rfl
  have stays : ∀ {p : Phase}, a.replica.phase = p → p ≠ .killed → a.replica.phase ≠ .killed := by
    rintro p rfl alive
    exact alive
  cases h with
  | again p _ next => exact live (Phase.live_of_retry? next).2
  | drop first c tp rest phase => exact stays phase Phase.noConfusion
  | poll | mark | pass | store => exact live (Feed.isOver_nextPhase ..)
  | look w p _ _ looks =>
    cases looks with
    | put | delete => exact live (Feed.isOver_settled ..)
    | update => exact Phase.noConfusion
  | merge => exact live (Feed.isOver_settled ..)
  | sampleVersion _ p _ next => rcases next with rfl | rfl <;> exact Phase.noConfusion
  | obey processed =>
    obtain ⟨_, _, _, _, _, rfl | rfl, obeyed⟩ := a.course.obeyed_eq processed <;> rw [obeyed] <;>
      exact Phase.noConfusion
  | wait phase =>
    obtain ⟨_, _, rfl | rfl, waited⟩ := a.course.waited_eq <;> rw [waited]
    · exact stays phase Phase.noConfusion
    · exact Phase.noConfusion
  | detach _ _ phase => exact stays phase Phase.noConfusion
  | _ => exact Phase.noConfusion

/-- A step that returns leaves the task alive, and one that is broken off acted. -/
theorem ends_step (a : Run) : Act.step.Ends a
    (fun _ b => a.Steps b ∧ (a.replica.phase ≠ .killed → b.replica.phase ≠ .killed))
    fun b => a.isWaiting = false ∧ a.replica.wakeAt = none ∧ a.Broken b := by
  unfold Act.step
  simp only [Act.ends_bind, Act.ends_self, Act.ends_now]
  split
  · rename_i waits
    exact ⟨⟨.rest waits rfl, .refl a, fun sound => .keeps (.refl sound)⟩, id⟩
  · rename_i acts
    have waits : a.isWaiting = false := Bool.eq_false_iff.mpr acts
    cases wakeAt : a.replica.wakeAt with
    | some t =>
      have paused : a.course.paused = true := by
        rw [course, wakeAt]
        rfl
      refine (Act.ends_wake a (E := fun _ => False)).mono (fun _ b hb => ?_) fun _ h => h.elim
      refine ⟨⟨.wake waits paused hb.standing hb.shows, hb.upholds,
        fun sound => .keeps (hb.keeps sound)⟩, fun alive => ?_⟩
      have phase : b.replica.phase = a.course.woken.feed.phase :=
        congrArg (fun v : Standing => v.feed.phase) hb.standing
      obtain ⟨_, _, _, _, rfl | rfl, woken⟩ := a.course.woken_eq <;> rw [phase, woken]
      · exact alive
      · exact Phase.noConfusion
    | none =>
      exact (Act.leads_inPhase rfl waits).mono
        (fun _ b hb => ⟨hb.steps waits wakeAt, fun _ => hb.performs.ne_killed⟩)
        fun b hb => ⟨waits, rfl, hb⟩

theorem steps_step (a : Run) : a.Steps a.step :=
  step_of_ends ((ends_step a).mono (fun _ _ h => h.1) fun _ h => h.2.2.steps h.1 h.2.1)

/-- What a step of a replica does. -/
theorem step_takes (a : Run) : a.Takes a.step := (steps_step a).takes

/-- A replica that acts does what its phase says, or is broken off in it. -/
theorem step_acts (awake : a.replica.wakeAt = none) (live : a.replica.phase.isOver = false) :
    a.Performs a.step.standing ∨ ∃ v, a.BreaksOff v ∧ a.step.standing = v.killed := by
  cases a.step_takes with
  | rest waits => cases waits.symm.trans (acts_of_live awake live)
  | wake _ paused => cases paused.symm.trans (congrArg Option.isSome awake)
  | act _ _ performs => exact .inl performs
  | breakOff _ _ breaks standing => exact .inr ⟨_, breaks, standing⟩

/-- Where no record is in hand, no call fails and no lag is taken, all is done that the phase
says. -/
theorem step_performs (awake : a.replica.wakeAt = none) (live : a.replica.phase.isOver = false)
    (calm : ¬ a.Stumbles) (weighs : a.replica.phase.weighs = false) (unasked : a.sought? = none)
    (free : ∀ w, a.replica.phase ≠ .working w) :
    ∃ v, a.Performs v ∧ (a.step.standing = v ∨ a.Stays v ∧ a.step.standing = v.killed) := by
  rcases step_acts awake live with performs | ⟨v, breaks, standing⟩
  · exact ⟨_, performs, .inl rfl⟩
  · cases breaks with
    | done performs _ stays => exact ⟨v, performs, .inr ⟨stays, standing⟩⟩
    | rest _ _ reason =>
      rcases reason with stumbles | heavy
      · exact absurd stumbles calm
      · cases heavy.symm.trans weighs
    | far sought =>
      rw [unasked] at sought
      cases sought
    | pass w m phase | mark w m _ phase | store w _ _ _ phase => exact absurd phase (free w)

/-- What a step of a replica leaves as it was. -/
theorem step_upholds (a : Run) : a.Upholds a.step := (steps_step a).upholds

/-- A step of a replica accounts for what it does. -/
theorem step_accounts (sound : a.site.stats.Sound) : a.Accounts a.step :=
  (steps_step a).accounts sound

end Run

end StoreFeed
