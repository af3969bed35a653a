import StoreFeed.Proofs.Replica.Ends

/-!
# The course of a replica

`Course` is what decides where a replica goes next: its feed, its pauses, the commands it was sent
and took to heart, and whether it was halted by an error. `Run.mishap?` is the error that the record
in hand, or the commit, is about to meet.

`Run.Does` lists, one constructor for each outcome, all that a phase can do to a course; where an
overflow breaks it off, `Run.Breaks` says what is left. That the steps of a replica are of this kind
is shown in `StoreFeed.Proofs.Replica.Ways`, for any faults and any records.
-/

namespace StoreFeed

/-- Whether a phase is outside a batch: from the start of a cycle to its poll, and after its safe
point. -/
def Phase.isFree : Phase → Bool
  | .created | .restoring _ | .acquiring _ | .aligning _ | .attaching .. | .polling | .promoting _
  | .samplingVersion _ | .samplingRegions .. | .concluding _ => true
  | _ => false

theorem Phase.live_of_isFree {p : Phase} (h : p.isFree = true) : p.isOver = false := by
  cases p <;> first | rfl | cases h

namespace Feed

/-- The tracker once a value is written: past the record, or past what was published for it. -/
def stored (f : Feed) (w : Work) (offset : Nat) : LagTracker :=
  if f.readsVersion w then f.tracker.pastVersionRecord w.record
  else (f.tracker.pastRealTimeRecord w.topic w.record).atVersionPosition (offset + 1)

/-- The feed of a replica that is told a role. -/
def inRole (f : Feed) (role : Role) : Feed :=
  if role ≠ f.role then
    { f with
      role
      tracker := { f.tracker with role }
      consumesRealTime := false
      catchUpTarget := none }
  else f

/-- A role decides neither what was consumed nor what was stored. -/
theorem inRole_eq (f : Feed) (role : Role) : ∃ realTime target, f.inRole role =
    { f with
      role, tracker := { f.tracker with role := (f.inRole role).tracker.role }
      consumesRealTime := realTime, catchUpTarget := target } := by
  unfold inRole
  split
  · exact ⟨_, _, rfl⟩
  · rename_i same
    rw [Decidable.not_not.mp same]
    exact ⟨_, _, rfl⟩

theorem sameBooks_inRole (f : Feed) (role : Role) : f.SameBooks (f.inRole role) := by
  unfold inRole
  split <;> exact ⟨rfl, rfl, rfl, rfl, rfl⟩

/-- No record was consumed, nothing was stored, and the role is the same. -/
structure Like (f g : Feed) : Prop where
  id : g.id = f.id
  settings : g.settings = f.settings
  role : g.role = f.role
  data : g.data = f.data
  versionPosition : g.tracker.versionPosition = f.tracker.versionPosition
  endOfPush : g.tracker.endOfPush = f.tracker.endOfPush

theorem Like.refl (f : Feed) : f.Like f := ⟨rfl, rfl, rfl, rfl, rfl, rfl⟩

/-- What a look at a record leads to. -/
inductive Looks (f : Feed) (w : Work) : Phase → Prop where
  | put (value : ByteArray) (payload : w.record.payload = .put value) :
      Looks f w (f.settled w (some value))
  | delete (payload : w.record.payload = .delete) : Looks f w (f.settled w none)
  | update (u : PartialUpdate) (payload : w.record.payload = .update u) :
      Looks f w (.working { w with stage := .merge u })

end Feed

/-- The role that a command asks for. -/
def Command.role? : Command → Option Role
  | .changeRole role => some role
  | .stop => none

/-- The last role that some commands ask for. -/
def lastRole? (commands : List Command) : Option Role := (commands.filterMap Command.role?).getLast?

theorem lastRole?_append (commands later : List Command) :
    lastRole? (commands ++ later) = (lastRole? later).or (lastRole? commands) := by
  rw [lastRole?, List.filterMap_append, List.getLast?_append]
  rfl

/-- What decides where a replica goes next. -/
structure Course where
  feed : Feed
  /-- Whether it pauses before its next step. -/
  paused : Bool
  pendingRole : Option Role
  stopRequested : Bool
  inbox : List Command
  connected : Bool
  errored : Bool

namespace Course

/-- Go to a phase. -/
def inPhase (o : Course) (p : Phase) : Course := { o with feed := { o.feed with phase := p } }

/-- Another state of the tracker. -/
def withTracker (o : Course) (t : LagTracker) : Course :=
  { o with feed := { o.feed with tracker := t } }

/-- The course once the task is ended by an overflow. -/
def killed (o : Course) : Course := { o.inPhase .killed with paused := false }

/-- The course of a replica that was halted by an error. -/
def halted (o : Course) : Course := { o.inPhase .parked with errored := true }

/-- A command is taken to heart. -/
def heed (o : Course) : Command → Course
  | .changeRole role => { o with pendingRole := some role }
  | .stop => { o with stopRequested := true }

/-- Nobody who could send a command is a stop. -/
def hearsStop (o : Course) : Bool := o.stopRequested || !o.connected

/-- All commands are taken to heart. -/
def informed (o : Course) : Course :=
  let o := { o.inbox.foldl heed o with inbox := [] }
  { o with stopRequested := o.hearsStop }

/-- The role asked for is taken. -/
def steered (o : Course) : Course :=
  match o.pendingRole with
  | some role => { o with pendingRole := none, feed := o.feed.inRole role }
  | none => o

/-- All commands take effect. -/
def obeyed (o : Course) (processed : Bool) : Course :=
  if o.informed.stopRequested then o.informed.inPhase .leaving
  else o.informed.steered.inPhase (.promoting processed)

/-- A pause ends: by a command, or because nobody can send one, or its time has come. -/
def roused (o : Course) : Course :=
  match o.inbox with
  | c :: rest => { o.heed c with inbox := rest, paused := false }
  | [] => { o with paused := false, stopRequested := o.hearsStop }

/-- A pause is over; a stop takes effect. -/
def woken (o : Course) : Course :=
  if o.roused.stopRequested then o.roused.inPhase .leaving else o.roused

/-- A halted replica looks for a stop. -/
def waited (o : Course) : Course :=
  match o.inbox with
  | .stop :: rest => { o with inbox := rest }.inPhase .leaving
  | .changeRole _ :: rest => { o with inbox := rest }
  | [] => if o.hearsStop then o.inPhase .leaving else o

/-- Of the roles asked for the last one counts, and a stop counts wherever it comes. -/
theorem foldl_heed (commands : List Command) (o : Course) : commands.foldl heed o =
    { o with
      pendingRole := (lastRole? commands).or o.pendingRole
      stopRequested := o.stopRequested || decide (.stop ∈ commands) } := by
  induction commands generalizing o with
  | nil => simp [lastRole?]
  | cons c rest ih =>
    have last : lastRole? (c :: rest) = (lastRole? rest).or c.role? := by
      rw [← List.singleton_append, lastRole?_append]
      cases c <;> rfl
    rw [List.foldl_cons, ih, last, Option.or_assoc]
    cases c <;> simp [heed, Command.role?]

theorem informed_eq (o : Course) : o.informed =
    { o with
      pendingRole := (lastRole? o.inbox).or o.pendingRole
      stopRequested := o.stopRequested || decide (.stop ∈ o.inbox) || !o.connected
      inbox := [] } := by
  unfold informed
  rw [foldl_heed]
  rfl

/-- At the end of a pause the replica goes on, or leaves. -/
theorem woken_eq (o : Course) : ∃ pendingRole stopRequested inbox phase,
    (phase = o.feed.phase ∨ phase = .leaving) ∧
      o.woken = { o.inPhase phase with pendingRole, stopRequested, inbox, paused := false } := by
  have woken : ∀ pendingRole stopRequested inbox,
      o.roused = { o with pendingRole, stopRequested, inbox, paused := false } →
      ∃ pendingRole stopRequested inbox phase, (phase = o.feed.phase ∨ phase = .leaving) ∧
        o.woken = { o.inPhase phase with pendingRole, stopRequested, inbox, paused := false } := by
    intro pendingRole stopRequested inbox h
    unfold woken
    rw [h]
    split
    · exact ⟨pendingRole, stopRequested, inbox, _, .inr rfl, rfl⟩
    · exact ⟨pendingRole, stopRequested, inbox, _, .inl rfl, rfl⟩
  unfold roused at woken
  cases hi : o.inbox with
  | nil =>
    rw [hi] at woken
    exact woken o.pendingRole o.hearsStop [] rfl
  | cons c rest =>
    rw [hi] at woken
    cases c with
    | changeRole role => exact woken (some role) o.stopRequested rest rfl
    | stop => exact woken o.pendingRole true rest rfl

/-- A halted replica stays halted, or leaves. -/
theorem waited_eq (o : Course) : ∃ inbox phase, (phase = o.feed.phase ∨ phase = .leaving) ∧
    o.waited = { o.inPhase phase with inbox } := by
  unfold waited
  split
  · exact ⟨_, _, .inr rfl, rfl⟩
  · exact ⟨_, _, .inl rfl, rfl⟩
  · split
    · exact ⟨_, _, .inr rfl, rfl⟩
    · exact ⟨_, _, .inl rfl, rfl⟩

/-- At the safe point the replica goes on, in a role or another, or leaves. -/
theorem obeyed_eq (o : Course) (processed : Bool) : ∃ f pendingRole stopRequested phase,
    (f = o.feed ∨ ∃ role, f = o.feed.inRole role) ∧
      (phase = .leaving ∨ phase = .promoting processed) ∧
      o.obeyed processed =
        { o with feed := { f with phase }, pendingRole, stopRequested, inbox := [] } := by
  unfold obeyed steered
  rw [informed_eq]
  split
  · exact ⟨_, _, _, _, .inl rfl, .inl rfl, rfl⟩
  · split
    · exact ⟨_, _, _, _, .inr ⟨_, rfl⟩, .inr rfl, rfl⟩
    · exact ⟨_, _, _, _, .inl rfl, .inr rfl, rfl⟩

end Course

/-- Commands are taken to heart in their order. -/
theorem Replica.foldl_heed (commands : List Command) (r : Replica) : commands.foldl heed r =
    { r with
      pendingRole := (lastRole? commands).or r.pendingRole
      stopRequested := r.stopRequested || decide (.stop ∈ commands) } := by
  induction commands generalizing r with
  | nil => simp [lastRole?]
  | cons c rest ih =>
    have last : lastRole? (c :: rest) = (lastRole? rest).or c.role? := by
      rw [← List.singleton_append, lastRole?_append]
      cases c <;> rfl
    rw [List.foldl_cons, ih, last, Option.or_assoc]
    cases c <;> simp [heed, Command.role?]

namespace Run

/-- The course of a replica with its surroundings. -/
def course (run : Run) : Course :=
  { feed := run.feed
    paused := run.replica.wakeAt.isSome
    pendingRole := run.replica.pendingRole
    stopRequested := run.replica.stopRequested
    inbox := run.replica.inbox
    connected := run.replica.connected
    errored := run.replica.errored }

/-! ## Errors -/

/-- The fault that is planned for the next call of an operation. -/
def fault? (run : Run) (op : Operation) : Option IngestionError := (run.site.faults.next op).1

/-- The error of a call that is answered so unless a fault is planned. -/
def failure? {α : Type} (run : Run) (op : Operation) (answer : Except IngestionError α) :
    Option IngestionError :=
  match run.fault? op, answer with
  | some e, _ => some e
  | none, .error e => some e
  | none, .ok _ => none

/-- The error that the next step meets in the record in hand, or in the commit of a batch. -/
def mishap? (run : Run) : Option IngestionError :=
  match run.replica.phase with
  | .working w =>
    match w.stage with
    | .fresh => none
    | .merge u =>
      let current := run.site.storage.get? run.replica.id w.record.key
      run.failure? .get ((mergeBytes run.replica.settings.schema current u).mapError .merge)
    | .openTopic _ =>
      let topic := run.replica.id.versionTopic.topic
      if run.site.producers.contains run.commons.now topic then none
      else (run.failure? .producer run.commons.log.checkAvailable).map (Producers.openFailure topic)
    | .publish _ => run.failure? .produce run.commons.log.checkAvailable
    | .write value offset =>
      run.failure? (if value.isSome then .put else .delete)
        (run.site.storage.write run.replica.id w.record.key ⟨value, offset⟩).1
  | .committing _ => run.failure? .commit (.ok ())
  | _ => none

section Mishap

variable {run : Run} {w : Work} (phase : run.replica.phase = .working w)
include phase

/-- Only a value that was prepared meets an error. -/
theorem mishap?_of_fresh (stage : w.stage = .fresh) : run.mishap? = none := by
  unfold mishap?
  rw [phase]
  dsimp only
  rw [stage]

theorem mishap?_of_merge {u : PartialUpdate} (stage : w.stage = .merge u) :
    run.mishap? = run.failure? .get
    ((mergeBytes run.replica.settings.schema (run.feed.get? w.record.key) u).mapError .merge) := by
  unfold mishap?
  rw [phase]
  dsimp only
  rw [stage]
  rfl

theorem mishap?_of_openTopic {value : Option ByteArray} (stage : w.stage = .openTopic value) :
    run.mishap? =
      if run.site.producers.contains run.commons.now run.replica.id.versionTopic.topic then none
      else (run.failure? .producer run.commons.log.checkAvailable).map
        (Producers.openFailure run.replica.id.versionTopic.topic) := by
  unfold mishap?
  rw [phase]
  dsimp only
  rw [stage]

theorem mishap?_of_publish {value : Option ByteArray} (stage : w.stage = .publish value) :
    run.mishap? = run.failure? .produce run.commons.log.checkAvailable := by
  unfold mishap?
  rw [phase]
  dsimp only
  rw [stage]

theorem mishap?_of_write {value : Option ByteArray} {offset : Nat}
    (stage : w.stage = .write value offset) :
    run.mishap? = run.failure? (if value.isSome then .put else .delete)
      (run.site.storage.write run.replica.id w.record.key ⟨value, offset⟩).1 := by
  unfold mishap?
  rw [phase]
  dsimp only
  rw [stage]

end Mishap

theorem mishap?_of_committing {run : Run} {backoff : Backoff}
    (phase : run.replica.phase = .committing backoff) :
    run.mishap? = run.failure? .commit (.ok () : Except IngestionError Unit) := by
  unfold mishap?
  rw [phase]

/-- The batch that the next poll gets: what was injected, and what the log holds. There is none
where the call fails. -/
def batch? (run : Run) : Option (List (TopicPartition × ChangeRecord)) :=
  match run.fault? .poll, run.replica.consumer with
  | none, some c =>
    match c.poll run.commons.log run.site.settings.pollBatchSize with
    | .ok (batch, _) => some (run.site.injected ++ batch)
    | .error _ => none
  | _, _ => none

/-- What a poll gets that does not fail. -/
theorem batch?_of_poll (run : Run) {c c' : Consumer} {batch : List (TopicPartition × ChangeRecord)}
    (fine : run.fault? .poll = none) (hc : run.replica.consumer = some c)
    (h : c.poll run.commons.log run.site.settings.pollBatchSize = .ok (batch, c')) :
    run.batch? = some (run.site.injected ++ batch) := by
  unfold batch?
  rw [fine, hc]
  dsimp only
  rw [h]

/-- Why a replica halts. -/
inductive Halts (a : Run) : Prop where
  /-- A record or commit failed after the end of the push, for another reason than that the source
  is away. -/
  | failed (e : IngestionError) (mishap : a.mishap? = some e) (final : e.isRetriable = false)
      (push : a.replica.tracker.endOfPush = true)
  | misconfigured (op : Operation) (reason : String)
      (fault : a.fault? op = some (.configuration reason))

/-- Why a record or commit is tried again. -/
structure Retries (a : Run) (e : IngestionError) : Prop where
  mishap : a.mishap? = some e
  spared : e.isRetriable = true ∨ a.replica.tracker.endOfPush = false

/-! ## What a phase does -/

/-- What a phase can do to the course of a replica. -/
inductive Does (a : Run) : Course → Prop where
  /-- Its task has ended. -/
  | rest (phase : a.replica.phase.isOver = true) : Does a a.course
  /-- The replica goes about, outside a batch. -/
  | drift (f : Feed) (paused : Bool) (like : a.feed.Like f) (phase : a.replica.phase.isFree)
      (phase' : f.phase.isFree) : Does a { a.course with feed := f, paused }
  /-- The last checkpoint is read. -/
  | restore (since next : Nat) (phase : a.replica.phase = .restoring since) :
      Does a { a.course with feed := { a.feed with
        phase := .acquiring next
        tracker := a.feed.tracker.resumed a.feed.data.checkpoint } }
  | poll (consumer : Option Consumer) (b : Backoff) (batch : List (TopicPartition × ChangeRecord))
      (phase : a.replica.phase = .polling) (polled : a.batch? = some batch) :
      Does a { a.course with feed := { a.feed with
        consumer, phase := { a.feed with consumer }.nextPhase b batch false } }
  | look (w : Work) (p : Phase) (phase : a.replica.phase = .working w) (stage : w.stage = .fresh)
      (looks : a.feed.Looks w p) : Does a (a.course.inPhase p)
  | merge (w : Work) (u : PartialUpdate) (value : ByteArray) (phase : a.replica.phase = .working w)
      (stage : w.stage = .merge u) (fine : a.mishap? = none)
      (merged : mergeBytes a.feed.settings.schema (a.feed.get? w.record.key) u = .ok value) :
      Does a (a.course.inPhase (a.feed.settled w (some value)))
  | openTopic (w : Work) (value : Option ByteArray) (phase : a.replica.phase = .working w)
      (stage : w.stage = .openTopic value) (fine : a.mishap? = none) :
      Does a (a.course.inPhase (.working { w with stage := .publish value }))
  | publish (w : Work) (value : Option ByteArray) (offset : Nat) (log : Log)
      (phase : a.replica.phase = .working w) (stage : w.stage = .publish value)
      (fine : a.mishap? = none) :
      Does a { a.course with feed := { a.feed with
        log, phase := .working { w with stage := .write value offset } } }
  /-- A control record of the version topic is done. -/
  | mark (w : Work) (m : ControlMessage) (b : Backoff) (phase : a.replica.phase = .working w)
      (stage : w.stage = .fresh) (payload : w.record.payload = .control m)
      (version : a.feed.readsVersion w) :
      Does a { a.course with
        feed := a.feed.finished ((a.feed.tracker.marked m).pastVersionRecord w.record) b w }
  /-- A control record of a real-time topic is done. -/
  | pass (w : Work) (m : ControlMessage) (b : Backoff) (phase : a.replica.phase = .working w)
      (stage : w.stage = .fresh) (payload : w.record.payload = .control m)
      (realTime : ¬ a.feed.readsVersion w) :
      Does a { a.course with
        feed := a.feed.finished (a.feed.tracker.pastRealTimeRecord w.topic w.record) b w }
  /-- A value is written; with that its record is done. -/
  | store (w : Work) (value : Option ByteArray) (offset : Nat) (b : Backoff)
      (phase : a.replica.phase = .working w) (stage : w.stage = .write value offset)
      (fine : a.mishap? = none) :
      Does a { a.course with
        feed := Feed.finished { a.feed with data := a.feed.data.write w.record.key ⟨value, offset⟩ }
          (a.feed.stored w offset) b w }
  /-- A record is started over after a pause. -/
  | startOver (w : Work) (b : Backoff) (e : IngestionError) (phase : a.replica.phase = .working w)
      (retries : a.Retries e) :
      Does a { a.course.inPhase (.working { w with stage := .fresh, backoff := b }) with
        paused := true }
  | commit (b : Backoff) (phase : a.replica.phase = .committing b) (fine : a.mishap? = none) :
      Does a { a.course with feed := { a.feed with
        data := { a.feed.data with checkpoint := some a.feed.checkpoint },
          phase := .safePoint true } }
  /-- A commit is tried again after a pause. -/
  | commitAgain (b b' : Backoff) (e : IngestionError) (phase : a.replica.phase = .committing b)
      (retries : a.Retries e) : Does a { a.course.inPhase (.committing b') with paused := true }
  | obey (processed : Bool) (phase : a.replica.phase = .safePoint processed) :
      Does a (a.course.obeyed processed)
  | halt (halts : a.Halts) : Does a a.course.halted
  | wait (phase : a.replica.phase = .parked) : Does a a.course.waited
  /-- A subscription is undone. -/
  | detach (consumer : Option Consumer) (subscriptions : SortedSet TopicPartition)
      (phase : a.replica.phase = .leaving) :
      Does a { a.course with feed := { a.feed with consumer, subscriptions } }
  | retire (phase : a.replica.phase = .leaving) : Does a (a.course.inPhase .stopped)

/-- What an overflow leaves of a step: all that it did, unless a position was out of range. -/
inductive Breaks (a : Run) : Course → Prop where
  | rest : Breaks a a.course.killed
  | done {g : Course} (does : a.Does g) : Breaks a g.killed
  /-- A control record was marked. -/
  | mark (w : Work) (m : ControlMessage) (t : LagTracker) (phase : a.replica.phase = .working w)
      (stage : w.stage = .fresh) (payload : w.record.payload = .control m)
      (position : t.versionPosition = a.feed.tracker.versionPosition)
      (push : a.feed.tracker.endOfPush = true → t.endOfPush = true) :
      Breaks a (a.course.withTracker t).killed
  /-- A value was written. -/
  | store (w : Work) (value : Option ByteArray) (offset : Nat) (t : LagTracker)
      (phase : a.replica.phase = .working w) (stage : w.stage = .write value offset)
      (fine : a.mishap? = none) (position : t.versionPosition = a.feed.tracker.versionPosition)
      (push : t.endOfPush = a.feed.tracker.endOfPush) :
      Breaks a (Course.withTracker { a.course with feed := { a.feed with
        data := a.feed.data.write w.record.key ⟨value, offset⟩ } } t).killed

/-- What one step of a replica does to its course. -/
inductive Goes (a : Run) : Course → Prop where
  | rest (waits : a.isWaiting = true) : Goes a a.course
  | wake (paused : a.course.paused = true) : Goes a a.course.woken
  | act {g : Course} (awake : a.course.paused = false) (does : a.Does g) : Goes a g
  | breakOff {g : Course} (awake : a.course.paused = false) (breaks : a.Breaks g) : Goes a g

end Run

end StoreFeed
