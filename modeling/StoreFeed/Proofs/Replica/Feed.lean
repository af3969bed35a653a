import StoreFeed.Replica.Step

/-!
# What a replica's data depends on

`Feed` is the part of a replica and its surroundings that decides which records it reads, what it
writes and what it publishes. Everything else (pauses, flags, what is shown and counted) only
decides when a step is taken.

`Feed.Move` lists, one constructor for each outcome, all that one step can do to a feed. Every
invariant of consumption is proved by cases on it; that the steps of a replica are moves is shown
once, in `StoreFeed.Proofs.Replica.Moves`.
-/

namespace StoreFeed

/-- What the consumption of a replica depends on. -/
structure Feed where
  id : ReplicaId
  settings : VersionSettings
  phase : Phase
  role : Role
  tracker : LagTracker
  consumer : Option Consumer
  subscriptions : SortedSet TopicPartition
  consumesRealTime : Bool
  catchUpTarget : Option Nat
  /-- What the host keeps for the replica. -/
  data : ReplicaData
  log : Log

/-- The feed of a replica with its surroundings. -/
def Run.feed (run : Run) : Feed :=
  { id := run.replica.id
    settings := run.replica.settings
    phase := run.replica.phase
    role := run.replica.role
    tracker := run.replica.tracker
    consumer := run.replica.consumer
    subscriptions := run.replica.subscriptions
    consumesRealTime := run.replica.consumesRealTime
    catchUpTarget := run.replica.catchUpTarget
    data := run.site.storage.data run.replica.id
    log := run.commons.log }

/-- Whether a replica reads and writes no more: it was halted, it leaves, or its task has ended. -/
def Phase.isOver : Phase → Bool
  | .parked | .leaving | .stopped | .killed => true
  | _ => false

/-- In this phase no update is about to be merged and no value to be written. -/
def Phase.IsPlain (p : Phase) : Prop :=
  ∀ w, p = .working w → (∀ u, w.stage ≠ .merge u) ∧ ∀ value offset, w.stage ≠ .write value offset

/-- Changes of phase that come with no other change. -/
inductive Phase.Leads : Phase → Phase → Prop where
  | start (since : Nat) : Leads .created (.restoring since)
  | alignAgain (first : Bool) (tp : TopicPartition) (offset : Nat) :
      Leads (.attaching first tp offset) (.aligning first)
  | pollAgain : Leads .polling (.aligning false)
  | commitAgain (b b' : Backoff) : Leads (.committing b) (.committing b')
  | obey (processed : Bool) : Leads (.safePoint processed) (.promoting processed)
  | promote (processed : Bool) : Leads (.promoting processed) (.samplingVersion processed)
  | sample (processed : Bool) : Leads (.samplingVersion processed) (.concluding processed)
  | sampleRegions (processed : Bool) (rest : List (Option RegionId)) :
      Leads (.samplingRegions processed rest) (.concluding processed)
  | conclude (processed : Bool) : Leads (.concluding processed) (.aligning false)

/-- The positions behind a record are numbers of 64 bits. -/
def ChangeRecord.InRange (r : ChangeRecord) : Prop :=
  r.offset < Decimal.maxWord64 ∧ ∀ p, r.origin = some p → p.offset < Decimal.maxWord64

namespace LagTracker

/-- The tracker after a checkpoint was restored. -/
def restored (t : LagTracker) (c : Checkpoint) : LagTracker :=
  c.realTime.foldl (fun t p => t.atRealTimePosition p.region p.offset)
    { t.atVersionPosition c.versionOffset with
      endOfPush := t.endOfPush || c.endOfPush
      startOfBufferReplay := t.startOfBufferReplay || c.startOfBufferReplay }

theorem versionPosition_restored (t : LagTracker) (c : Checkpoint) :
    (t.restored c).versionPosition = c.versionOffset := by
  have hfold : ∀ (positions : List RealTimePosition) (t : LagTracker),
      (positions.foldl (fun t p => t.atRealTimePosition p.region p.offset) t).versionPosition =
        t.versionPosition := by
    intro positions
    induction positions with
    | nil => exact fun _ => rfl
    | cons p rest ih => exact fun t => ih _
  exact hfold _ _

/-- The tracker after the last checkpoint was restored, if there is one. -/
def resumed (t : LagTracker) : Option Checkpoint → LagTracker
  | some c => t.restored c
  | none => t

/-- The tracker after a control message. -/
def marked (t : LagTracker) : ControlMessage → LagTracker
  | .startOfPush => t
  | .endOfPush => { t with endOfPush := true }
  | .startOfBufferReplay => { t with startOfBufferReplay := true }

/-- The tracker after the stamp of a record was read. -/
def stamped (t : LagTracker) : Option RealTimePosition → LagTracker
  | some origin => t.atRealTimePosition origin.region (origin.offset + 1)
  | none => t

/-- The tracker after a record of the version topic. -/
def pastVersionRecord (t : LagTracker) (r : ChangeRecord) : LagTracker :=
  (t.stamped r.origin).atVersionPosition (r.offset + 1)

/-- The tracker after a record of a real-time topic. -/
def pastRealTimeRecord (t : LagTracker) (tp : TopicPartition) (r : ChangeRecord) : LagTracker :=
  t.atRealTimePosition tp.region (r.offset + 1)

theorem endOfPush_marked {t : LagTracker} (h : t.endOfPush) (m : ControlMessage) :
    (t.marked m).endOfPush := by
  cases m <;> first | exact h | rfl

theorem endOfPush_pastVersionRecord {t : LagTracker} (h : t.endOfPush) (r : ChangeRecord) :
    (t.pastVersionRecord r).endOfPush := by
  unfold pastVersionRecord stamped
  cases r.origin <;> exact h

end LagTracker

namespace Feed

/-- The feed of a replica that is about to start. -/
def create (id : ReplicaId) (settings : VersionSettings) (role : Role) (data : ReplicaData)
    (log : Log) : Feed :=
  { id
    settings
    phase := .created
    role
    tracker := LagTracker.create role settings.lagThreshold?
    consumer := none
    subscriptions := SortedMap.empty
    consumesRealTime := false
    catchUpTarget := none
    data
    log }

/-- The partitions it has to read. -/
def desired (f : Feed) : SortedSet TopicPartition :=
  if f.role = .leader ∧ f.consumesRealTime then
    SortedSet.ofMembers (f.settings.realTimeRegions.map f.id.realTimeTopic)
  else SortedSet.ofMembers [f.id.versionTopic]

/-- How far it has come. -/
def checkpoint (f : Feed) : Checkpoint :=
  { versionOffset := f.tracker.versionPosition
    endOfPush := f.tracker.endOfPush
    startOfBufferReplay := f.tracker.startOfBufferReplay
    realTime := f.settings.realTimeRegions.filterMap fun region =>
      (f.tracker.realTimePosition? region).map fun offset => ⟨region, offset⟩ }

/-- All records of its version topic. -/
def versionRecords (f : Feed) : List ChangeRecord := f.log.records f.id.versionTopic

/-- What a key holds for it. -/
def get? (f : Feed) (key : ByteArray) : Option ByteArray :=
  (f.data.values.find? key).bind (·.value)

/-- The records of the polled batch that are not done yet. -/
def pending (f : Feed) : List (TopicPartition × ChangeRecord) :=
  match f.phase with
  | .working w => (w.topic, w.record) :: w.rest
  | _ => []

/-- Whether a record is being processed that was read from the version topic. -/
def readsVersion (f : Feed) (w : Work) : Prop := w.topic.topic = f.id.versionTopic.topic

instance (f : Feed) (w : Work) : Decidable (f.readsVersion w) :=
  inferInstanceAs (Decidable (_ = _))

/-- Whether a value is about to be written. -/
def isWriting (f : Feed) : Bool :=
  match f.phase with
  | .working w =>
    match w.stage with
    | .write .. => true
    | _ => false
  | _ => false

/-- Whether the replica took the end of the version topic for its own: it waits for a target or
reads the real-time topics, and was not halted. -/
def holds (f : Feed) : Bool :=
  !f.phase.isOver && (f.consumesRealTime || f.catchUpTarget.isSome)

/-- What is next once the new value of a record's key is known. -/
def settled (f : Feed) (w : Work) (value : Option ByteArray) : Phase :=
  if f.readsVersion w then .working { w with stage := .write value w.record.offset }
  else .working { w with stage := .openTopic value }

theorem settled_of_readsVersion {f : Feed} {w : Work} (h : f.readsVersion w)
    (value : Option ByteArray) :
    f.settled w value = .working { w with stage := .write value w.record.offset } := if_pos h

theorem settled_of_not_readsVersion {f : Feed} {w : Work} (h : ¬ f.readsVersion w)
    (value : Option ByteArray) :
    f.settled w value = .working { w with stage := .openTopic value } := if_neg h

@[simp]
theorem isOver_settled (f : Feed) (w : Work) (value : Option ByteArray) :
    (f.settled w value).isOver = false := by
  unfold settled
  split <;> rfl

/-- What is next when part of a batch is left. -/
def nextPhase (f : Feed) (b : Backoff) : List (TopicPartition × ChangeRecord) → Bool → Phase
  | [], true => .committing b
  | [], false => .safePoint false
  | (topic, record) :: rest, processed =>
    if !f.subscriptions.contains topic then f.nextPhase b rest processed
    else if topic = f.id.versionTopic ∧ record.offset < f.tracker.versionPosition then
      f.nextPhase b rest processed
    else .working ⟨topic, record, .fresh, b, rest⟩

/-- What is next is the end of the batch, or a record that is taken up afresh. -/
theorem nextPhase_cases (f : Feed) (b : Backoff) (batch : List (TopicPartition × ChangeRecord))
    (processed : Bool) : f.nextPhase b batch processed = .committing b ∨
      f.nextPhase b batch processed = .safePoint false ∨ ∃ topic record rest,
        f.nextPhase b batch processed = .working ⟨topic, record, .fresh, b, rest⟩ := by
  induction batch with
  | nil =>
    cases processed with
    | true => exact .inl rfl
    | false => exact .inr (.inl rfl)
  | cons e rest ih =>
    unfold nextPhase
    split
    · exact ih
    · split
      · exact ih
      · exact .inr (.inr ⟨_, _, _, rfl⟩)

theorem stage_of_nextPhase {f : Feed} {b : Backoff} {batch : List (TopicPartition × ChangeRecord)}
    {processed : Bool} {w : Work} (h : f.nextPhase b batch processed = .working w) :
    w.stage = .fresh := by
  rcases f.nextPhase_cases b batch processed with hp | hp | ⟨_, _, _, hp⟩ <;> rw [hp] at h
  · cases h
  · cases h
  · cases h
    rfl

theorem isPlain_nextPhase (f : Feed) (b : Backoff) (batch : List (TopicPartition × ChangeRecord))
    (processed : Bool) : (f.nextPhase b batch processed).IsPlain := by
  intro w h
  rw [stage_of_nextPhase h]
  exact ⟨fun _ => Stage.noConfusion, fun _ _ => Stage.noConfusion⟩

@[simp]
theorem isOver_nextPhase (f : Feed) (b : Backoff) (batch : List (TopicPartition × ChangeRecord))
    (processed : Bool) : (f.nextPhase b batch processed).isOver = false := by
  rcases f.nextPhase_cases b batch processed with hp | hp | ⟨_, _, _, hp⟩ <;> rw [hp] <;> rfl

/-- The feed after a record was done. -/
def finished (f : Feed) (t : LagTracker) (b : Backoff) (w : Work) : Feed :=
  { f with tracker := t, phase := { f with tracker := t }.nextPhase b w.rest true }

/-- The feed of a leader that has to reach a target first. -/
def aimedAt (f : Feed) (target : Nat) : Feed :=
  if target ≤ f.tracker.versionPosition then
    { f with consumesRealTime := true, catchUpTarget := none }
  else { f with catchUpTarget := some target }

/-- Where a partition may be read from: the version topic and known real-time topics at the position
reached, an unknown real-time topic anywhere. -/
def StartsAt (f : Feed) (tp : TopicPartition) (offset : Nat) : Prop :=
  if tp = f.id.versionTopic then offset = f.tracker.versionPosition
  else ∀ next, f.tracker.realTimePosition? tp.region = some next → offset = next

/-- The same books: what a replica that is over leaves behind. -/
structure SameBooks (f g : Feed) : Prop where
  id : g.id = f.id
  settings : g.settings = f.settings
  data : g.data = f.data
  log : g.log = f.log
  versionPosition : g.tracker.versionPosition = f.tracker.versionPosition

/-- What one step of a replica can do to its feed. -/
inductive Move (f : Feed) : Feed → Prop where
  /-- Nothing that the data depends on. -/
  | rest : Move f f
  /-- The replica halts, leaves or ends. -/
  | retire (g : Feed) (ended : g.phase.isOver) (books : f.SameBooks g) : Move f g
  /-- The task ends right after a write, since a position is out of range. -/
  | breakOff (w : Work) (value : Option ByteArray) (offset : Nat) (g : Feed)
      (phase : f.phase = .working w) (stage : w.stage = .write value offset)
      (overflow : f.readsVersion w → ¬ w.record.InRange) (killed : g.phase = .killed)
      (books : { f with data := f.data.write w.record.key ⟨value, offset⟩ }.SameBooks g) : Move f g
  /-- Only the phase changes. -/
  | lead (p : Phase) (leads : f.phase.Leads p) : Move f { f with phase := p }
  /-- The last checkpoint is read. -/
  | restore (since next : Nat) (phase : f.phase = .restoring since) :
      Move f { f with
        phase := .acquiring next
        tracker := f.tracker.resumed f.data.checkpoint }
  | acquire (since : Nat) (phase : f.phase = .acquiring since) :
      Move f { f with consumer := some Consumer.fresh, phase := .aligning true }
  /-- A subscription that is not desired is dropped. -/
  | detach (first : Bool) (c : Consumer) (tp : TopicPartition) (phase : f.phase = .aligning first)
      (consumer : f.consumer = some c) :
      Move f { f with
        consumer := some (c.unsubscribe tp), subscriptions := f.subscriptions.erase tp }
  /-- A missing subscription is to be added; none is left to be dropped. -/
  | aim (first : Bool) (tp : TopicPartition) (offset : Nat) (phase : f.phase = .aligning first)
      (kept : f.subscriptions.diff f.desired = []) (missing : tp ∈ f.desired.diff f.subscriptions)
      (startsAt : f.StartsAt tp offset) :
      Move f { f with phase := .attaching first tp offset }
  | attach (first : Bool) (c : Consumer) (tp : TopicPartition) (offset : Nat)
      (phase : f.phase = .attaching first tp offset) (consumer : f.consumer = some c) :
      Move f { f with
        consumer := some ⟨c.positions.insert tp offset⟩
        subscriptions := f.subscriptions.add tp
        tracker := if tp = f.id.versionTopic then f.tracker
          else f.tracker.atRealTimePosition tp.region offset
        phase := .aligning first }
  /-- The subscriptions are as desired. -/
  | align (first : Bool) (phase : f.phase = .aligning first) (consumer : f.consumer.isSome)
      (kept : f.subscriptions.diff f.desired = [])
      (complete : f.desired.diff f.subscriptions = []) :
      Move f { f with phase := .polling }
  | poll (c c' : Consumer) (limit : Nat) (batch : List (TopicPartition × ChangeRecord))
      (b : Backoff) (phase : f.phase = .polling) (consumer : f.consumer = some c)
      (polled : c.poll f.log limit = .ok (batch, c')) :
      Move f { f with
        consumer := some c', phase := { f with consumer := some c' }.nextPhase b batch false }
  /-- A record is started over. After the end of the push no failed write is tried again. -/
  | startOver (w : Work) (b : Backoff) (phase : f.phase = .working w)
      (unwritten : ∀ value offset, w.stage = .write value offset → f.tracker.endOfPush = false) :
      Move f { f with phase := .working { w with stage := .fresh, backoff := b } }
  | lookAtPut (w : Work) (value : ByteArray) (phase : f.phase = .working w)
      (stage : w.stage = .fresh) (payload : w.record.payload = .put value) :
      Move f { f with phase := f.settled w (some value) }
  | lookAtDelete (w : Work) (phase : f.phase = .working w) (stage : w.stage = .fresh)
      (payload : w.record.payload = .delete) :
      Move f { f with phase := f.settled w none }
  | lookAtUpdate (w : Work) (u : PartialUpdate) (phase : f.phase = .working w)
      (stage : w.stage = .fresh) (payload : w.record.payload = .update u) :
      Move f { f with phase := .working { w with stage := .merge u } }
  | passVersionControl (w : Work) (m : ControlMessage) (b : Backoff) (phase : f.phase = .working w)
      (stage : w.stage = .fresh) (payload : w.record.payload = .control m)
      (version : f.readsVersion w) :
      Move f (f.finished ((f.tracker.marked m).pastVersionRecord w.record) b w)
  | passRealTimeControl (w : Work) (m : ControlMessage) (b : Backoff) (phase : f.phase = .working w)
      (stage : w.stage = .fresh) (payload : w.record.payload = .control m)
      (realTime : ¬ f.readsVersion w) :
      Move f (f.finished (f.tracker.pastRealTimeRecord w.topic w.record) b w)
  | merge (w : Work) (u : PartialUpdate) (value : ByteArray) (phase : f.phase = .working w)
      (stage : w.stage = .merge u)
      (merged : mergeBytes f.settings.schema (f.get? w.record.key) u = .ok value) :
      Move f { f with phase := f.settled w (some value) }
  | openTopic (w : Work) (value : Option ByteArray) (phase : f.phase = .working w)
      (stage : w.stage = .openTopic value) :
      Move f { f with phase := .working { w with stage := .publish value } }
  | publish (w : Work) (value : Option ByteArray) (phase : f.phase = .working w)
      (stage : w.stage = .publish value) :
      Move f { f with
        log := (f.log.append f.id.versionTopic (Act.republished w.topic w.record value)).2
        phase := .working { w with stage := .write value f.versionRecords.length } }
  | storeVersion (w : Work) (value : Option ByteArray) (offset : Nat) (b : Backoff)
      (phase : f.phase = .working w) (stage : w.stage = .write value offset)
      (version : f.readsVersion w) :
      Move f (finished { f with data := f.data.write w.record.key ⟨value, offset⟩ }
        (f.tracker.pastVersionRecord w.record) b w)
  | storeRealTime (w : Work) (value : Option ByteArray) (offset : Nat) (b : Backoff)
      (phase : f.phase = .working w) (stage : w.stage = .write value offset)
      (realTime : ¬ f.readsVersion w) :
      Move f (finished { f with data := f.data.write w.record.key ⟨value, offset⟩ }
        ((f.tracker.pastRealTimeRecord w.topic w.record).atVersionPosition (offset + 1)) b w)
  | commit (b : Backoff) (phase : f.phase = .committing b) :
      Move f { f with
        data := { f.data with checkpoint := some f.checkpoint }, phase := .safePoint true }
  | takeRole (processed : Bool) (role : Role) (phase : f.phase = .safePoint processed) :
      Move f { f with
        role
        tracker := { f.tracker with role }
        consumesRealTime := false
        catchUpTarget := none
        phase := .promoting processed }
  /-- A hybrid leader past the end of the push takes its target, or looks whether it is reached. -/
  | turn (processed : Bool) (target : Nat) (phase : f.phase = .promoting processed)
      (leader : f.role = .leader) (hybrid : f.settings.isHybrid) (endOfPush : f.tracker.endOfPush)
      (waits : f.consumesRealTime = false)
      (sampled : f.catchUpTarget = some target ∨
        f.catchUpTarget = none ∧ target = f.versionRecords.length) :
      Move f { f.aimedAt target with phase := .samplingVersion processed }
  | sampleVersion (processed : Bool) (p : Phase) (phase : f.phase = .samplingVersion processed)
      (next : p = .concluding processed ∨
        p = .samplingRegions processed f.settings.realTimeRegions) :
      Move f { f with tracker := f.tracker.withVersionEnd f.versionRecords.length, phase := p }
  | sampleRegion (processed : Bool) (region : Option RegionId) (rest : List (Option RegionId))
      (phase : f.phase = .samplingRegions processed (region :: rest)) :
      Move f { f with
        tracker := f.tracker.withRealTimeEnd region
          (f.log.records (f.id.realTimeTopic region)).length
        phase := .samplingRegions processed rest }

end Feed

end StoreFeed
