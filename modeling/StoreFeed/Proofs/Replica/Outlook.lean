import StoreFeed.Proofs.Replica.Ends

/-!
# The outlook of a replica

`Outlook` is the part of a replica and its surroundings that the stages of its life depend on: its
state and flags, what it shows of them, and what decides whether it is ready. The records it reads,
the role it has and what it writes are not part of it.

`Run.Turns` lists, one constructor for each outcome, all that one step can do to an outlook. A step
that runs out of range breaks off; then the change may not be shown any more (`Run.StepsTo`). That
the steps of a replica are of this kind is shown in `StoreFeed.Proofs.Replica.Turns`, for any faults
and any records.
-/

namespace StoreFeed

/-- The stages of a life that the phases belong to. -/
inductive Chapter where
  | created
  | subscribing
  /-- In a cycle, with no batch in hand. -/
  | cycling
  /-- From the first record of a batch until its checkpoint is committed. -/
  | batching
  /-- While the ends of the real-time topics are sampled. -/
  | sampling
  | halted
  | leaving
  | ended
  | killed
deriving DecidableEq

/-- The chapter that a phase belongs to. -/
def Phase.chapter : Phase → Chapter
  | .created => .created
  | .restoring _ | .acquiring _ => .subscribing
  | .aligning first | .attaching first _ _ => if first then .subscribing else .cycling
  | .working _ | .committing _ => .batching
  | .samplingRegions _ _ => .sampling
  | .polling | .safePoint _ | .promoting _ | .samplingVersion _ | .concluding _ => .cycling
  | .parked => .halted
  | .leaving => .leaving
  | .stopped => .ended
  | .killed => .killed

namespace Chapter

/-- Whether calls are made and may be tried again after a pause. -/
def isBusy : Chapter → Bool
  | .subscribing | .cycling | .batching | .sampling => true
  | _ => false

/-- Where work leads that changes nothing else. A batch is left only by its commit. -/
def leadsTo : Chapter → Chapter → Bool
  | .subscribing, .subscribing | .cycling, .cycling | .cycling, .batching | .batching, .batching
  | .sampling, .cycling => true
  | _, _ => false

theorem isBusy_of_leadsTo {c d : Chapter} (h : c.leadsTo d) : c.isBusy ∧ d.isBusy := by
  cases c <;> cases d <;> first | exact ⟨rfl, rfl⟩ | cases h

/-- The states that go with a chapter. -/
def allows : Chapter → ReplicaState → Bool
  | .created, s => s = .notSubscribed
  | .subscribing, s => s = .subscribing
  | .cycling, s | .batching, s | .sampling, s => s = .bootstrapping || s = .online
  | .halted, s => s = .error
  | .leaving, s => s ≠ .notSubscribed && s ≠ .unsubscribed
  | .ended, s => s = .unsubscribed
  | .killed, _ => true

/-- Work leads to a chapter with the same states. -/
theorem allows_of_leadsTo {c d : Chapter} (h : c.leadsTo d) (s : ReplicaState) :
    d.allows s = c.allows s := by
  cases c <;> cases d <;> first | rfl | cases h

end Chapter

/-- What a replica shows of its life. -/
structure Face where
  state : ReplicaState
  ready : Bool
  errored : Bool
  pushTimeout : Bool
deriving DecidableEq

/-- The part of a status that tells of the replica's life. -/
def ReplicaStatus.face (s : ReplicaStatus) : Face := ⟨s.state, s.ready, s.errored, s.pushTimeout⟩

/-- What the life of a replica depends on. -/
structure Outlook where
  id : ReplicaId
  settings : VersionSettings
  phase : Phase
  /-- Whether it pauses before its next step. -/
  paused : Bool
  state : ReplicaState
  errored : Bool
  pushTimeout : Bool
  /-- What it showed last. -/
  shown : Face
  endOfPush : Bool
  threshold : Option Nat
  /-- Sampled ends of the real-time topics. -/
  realTimeEnds : SortedMap (Option RegionId) Nat
  /-- The last checkpoint in storage. -/
  checkpoint : Option Checkpoint

namespace Outlook

/-- What there is to show. -/
def face (o : Outlook) : Face := ⟨o.state, o.state = .online, o.errored, o.pushTimeout⟩

/-- The outlook once it is shown. -/
def displayed (o : Outlook) : Outlook := { o with shown := o.face }

/-- The outlook once the task is ended by an overflow. -/
def killed (o : Outlook) : Outlook := { o with phase := .killed, paused := false }

/-- The outlook of a replica that was halted by an error. -/
def halted (o : Outlook) : Outlook :=
  { o with phase := .parked, paused := false, state := .error, errored := true }

/-- What it showed last is how it is. -/
def Shows (o : Outlook) : Prop := o.shown = o.face

theorem shows_displayed (o : Outlook) : o.displayed.Shows := rfl

theorem Shows.displayed_eq {o : Outlook} (h : o.Shows) : o.displayed = o := by
  unfold displayed
  rw [← h]

end Outlook

namespace Run

/-- The outlook of a replica with its surroundings. -/
def outlook (run : Run) : Outlook :=
  { id := run.replica.id
    settings := run.replica.settings
    phase := run.replica.phase
    paused := run.replica.wakeAt.isSome
    state := run.replica.state
    errored := run.replica.errored
    pushTimeout := run.replica.pushTimeout
    shown := run.replica.status.face
    endOfPush := run.replica.tracker.endOfPush
    threshold := run.replica.tracker.threshold
    realTimeEnds := run.replica.tracker.realTimeEnds
    checkpoint := run.site.storage.checkpoint? run.replica.id }

/-- What the log answers when it is asked for the end of a partition, if it does answer. -/
def endAnswer? (run : Run) (tp : TopicPartition) : Option Nat :=
  match (run.site.faults.next .endOffset).1 with
  | some _ => none
  | none => (run.commons.log.endOffset tp).toOption

/-- What one step of a replica can do to its outlook. -/
inductive Turns (a : Run) : Outlook → Prop where
  /-- Nothing that its life depends on. -/
  | rest : Turns a a.outlook
  /-- A pause is over. -/
  | wake : Turns a { a.outlook with paused := false }
  | enter (since : Nat) (phase : a.replica.phase = .created) :
      Turns a { a.outlook with phase := .restoring since, state := .subscribing }.displayed
  /-- The work goes on, or is tried again. -/
  | work (p : Phase) (paused : Bool) (next : a.replica.phase.chapter.leadsTo p.chapter) :
      Turns a { a.outlook with phase := p, paused }
  /-- The push took too long, as is noticed when work is tried again or a cycle ends. -/
  | raise (p : Phase) (paused : Bool) (next : a.replica.phase.chapter.leadsTo p.chapter)
      (push : a.replica.tracker.endOfPush = false) :
      Turns a { a.outlook with phase := p, paused, pushTimeout := true }.displayed
  /-- The last checkpoint is read. -/
  | restore (since next : Nat) (phase : a.replica.phase = .restoring since) :
      Turns a { a.outlook with
        phase := .acquiring next
        endOfPush := a.outlook.endOfPush || a.outlook.checkpoint.any (·.endOfPush) }
  /-- A control message of the version topic takes effect. -/
  | mark (w : Work) (m : ControlMessage) (p : Phase) (phase : a.replica.phase = .working w)
      (stage : w.stage = .fresh) (payload : w.record.payload = .control m)
      (next : p.chapter = .batching) :
      Turns a { a.outlook with
        phase := p, endOfPush := a.outlook.endOfPush || m = .endOfPush }
  | commit (b : Backoff) (phase : a.replica.phase = .committing b) :
      Turns a { a.outlook with
        phase := .safePoint true, checkpoint := some a.replica.checkpoint }
  /-- The ends of the real-time topics are to be sampled. -/
  | survey (processed : Bool) (phase : a.replica.phase = .samplingVersion processed) :
      Turns a { a.outlook with
        phase := .samplingRegions processed a.replica.settings.realTimeRegions }
  | sample (processed : Bool) (region : Option RegionId) (rest : List (Option RegionId))
      (end_ : Nat) (awake : a.outlook.paused = false)
      (phase : a.replica.phase = .samplingRegions processed (region :: rest))
      (answered : a.endAnswer? (a.replica.id.realTimeTopic region) = some end_) :
      Turns a { a.outlook with
        phase := .samplingRegions processed rest
        realTimeEnds := a.outlook.realTimeEnds.insert region end_ }
  /-- The first subscriptions are there. -/
  | bootstrap (phase : a.replica.phase = .aligning true) :
      Turns a { a.outlook with phase := .polling, state := .bootstrapping }.displayed
  | goOnline (processed paused : Bool) (phase : a.replica.phase = .concluding processed)
      (state : a.replica.state = .bootstrapping)
      (caughtUp : a.replica.tracker.isCaughtUp = .ok true) :
      Turns a { a.outlook with phase := .aligning false, paused, state := .online }.displayed
  | halt (busy : a.replica.phase.chapter.isBusy) : Turns a a.outlook.halted.displayed
  /-- A stop takes effect: at the end of a pause, at the safe point, or after a halt. -/
  | leave (stops : a.outlook.paused ∨ a.replica.phase.chapter = .cycling ∨
        a.replica.phase = .parked) :
      Turns a { a.outlook with phase := .leaving, paused := false }
  | retire (phase : a.replica.phase = .leaving) :
      Turns a { a.outlook with
        phase := .stopped, paused := false, state := .unsubscribed }.displayed

/-- What one step of a replica does to its outlook. Where it is broken off, the task ends, and what
the step changed may be shown or not. -/
inductive StepsTo (a : Run) : Outlook → Prop where
  | turn {g : Outlook} (turns : a.Turns g) : StepsTo a g
  | breakOff {g : Outlook} (turns : a.Turns g) (shown : Face)
      (showing : shown = a.outlook.shown ∨ shown = g.shown) :
      StepsTo a { g.killed with shown }

end Run

end StoreFeed
