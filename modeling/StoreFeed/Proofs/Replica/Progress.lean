import StoreFeed.Proofs.Replica.Stamps
import StoreFeed.Proofs.Storage.Replay

/-!
# What a move means for the version topic

Of all moves of a replica few matter for how it stands to its version topic. A record is applied, a
published one is stored, the last checkpoint is restored, or the position stays (`Feed.Progress`). A
value is prepared from the record in its hands (`Feed.Prepares`), and the end of the topic is taken
for its own, or given up (`Feed.Hold`). The moves are gone through here, once for each; what a
replica took from its version topic is proved from these few cases.
-/

namespace StoreFeed

/-- Whether a control message was read, of those that are kept track of. -/
def LagTracker.Saw (t : LagTracker) : ControlMessage → Prop
  | .startOfPush => False
  | .endOfPush => t.endOfPush = true
  | .startOfBufferReplay => t.startOfBufferReplay = true

/-- Whether a control message was read, of those that are kept track of. -/
def Checkpoint.Saw (c : Checkpoint) : ControlMessage → Prop
  | .startOfPush => False
  | .endOfPush => c.endOfPush = true
  | .startOfBufferReplay => c.startOfBufferReplay = true

namespace LagTracker

variable {t : LagTracker}

/-- A control record is seen in addition to what was seen. -/
theorem saw_marked {m : ControlMessage} (kept : m ≠ .startOfPush) (m' : ControlMessage) :
    (t.marked m').Saw m ↔ t.Saw m ∨ m' = m := by
  cases m <;> cases m' <;> simp [marked, Saw] at kept ⊢

theorem saw_pastVersionRecord (r : ChangeRecord) (m : ControlMessage) :
    (t.pastVersionRecord r).Saw m ↔ t.Saw m := by
  unfold pastVersionRecord stamped
  cases r.origin <;> cases m <;> rfl

theorem saw_pastRealTimeRecord (tp : TopicPartition) (r : ChangeRecord) (m : ControlMessage) :
    (t.pastRealTimeRecord tp r).Saw m ↔ t.Saw m := by
  cases m <;> rfl

theorem saw_atVersionPosition (next : Nat) (m : ControlMessage) :
    (t.atVersionPosition next).Saw m ↔ t.Saw m := by
  cases m <;> rfl

/-- What a tracker saw, or the checkpoint it is restored from. -/
theorem saw_restored (c : Checkpoint) (m : ControlMessage) :
    (t.restored c).Saw m ↔ t.Saw m ∨ c.Saw m := by
  have same : ∀ (positions : List RealTimePosition) (t : LagTracker),
      (positions.foldl (fun t p => t.atRealTimePosition p.region p.offset) t).Saw m ↔ t.Saw m := by
    intro positions
    induction positions with
    | nil => exact fun _ => Iff.rfl
    | cons p rest ih =>
      intro t
      refine (ih _).trans ?_
      cases m <;> rfl
  refine (same _ _).trans ?_
  cases m <;> simp [Saw, Checkpoint.Saw]

end LagTracker

/-- What is over is plain. -/
theorem Phase.isPlain_of_isOver {p : Phase} (h : p.isOver) : p.IsPlain := by
  rintro w rfl
  cases h

namespace Feed

variable {f g : Feed}

/-! ## The position -/

/-- A step does what a record of the version topic says: it marks what a control record marks, or
writes what the record makes of its key, and goes on behind it. -/
inductive Applies (f g : Feed) (r : ChangeRecord) : Prop where
  | mark (m : ControlMessage) (payload : r.payload = .control m)
      (tracker : g.tracker = (f.tracker.marked m).pastVersionRecord r) (data : g.data = f.data)
  | store (value : Option ByteArray) (makes : r.Makes f.settings.schema (f.get? r.key) value)
      (tracker : g.tracker = f.tracker.pastVersionRecord r)
      (data : g.data = f.data.write r.key ⟨value, r.offset⟩)

theorem Applies.versionPosition {r : ChangeRecord} (h : f.Applies g r) :
    g.tracker.versionPosition = r.offset + 1 := by
  cases h with
  | mark _ _ tracker => rw [tracker]; rfl
  | store _ _ tracker => rw [tracker]; rfl

theorem Applies.saw_iff {r : ChangeRecord} (h : f.Applies g r) {m : ControlMessage}
    (kept : m ≠ .startOfPush) : g.tracker.Saw m ↔ f.tracker.Saw m ∨ r.control? = some m := by
  unfold ChangeRecord.control?
  cases h with
  | mark m' payload tracker =>
    rw [tracker, LagTracker.saw_pastVersionRecord, LagTracker.saw_marked kept, payload]
    simp
  | store value makes tracker =>
    rw [tracker, LagTracker.saw_pastVersionRecord]
    cases makes with
    | put _ payload => simp [payload]
    | delete payload => simp [payload]
    | update _ _ payload => simp [payload]

theorem Applies.reaches {r : ChangeRecord} (h : f.Applies g r) {region : Option RegionId}
    {offset : Nat} (reached : f.tracker.Reaches region offset) :
    g.tracker.Reaches region offset := by
  cases h with
  | mark m _ tracker =>
    rw [tracker]
    exact (reached.marked m).pastVersionRecord r
  | store _ _ tracker =>
    rw [tracker]
    exact reached.pastVersionRecord r

theorem Applies.passed {r : ChangeRecord} (h : f.Applies g r) {p : RealTimePosition}
    (origin : r.origin = some p) : g.tracker.Passed p := by
  cases h with
  | mark _ _ tracker =>
    rw [tracker]
    exact LagTracker.passed_pastVersionRecord _ origin
  | store _ _ tracker =>
    rw [tracker]
    exact LagTracker.passed_pastVersionRecord _ origin

/-- What is in the hands of a replica comes from the record that it works on. -/
structure Prepared (f : Feed) : Prop where
  merging : ∀ w u, f.phase = .working w → w.stage = .merge u → w.record.payload = .update u
  replayed : ∀ w value offset, f.phase = .working w → w.stage = .write value offset →
    f.readsVersion w →
      offset = w.record.offset ∧ w.record.Makes f.settings.schema (f.get? w.record.key) value
  published : ∀ w value offset, f.phase = .working w → w.stage = .write value offset →
    ¬ f.readsVersion w → f.tracker.versionPosition ≤ offset ∧
      f.versionRecords[offset]? = some { Act.republished w.topic w.record value with offset }

/-- What a move means for the position in the version topic. -/
inductive Progress (f g : Feed) : Prop where
  | stays (position : g.tracker.versionPosition = f.tracker.versionPosition)
      (saw : ∀ m, g.tracker.Saw m ↔ f.tracker.Saw m)
      (reaches : ∀ region offset, f.tracker.Reaches region offset → g.tracker.Reaches region offset)
      (values : g.data.values = f.data.values)
      (unrestored : g.phase.isUnrestored = f.phase.isUnrestored)
  | resumes (phase : f.phase.isUnrestored) (phase' : g.phase.isUnrestored = false)
      (tracker : g.tracker = f.tracker.resumed f.data.checkpoint) (data : g.data = f.data)
  | applies (r : ChangeRecord) (record : f.versionRecords[f.tracker.versionPosition]? = some r)
      (applies : f.Applies g r) (phase : f.phase.isUnrestored = false)
      (phase' : g.phase.isUnrestored = false)
  /-- A record that was published is stored. -/
  | stores (w : Work) (value : Option ByteArray) (offset : Nat) (phase : f.phase = .working w)
      (stage : w.stage = .write value offset) (realTime : ¬ f.readsVersion w)
      (tracker : g.tracker =
        (f.tracker.pastRealTimeRecord w.topic w.record).atVersionPosition (offset + 1))
      (data : g.data = f.data.write w.record.key ⟨value, offset⟩)
      (phase' : g.phase.isUnrestored = false)

theorem Progress.same (tracker : g.tracker = f.tracker) (data : g.data.values = f.data.values)
    (unrestored : g.phase.isUnrestored = f.phase.isUnrestored) : f.Progress g :=
  .stays (by rw [tracker]) (by simp [tracker]) (by simp [tracker]) data unrestored

/-- A move of a replica that goes on makes one of these kinds of progress. -/
theorem Move.progress (m : f.Move g) (prepared : f.Prepared) (flow : f.Flow) (hi : f.log.Indexed)
    (ended : g.phase.isOver = false) : f.Progress g := by
  cases m with
  | rest => exact .same rfl rfl rfl
  | retire _ hover => rw [hover] at ended; cases ended
  | breakOff _ _ _ _ _ _ _ killed => rw [killed] at ended; cases ended
  | lead p leads => exact .same rfl rfl leads.isUnrestored
  | restore since next phase => exact .resumes (by rw [phase]; rfl) rfl rfl rfl
  | detach => exact .same rfl rfl rfl
  | attach first c tp offset phase =>
    by_cases hv : tp = f.id.versionTopic
    · rw [if_pos hv]
      exact .same rfl rfl (by rw [phase]; rfl)
    · rw [if_neg hv]
      refine .stays rfl (fun m => ?_) (fun region next h => h.atRealTimePosition _ _) rfl
        (by rw [phase]; rfl)
      cases m <;> rfl
  | poll _ _ _ _ _ phase =>
    refine .same rfl rfl ?_
    rw [phase]
    exact isUnrestored_nextPhase _ _ _ _
  | lookAtPut w value phase => exact .same rfl rfl (by rw [phase]; unfold settled; split <;> rfl)
  | lookAtDelete w phase => exact .same rfl rfl (by rw [phase]; unfold settled; split <;> rfl)
  | merge w u value phase => exact .same rfl rfl (by rw [phase]; unfold settled; split <;> rfl)
  | passVersionControl w m b phase _ payload version =>
    -- What is in hand is the record of the log at the position: that is what the flow keeps.
    obtain ⟨_, _, record, _⟩ := flow.version hi phase version
    exact .applies w.record record (.mark m payload rfl rfl) (by rw [phase]; rfl)
      (isUnrestored_nextPhase _ _ _ _)
  | passRealTimeControl w m b phase =>
    refine .stays rfl (LagTracker.saw_pastRealTimeRecord _ _)
      (fun region next h => h.atRealTimePosition _ _) rfl ?_
    rw [phase]
    exact isUnrestored_nextPhase _ _ _ _
  | storeVersion w value offset b phase stage version =>
    obtain ⟨_, _, record, _⟩ := flow.version hi phase version
    obtain ⟨rfl, makes⟩ := prepared.replayed w value offset phase stage version
    exact .applies w.record record (.store value makes rfl rfl) (by rw [phase]; rfl)
      (isUnrestored_nextPhase _ _ _ _)
  | storeRealTime w value offset b phase stage realTime =>
    exact .stores w value offset phase stage realTime rfl rfl (isUnrestored_nextPhase _ _ _ _)
  | takeRole _ _ phase =>
    exact .stays rfl (fun m => by cases m <;> rfl) (fun _ _ h => h) rfl (by rw [phase]; rfl)
  | turn _ _ phase =>
    unfold aimedAt
    split <;> exact .same rfl rfl (by rw [phase]; rfl)
  | sampleVersion _ _ phase next =>
    refine .stays rfl (fun m => by cases m <;> rfl) (fun _ _ h => h) rfl ?_
    rw [phase]
    rcases next with rfl | rfl <;> rfl
  | sampleRegion _ _ _ phase =>
    exact .stays rfl (fun m => by cases m <;> rfl) (fun _ _ h => h) rfl (by rw [phase]; rfl)
  | _ => exact .same rfl rfl (by simp_all [Phase.isUnrestored])

/-! ## What is in hand -/

/-- The moves that lead to a phase in which an update is merged or a value written. -/
inductive Prepares (f : Feed) : Feed → Prop where
  | rest : Prepares f f
  | look (w : Work) (u : PartialUpdate) (payload : w.record.payload = .update u) :
      Prepares f { f with phase := .working { w with stage := .merge u } }
  | settle (w : Work) (value : Option ByteArray) (phase : f.phase = .working w)
      (known : (∀ current, w.record.Makes f.settings.schema current value) ∨
        ∃ u v, w.stage = .merge u ∧ value = some v ∧
          mergeBytes f.settings.schema (f.get? w.record.key) u = .ok v) :
      Prepares f { f with phase := f.settled w value }
  | publish (w : Work) (value : Option ByteArray) (phase : f.phase = .working w)
      (stage : w.stage = .publish value) :
      Prepares f { f with
        log := (f.log.append f.id.versionTopic (Act.republished w.topic w.record value)).2
        phase := .working { w with stage := .write value f.versionRecords.length } }

/-- Every other move leads to a plain phase. -/
theorem Move.isPlain_or_prepares (m : f.Move g) : g.phase.IsPlain ∨ f.Prepares g := by
  cases m with
  | rest => exact .inr .rest
  | lookAtPut w value phase stage payload =>
    exact .inr (.settle w _ phase (.inl fun _ => .put value payload))
  | lookAtDelete w phase stage payload =>
    exact .inr (.settle w _ phase (.inl fun _ => .delete payload))
  | lookAtUpdate w u phase stage payload => exact .inr (.look w u payload)
  | merge w u value phase stage merged =>
    exact .inr (.settle w _ phase (.inr ⟨u, value, stage, rfl, merged⟩))
  | publish w value phase stage => exact .inr (.publish w value phase stage)
  | retire _ ended => exact .inl (Phase.isPlain_of_isOver ended)
  | breakOff _ _ _ _ _ _ _ killed => exact .inl (Phase.isPlain_of_isOver (by rw [killed]; rfl))
  | lead p leads => exact .inl fun w hp => absurd hp (leads.ne_working.2 w)
  | detach _ _ _ phase => exact .inl fun w hp => by simp [phase] at hp
  | poll => exact .inl (isPlain_nextPhase _ _ _ _)
  | startOver =>
    refine .inl fun w hp => ?_
    cases hp
    exact ⟨fun _ => Stage.noConfusion, fun _ _ => Stage.noConfusion⟩
  | openTopic =>
    refine .inl fun w hp => ?_
    cases hp
    exact ⟨fun _ => Stage.noConfusion, fun _ _ => Stage.noConfusion⟩
  | passVersionControl => exact .inl (isPlain_nextPhase _ _ _ _)
  | passRealTimeControl => exact .inl (isPlain_nextPhase _ _ _ _)
  | storeVersion => exact .inl (isPlain_nextPhase _ _ _ _)
  | storeRealTime => exact .inl (isPlain_nextPhase _ _ _ _)
  | turn =>
    unfold aimedAt
    split <;> exact .inl fun w hp => by cases hp
  | sampleVersion _ _ _ next => rcases next with rfl | rfl <;> exact .inl fun w hp => by cases hp
  | _ => exact .inl fun w hp => by cases hp

namespace Prepared

/-- In a plain phase nothing is in hand. -/
theorem of_isPlain (plain : f.phase.IsPlain) : f.Prepared where
  merging w u hp hs := absurd hs ((plain w hp).1 u)
  replayed w value offset hp hs := absurd hs ((plain w hp).2 value offset)
  published w value offset hp hs := absurd hs ((plain w hp).2 value offset)

/-- What is in hand stays what it is when the log grows. -/
theorem withLog (h : f.Prepared) {log : Log} (hx : f.log.Extends log) :
    Prepared { f with log } where
  merging := h.merging
  replayed := h.replayed
  published w value offset hp hs hr := by
    obtain ⟨reached, record⟩ := h.published w value offset hp hs hr
    exact ⟨reached, hx.getElem? record⟩

/-- The value of a record is known. -/
theorem settle {w : Work} {value : Option ByteArray}
    (makes : w.record.Makes f.settings.schema (f.get? w.record.key) value) :
    Prepared { f with phase := f.settled w value } := by
  by_cases hv : f.readsVersion w
  · rw [settled_of_readsVersion hv]
    exact {
      merging := fun w' u hp hs => by
        cases hp
        cases hs
      replayed := fun w' value' offset hp hs _ => by
        cases hp
        cases hs
        exact ⟨rfl, makes⟩
      published := fun w' value' offset hp hs hr => by
        cases hp
        exact absurd hv hr }
  · rw [settled_of_not_readsVersion hv]
    refine of_isPlain fun w' hp => ?_
    cases hp
    exact ⟨fun _ => Stage.noConfusion, fun _ _ => Stage.noConfusion⟩

/-- A move keeps in hand what comes from the record. -/
theorem move (h : f.Prepared) (flow : f.phase.isOver = false → f.Flow) (m : f.Move g) :
    g.Prepared := by
  rcases m.isPlain_or_prepares with plain | prepares
  · exact .of_isPlain plain
  cases prepares with
  | rest => exact h
  | look w u payload =>
    exact {
      merging := fun w' u' hp hs => by
        cases hp
        cases hs
        exact payload
      replayed := fun w' value offset hp hs _ => by
        cases hp
        cases hs
      published := fun w' value offset hp hs _ => by
        cases hp
        cases hs }
  | settle w value phase known =>
    refine settle ?_
    rcases known with makes | ⟨u, v, stage, rfl, merged⟩
    · exact makes _
    · exact .update u v (h.merging w u phase stage) merged
  | publish w value phase stage =>
    have flow := flow (by rw [phase]; rfl)
    have hv := flow.not_readsVersion phase stage
    exact {
      merging := fun w' u hp hs => by
        cases hp
        cases hs
      replayed := fun w' value' offset hp _ hr => by
        cases hp
        exact absurd hr hv
      published := fun w' value' offset hp hs _ => by
        cases hp
        cases hs
        refine ⟨flow.reached, ?_⟩
        show (Log.records _ f.id.versionTopic)[_]? = _
        rw [Log.records_append_self]
        simp [versionRecords] }

end Prepared

/-- What is in hand after a move was in hand before, or was published right now. -/
theorem Move.inHand_cases (m : f.Move g) {i : Nat} {p : RealTimePosition} (h : g.InHand i p) :
    f.InHand i p ∨ i = f.versionRecords.length ∧ i < g.versionRecords.length := by
  rcases m.isPlain_or_prepares with plain | prepares
  · obtain ⟨w, value, hp, hs, _⟩ := h
    exact absurd hs ((plain w hp).2 value i)
  cases prepares with
  | rest => exact .inl h
  | look =>
    obtain ⟨w', value, hp, hs, _⟩ := h
    cases hp
    cases hs
  | settle w =>
    obtain ⟨w', value, hp, hs, hr, _⟩ := h
    unfold settled at hp
    split at hp
    · rename_i hv
      cases hp
      exact absurd hv hr
    · cases hp
      cases hs
  | publish =>
    obtain ⟨w', value, hp, hs, _⟩ := h
    cases hp
    cases hs
    refine .inr ⟨rfl, ?_⟩
    show _ < (Log.records _ f.id.versionTopic).length
    rw [Log.records_append_self]
    simp [versionRecords]

/-- What makes the version topic longer is in hand then. -/
theorem Move.inHand_of_longer (m : f.Move g) (flow : f.phase.isOver = false → f.Flow)
    (longer : f.versionRecords.length < g.versionRecords.length) :
    g.versionRecords.length = f.versionRecords.length + 1 ∧
      ∃ p, g.InHand f.versionRecords.length p := by
  cases m with
  | publish w value phase stage =>
    have hv := (flow (by rw [phase]; rfl)).not_readsVersion phase stage
    refine ⟨?_, _, _, value, rfl, rfl, hv, rfl⟩
    show (Log.records _ f.id.versionTopic).length = _
    rw [Log.records_append_self]
    simp [versionRecords]
  | retire _ _ books => simp [versionRecords, books.id, books.log] at longer
  | breakOff _ _ _ _ _ _ _ _ books => simp [versionRecords, books.id, books.log] at longer
  | turn =>
    unfold aimedAt at longer
    split at longer <;> exact absurd longer (Nat.lt_irrefl _)
  | _ => exact absurd longer (Nat.lt_irrefl _)

/-- What was published stays in hand until the position is behind it. After the end of the push no
write is tried again, so it is not dropped. -/
theorem Move.of_inHand (m : f.Move g) (flow : f.Flow) (hi : f.log.Indexed) {i : Nat}
    {p : RealTimePosition} (h : f.InHand i p) (ended : g.phase.isOver = false) :
    g.InHand i p ∨ g.tracker.versionPosition = i + 1 := by
  obtain ⟨w, value, hp, hs, hr, rfl⟩ := h
  have push := (flow.leads (.inl (flow.realTime hi hp hr).2.1)).2.2
  cases m with
  | rest => exact .inl ⟨w, value, hp, hs, hr, rfl⟩
  | retire _ hover => rw [hover] at ended; cases ended
  | breakOff _ _ _ _ _ _ _ killed => rw [killed] at ended; cases ended
  | lead p leads => exact absurd hp (leads.ne_working.1 w)
  | startOver w' _ phase unwritten =>
    cases hp.symm.trans phase
    rw [unwritten value i hs] at push
    cases push
  | storeVersion w' value' offset b phase stage version =>
    cases hp.symm.trans phase
    exact absurd version hr
  | storeRealTime w' value' offset b phase stage =>
    cases hp.symm.trans phase
    cases hs.symm.trans stage
    exact .inr rfl
  | _ => simp_all

/-- Within one life the position only goes forward. -/
theorem Progress.position_le (h : f.Progress g) (prepared : f.Prepared) (hi : f.log.Indexed)
    (restored : f.phase.isUnrestored = false) :
    f.tracker.versionPosition ≤ g.tracker.versionPosition := by
  cases h with
  | stays position => exact Nat.le_of_eq position.symm
  | resumes phase => rw [restored] at phase; cases phase
  | applies r record applies =>
    rw [applies.versionPosition, hi _ _ _ record]
    exact Nat.le_succ _
  | stores w value offset phase stage realTime tracker =>
    rw [tracker]
    exact Nat.le_succ_of_le (prepared.published w value offset phase stage realTime).1

/-- Nor does anything that is known of real-time topics get lost, -/
theorem Progress.reaches (h : f.Progress g) (restored : f.phase.isUnrestored = false)
    {region : Option RegionId} {offset : Nat} (reached : f.tracker.Reaches region offset) :
    g.tracker.Reaches region offset := by
  cases h with
  | stays _ _ reaches => exact reaches _ _ reached
  | resumes phase => rw [restored] at phase; cases phase
  | applies r _ applies => exact applies.reaches reached
  | stores w _ _ _ _ _ tracker =>
    rw [tracker]
    exact reached.atRealTimePosition _ _

/-- or a control message that was seen. -/
theorem Progress.saw (h : f.Progress g) (restored : f.phase.isUnrestored = false)
    {m : ControlMessage} (seen : f.tracker.Saw m) : g.tracker.Saw m := by
  cases h with
  | stays _ saw => exact (saw m).mpr seen
  | resumes phase => rw [restored] at phase; cases phase
  | applies r _ applies =>
    refine (applies.saw_iff ?_).mpr (.inl seen)
    rintro rfl
    exact seen
  | stores w _ _ _ _ _ tracker =>
    rw [tracker, LagTracker.saw_atVersionPosition, LagTracker.saw_pastRealTimeRecord]
    exact seen

/-! ## The end of the version topic -/

/-- What a move means for the hold of a replica on the end of its version topic. -/
inductive Hold (f g : Feed) : Prop where
  | stays (target : g.catchUpTarget = f.catchUpTarget)
      (turned : g.consumesRealTime = f.consumesRealTime)
  | drops (target : g.catchUpTarget = none) (turned : g.consumesRealTime = false)
  /-- It waits for the end that it sampled, now or before. -/
  | aims (target : Nat) (sampled : f.catchUpTarget = some target ∨ target = f.versionRecords.length)
      (position : g.tracker.versionPosition = f.tracker.versionPosition)
      (aimed : g.catchUpTarget = some target) (waits : g.consumesRealTime = false)
  /-- It has come there. -/
  | turns (target : Nat) (sampled : f.catchUpTarget = some target ∨
      target = f.versionRecords.length)
      (position : g.tracker.versionPosition = f.tracker.versionPosition)
      (reached : target ≤ f.tracker.versionPosition) (done : g.catchUpTarget = none)

theorem Move.hold (m : f.Move g) (ended : g.phase.isOver = false) : f.Hold g := by
  cases m with
  | retire _ hover => rw [hover] at ended; cases ended
  | breakOff _ _ _ _ _ _ _ killed => rw [killed] at ended; cases ended
  | takeRole => exact .drops rfl rfl
  | turn processed target phase leader hybrid push waits sampled =>
    have sampled := sampled.imp_right And.right
    unfold aimedAt
    split
    · rename_i hle
      exact .turns target sampled rfl hle rfl
    · exact .aims target sampled rfl rfl waits
  | _ => exact .stays rfl rfl

end Feed

end StoreFeed
