import StoreFeed.Proofs.Log
import StoreFeed.Proofs.Replica.Feed

/-!
# What a replica reads

A replica never skips a record and never reads one twice within one life: for every partition that
it is subscribed to, the consumer stands behind the pending records of the batch, and these begin at
the position of the tracker (`Feed.Flow`). While it works it is subscribed to exactly what its role
asks for, so it never reads the version topic and a real-time topic in one batch.
-/

namespace StoreFeed

namespace Phase

/-- Whether there is no consumer yet. -/
def isEarly : Phase → Bool
  | .created | .restoring _ | .acquiring _ => true
  | _ => false

/-- Whether the last checkpoint was not looked at yet. -/
def isUnrestored : Phase → Bool
  | .created | .restoring _ => true
  | _ => false

/-- Whether it is between the alignment of the subscriptions and the next safe point. -/
def isReading : Phase → Bool
  | .polling | .working _ | .committing _ | .safePoint _ => true
  | _ => false

theorem Leads.isEarly {p q : Phase} (h : p.Leads q) (hq : q.isEarly) : p.isEarly := by
  cases h <;> first | rfl | cases hq

theorem Leads.isUnrestored {p q : Phase} (h : p.Leads q) : q.isUnrestored = p.isUnrestored := by
  cases h <;> rfl

theorem Leads.isReading {p q : Phase} (h : p.Leads q) (hq : q.isReading) : p.isReading := by
  cases h <;> first | rfl | cases hq

theorem Leads.isOver {p q : Phase} (h : p.Leads q) : q.isOver = false := by
  cases h <;> rfl

theorem Leads.ne_working {p q : Phase} (h : p.Leads q) :
    (∀ w, p ≠ .working w) ∧ ∀ w, q ≠ .working w := by
  cases h <;> exact ⟨fun _ => Phase.noConfusion, fun _ => Phase.noConfusion⟩

theorem Leads.ne_attaching {p q : Phase} (h : p.Leads q) (first : Bool) (tp : TopicPartition)
    (offset : Nat) : q ≠ .attaching first tp offset := by
  cases h <;> exact Phase.noConfusion

/-- What is next when no record of the rest of a batch is passed over. -/
def ofBatch (b : Backoff) : List (TopicPartition × ChangeRecord) → Bool → Phase
  | [], true => .committing b
  | [], false => .safePoint false
  | (topic, record) :: rest, _ => .working ⟨topic, record, .fresh, b, rest⟩

section OfBatch

variable (b : Backoff) (batch : List (TopicPartition × ChangeRecord)) (processed : Bool)

@[simp]
theorem isEarly_ofBatch : (ofBatch b batch processed).isEarly = false := by
  cases batch <;> cases processed <;> rfl

theorem ofBatch_ne_attaching {first : Bool} {tp : TopicPartition} {offset : Nat} :
    ofBatch b batch processed ≠ .attaching first tp offset := by
  cases batch <;> cases processed <;> exact Phase.noConfusion

variable {b batch processed}

theorem stage_ofBatch {w : Work} (h : ofBatch b batch processed = .working w) :
    w.stage = .fresh := by
  cases batch with
  | nil => cases processed <;> cases h
  | cons e rest =>
    cases h
    rfl

end OfBatch

end Phase

namespace Feed

theorem pending_eq_nil {f : Feed} (h : ∀ w, f.phase ≠ .working w) : f.pending = [] := by
  unfold pending
  split
  · rename_i w hp
    exact absurd hp (h w)
  · rfl

theorem isWriting_of_ne_working {f : Feed} (h : ∀ w, f.phase ≠ .working w) :
    f.isWriting = false := by
  unfold isWriting
  split
  · rename_i w hp
    exact absurd hp (h w)
  · rfl

theorem isUnrestored_nextPhase (f : Feed) (b : Backoff)
    (batch : List (TopicPartition × ChangeRecord)) (processed : Bool) :
    (f.nextPhase b batch processed).isUnrestored = false := by
  rcases f.nextPhase_cases b batch processed with hp | hp | ⟨_, _, _, hp⟩ <;> rw [hp] <;> rfl

/-- The offset that the next record of a partition has to have. -/
def next? (f : Feed) (tp : TopicPartition) : Option Nat :=
  if tp = f.id.versionTopic then some f.tracker.versionPosition
  else f.tracker.realTimePosition? tp.region

/-- Where the consumer stands in a partition. -/
def position? (f : Feed) (tp : TopicPartition) : Option Nat :=
  f.consumer.bind (·.positions.find? tp)

/-- Nothing but its version topic and the real-time topics of its regions is desired. -/
theorem own_of_desired {f : Feed} {tp : TopicPartition} (h : f.desired.contains tp) :
    tp = f.id.versionTopic ∨ ∃ region ∈ f.settings.realTimeRegions,
      tp = f.id.realTimeTopic region := by
  unfold desired at h
  split at h
  · rw [SortedSet.contains_ofMembers, List.mem_map] at h
    obtain ⟨region, hregion, rfl⟩ := h
    exact .inr ⟨region, hregion, rfl⟩
  · rw [SortedSet.contains_ofMembers, List.mem_singleton] at h
    exact .inl h

/-- What is pending of a partition begins at the next offset, and the consumer stands behind it. -/
def Reads (f : Feed) (tp : TopicPartition) : Prop :=
  ∃ next, f.next? tp = some next ∧ f.log.Gives tp next (recordsOf tp f.pending) ∧
    f.position? tp = some (next + (recordsOf tp f.pending).length)

/-- What is left of a batch is what the feed has to go through: it comes from subscribed partitions
and begins at their next offsets, and the consumer stands behind it. -/
structure Faces (f : Feed) (batch : List (TopicPartition × ChangeRecord)) : Prop where
  subscribed : ∀ e ∈ batch, f.subscriptions.contains e.1
  reads : ∀ tp, f.subscriptions.contains tp → ∃ next, f.next? tp = some next ∧
    f.log.Gives tp next (recordsOf tp batch) ∧
      f.position? tp = some (next + (recordsOf tp batch).length)

/-- A tracker is past the record in hand, and where the feed was in all other partitions. -/
structure GoesPast (f : Feed) (w : Work) (t : LagTracker) : Prop where
  done : next? { f with tracker := t } w.topic = some (w.record.offset + 1)
  others : ∀ tp, f.subscriptions.contains tp → tp ≠ w.topic →
    next? { f with tracker := t } tp = f.next? tp

/-- Only a record of a real-time topic is published, and then it is written under an offset that it
was published at. -/
def Fits (f : Feed) (w : Work) : Prop :=
  match w.stage with
  | .openTopic _ | .publish _ => ¬ f.readsVersion w
  | .write _ offset => ¬ f.readsVersion w → offset < f.versionRecords.length
  | _ => True

/-- How a replica that is not over stands to what it reads. -/
structure Flow (f : Feed) : Prop where
  early : f.phase.isEarly →
    f.consumer = none ∧ f.consumesRealTime = false ∧ f.catchUpTarget = none
  /-- Only a hybrid leader past the end of the push looks for the real-time topics. -/
  leads : f.consumesRealTime ∨ f.catchUpTarget.isSome →
    f.role = .leader ∧ f.settings.isHybrid ∧ f.tracker.endOfPush
  /-- It has a target until it reads them. -/
  turned : f.consumesRealTime → f.catchUpTarget = none
  own : ∀ tp, f.subscriptions.contains tp →
    tp = f.id.versionTopic ∨ ∃ region ∈ f.settings.realTimeRegions, tp = f.id.realTimeTopic region
  reads : ∀ tp, f.subscriptions.contains tp → f.Reads tp
  unread : ∀ tp, f.subscriptions.contains tp = false → f.position? tp = none
  subscribed : ∀ e ∈ f.pending, f.subscriptions.contains e.1
  aligned : f.phase.isReading → ∀ tp, f.subscriptions.contains tp ↔ f.desired.contains tp
  attaching : ∀ first tp offset, f.phase = .attaching first tp offset →
    f.StartsAt tp offset ∧ f.desired.contains tp ∧ f.subscriptions.contains tp = false
  reached : f.tracker.versionPosition ≤ f.versionRecords.length
  fits : ∀ w, f.phase = .working w → f.Fits w

/-- The last checkpoint is a position of the version topic. -/
def Kept (f : Feed) : Prop :=
  ∀ c, f.data.checkpoint = some c → c.versionOffset ≤ f.versionRecords.length

namespace Flow

variable {f : Feed}

/-- A replica that starts reads nothing yet. -/
theorem of_created (phase : f.phase = .created) (consumer : f.consumer = none)
    (subscriptions : f.subscriptions = SortedMap.empty) (waits : f.consumesRealTime = false)
    (target : f.catchUpTarget = none) (position : f.tracker.versionPosition = 0) : f.Flow where
  early _ := ⟨consumer, waits, target⟩
  leads h := by simp [waits, target] at h
  turned _ := target
  own tp h := by simp [subscriptions, SortedMap.contains] at h
  reads tp h := by simp [subscriptions, SortedMap.contains] at h
  unread tp _ := by simp [position?, consumer]
  subscribed e he := by simp [pending, phase] at he
  aligned h := by simp [phase, Phase.isReading] at h
  attaching first tp offset h := by simp [phase] at h
  reached := by simp [position]
  fits w h := by simp [phase] at h

/-- A replica that reads real-time topics is past the end of the push, where no failed write is
tried again. -/
theorem isWriting_of_unwritten (h : f.Flow) {w : Work} (phase : f.phase = .working w)
    (unwritten : ∀ value offset, w.stage = .write value offset → f.tracker.endOfPush = false)
    (reads : f.consumesRealTime) : f.isWriting = false := by
  have push := (h.leads (.inl reads)).2.2
  cases hs : w.stage with
  | write value offset =>
    rw [unwritten value offset hs] at push
    cases push
  | _ => simp [isWriting, phase, hs]

/-- Growth of the log changes nothing. -/
theorem withLog (h : f.Flow) {log : Log} (hx : f.log.Extends log) :
    Flow { f with log } where
  early := h.early
  leads := h.leads
  turned := h.turned
  own := h.own
  reads tp htp := by
    obtain ⟨next, hn, hg, hp⟩ := h.reads tp htp
    exact ⟨next, hn, hx.gives hg, hp⟩
  unread := h.unread
  subscribed := h.subscribed
  aligned := h.aligned
  attaching := h.attaching
  reached := Nat.le_trans h.reached (hx.length_le _)
  fits w hp := by
    have fits := h.fits w hp
    unfold Fits at fits ⊢
    split at fits
    · exact fits
    · exact fits
    · exact fun hr => Nat.lt_of_lt_of_le (fits hr) (hx.length_le _)
    · trivial

theorem withData (h : f.Flow) (data : ReplicaData) : Flow { f with data } :=
  ⟨h.early, h.leads, h.turned, h.own, h.reads, h.unread, h.subscribed, h.aligned, h.attaching,
    h.reached, h.fits⟩

/-- Sampled ends change nothing. -/
theorem withTracker (h : f.Flow) {t : LagTracker} (endOfPush : t.endOfPush = f.tracker.endOfPush)
    (version : t.versionPosition = f.tracker.versionPosition)
    (realTime : t.realTimePositions = f.tracker.realTimePositions) :
    Flow { f with tracker := t } where
  early := h.early
  leads hl := by
    obtain ⟨leader, hybrid, push⟩ := h.leads hl
    exact ⟨leader, hybrid, endOfPush.trans push⟩
  turned := h.turned
  own := h.own
  reads tp htp := by
    obtain ⟨next, hn, hg, hp⟩ := h.reads tp htp
    refine ⟨next, ?_, hg, hp⟩
    simpa [next?, LagTracker.realTimePosition?, version, realTime] using hn
  unread := h.unread
  subscribed := h.subscribed
  aligned := h.aligned
  attaching first tp offset hp := by
    obtain ⟨hs, hrest⟩ := h.attaching first tp offset hp
    refine ⟨?_, hrest⟩
    simpa [StartsAt, LagTracker.realTimePosition?, version, realTime] using hs
  reached := version ▸ h.reached
  fits := h.fits

/-- A change of phase that keeps the pending records. -/
theorem withPhase (h : f.Flow) {p : Phase} (pending : pending { f with phase := p } = f.pending)
    (early : p.isEarly → f.phase.isEarly) (reading : p.isReading → f.phase.isReading)
    (attaching : ∀ first tp offset, p ≠ .attaching first tp offset)
    (fits : ∀ w, p = .working w → f.Fits w) : Flow { f with phase := p } where
  early hp := h.early (early hp)
  leads := h.leads
  turned := h.turned
  own := h.own
  reads tp htp := by
    obtain ⟨next, hn, hg, hp⟩ := h.reads tp htp
    refine ⟨next, hn, ?_, ?_⟩
    · rw [pending]
      exact hg
    · rw [pending]
      exact hp
  unread := h.unread
  subscribed := by
    rw [pending]
    exact h.subscribed
  aligned hp := h.aligned (reading hp)
  attaching first tp offset hp := absurd hp (attaching first tp offset)
  reached := h.reached
  fits := fits

/-- With nothing pending the consumer stands at the next offset, whatever comes next. -/
theorem reads_of_pending (h : f.Flow) (idle : f.pending = []) {tp : TopicPartition}
    (htp : f.subscriptions.contains tp) : ∃ next, f.next? tp = some next ∧
      f.log.Gives tp next (recordsOf tp []) ∧
        f.position? tp = some (next + (recordsOf tp []).length) :=
  idle ▸ h.reads tp htp

/-! ## While a record is processed -/

section Working

variable {w : Work}

/-- The record that is processed is the next one of its partition. -/
theorem next (h : f.Flow) (hp : f.phase = .working w) :
    ∃ next, f.next? w.topic = some next ∧ (f.log.records w.topic)[next]? = some w.record := by
  have hpend : f.pending = (w.topic, w.record) :: w.rest := by simp [pending, hp]
  obtain ⟨next, hn, hg, _⟩ := h.reads w.topic (h.subscribed (w.topic, w.record) (by simp [hpend]))
  rw [hpend, recordsOf_cons_self, Log.gives_cons] at hg
  exact ⟨next, hn, hg.1⟩

/-- What is processed is desired. -/
theorem desired (h : f.Flow) (hp : f.phase = .working w) : f.desired.contains w.topic :=
  (h.aligned (by rw [hp]; rfl) _).mp (h.subscribed (w.topic, w.record) (by simp [pending, hp]))

/-- A record of the version topic is at the position of the tracker. -/
theorem version (h : f.Flow) (hi : f.log.Indexed) (hp : f.phase = .working w)
    (hv : f.readsVersion w) :
    w.topic = f.id.versionTopic ∧ f.consumesRealTime = false ∧
      f.versionRecords[f.tracker.versionPosition]? = some w.record ∧
      w.record.offset = f.tracker.versionPosition := by
  have hd := h.desired hp
  unfold Feed.desired at hd
  split at hd
  · rw [SortedSet.contains_ofMembers, List.mem_map] at hd
    obtain ⟨region, _, heq⟩ := hd
    exact absurd ((congrArg TopicPartition.topic heq).trans hv).symm
      (f.id.versionTopic_ne_realTimeTopic region)
  · rename_i hno
    rw [SortedSet.contains_ofMembers, List.mem_singleton] at hd
    obtain ⟨next, hn, hr⟩ := h.next hp
    rw [hd] at hn hr
    simp only [next?, if_true, Option.some.injEq] at hn
    subst hn
    refine ⟨hd, ?_, hr, hi _ _ _ hr⟩
    cases hc : f.consumesRealTime with
    | false => rfl
    | true => exact absurd ⟨(h.leads (.inl hc)).1, hc⟩ hno

theorem offset_lt (h : f.Flow) (hi : f.log.Indexed) (hp : f.phase = .working w)
    (hv : f.readsVersion w) :
    w.record.offset < f.versionRecords.length := by
  obtain ⟨_, _, hrecord, hoffset⟩ := h.version hi hp hv
  rw [hoffset]
  exact (List.getElem?_eq_some_iff.mp hrecord).1

/-- A record of a real-time topic is at the known position of a region of the version. -/
theorem realTime (h : f.Flow) (hi : f.log.Indexed) (hp : f.phase = .working w)
    (hv : ¬ f.readsVersion w) :
    f.role = .leader ∧ f.consumesRealTime ∧ w.topic.region ∈ f.settings.realTimeRegions ∧
      w.topic = f.id.realTimeTopic w.topic.region ∧
      f.tracker.realTimePosition? w.topic.region = some w.record.offset ∧
      (f.log.records w.topic)[w.record.offset]? = some w.record := by
  have hd := h.desired hp
  unfold Feed.desired at hd
  split at hd
  · rename_i hrt
    rw [SortedSet.contains_ofMembers, List.mem_map] at hd
    obtain ⟨region, hregion, heq⟩ := hd
    obtain ⟨next, hn, hr⟩ := h.next hp
    have hne : w.topic ≠ f.id.versionTopic := fun heq => hv (congrArg _ heq)
    have ho := hi _ _ _ hr
    subst ho
    rw [next?, if_neg hne] at hn
    have hreg : w.topic.region = region := by rw [← heq]; rfl
    exact ⟨hrt.1, hrt.2, hreg ▸ hregion, hreg ▸ heq.symm, hn, hr⟩
  · rw [SortedSet.contains_ofMembers, List.mem_singleton] at hd
    exact absurd (congrArg TopicPartition.topic hd) hv

/-- A standby reads nothing but its version topic. -/
theorem readsVersion_of_standby (h : f.Flow) (hi : f.log.Indexed) (hp : f.phase = .working w)
    (standby : f.role = .standby) : f.readsVersion w := by
  by_cases hv : f.readsVersion w
  · exact hv
  · have leader := (h.realTime hi hp hv).1
    rw [standby] at leader
    cases leader

/-- Nothing but records of real-time topics is published. -/
theorem not_readsVersion (h : f.Flow) (hp : f.phase = .working w) {value : Option ByteArray}
    (hs : w.stage = .publish value) : ¬ f.readsVersion w := by
  have fits := h.fits w hp
  simp only [Fits, hs] at fits
  exact fits

/-- Another stage of the same record. -/
theorem stage (h : f.Flow) (hp : f.phase = .working w) (s : Stage) (b : Backoff)
    (fits : f.Fits { w with stage := s, backoff := b }) :
    Flow { f with phase := .working { w with stage := s, backoff := b } } := by
  refine h.withPhase ?_ (fun hp => by cases hp) (fun _ => by rw [hp]; rfl)
    (fun _ _ _ hn => by cases hn) ?_
  · simp [pending, hp]
  · intro w' hw
    cases hw
    exact fits

end Working

/-! ## From record to record -/

section Batch

variable {b : Backoff} {batch : List (TopicPartition × ChangeRecord)} {processed : Bool}

/-- Of a batch of subscribed partitions, at or after the position, no record is passed over. -/
theorem nextPhase_eq (subscribed : ∀ e ∈ batch, f.subscriptions.contains e.1)
    (ahead : ∀ e ∈ batch, e.1 = f.id.versionTopic → f.tracker.versionPosition ≤ e.2.offset) :
    f.nextPhase b batch processed = .ofBatch b batch processed := by
  cases batch with
  | nil => cases processed <;> rfl
  | cons e rest =>
    have hs := subscribed e List.mem_cons_self
    have ha := ahead e List.mem_cons_self
    unfold nextPhase
    rw [if_neg (by simp [hs]), if_neg]
    · rfl
    · rintro ⟨htp, hlt⟩
      exact absurd (ha htp) (by omega)

/-- Nothing is passed over of what a feed has to go through. -/
theorem nextPhase_of_faces (h : f.Faces batch) (hi : f.log.Indexed) :
    f.nextPhase b batch processed = .ofBatch b batch processed := by
  refine nextPhase_eq h.subscribed fun e he htp => ?_
  obtain ⟨next, hn, hgives, _⟩ := h.reads e.1 (h.subscribed e he)
  rw [htp, next?, if_pos rfl, Option.some.injEq] at hn
  rw [hn]
  exact hgives.le_offset hi (mem_recordsOf.mpr he)

/-- All of it is left then. -/
theorem pending_of_faces (h : f.Faces batch) (hi : f.log.Indexed) :
    pending { f with phase := f.nextPhase b batch processed } = batch := by
  rw [nextPhase_of_faces h hi]
  cases batch <;> cases processed <;> rfl

/-- A feed that reads a batch takes it as it is. -/
theorem withBatch (h : f.Flow) (hi : f.log.Indexed) (reading : f.phase.isReading)
    {t : LagTracker} {consumer : Option Consumer}
    (push : f.tracker.endOfPush → t.endOfPush)
    (reached : t.versionPosition ≤ f.versionRecords.length)
    (faces : Faces { f with tracker := t, consumer } batch)
    (unread : ∀ tp, f.subscriptions.contains tp = false → position? { f with consumer } tp = none) :
    Flow { f with
      tracker := t
      consumer
      phase := nextPhase { f with tracker := t, consumer } b batch processed } := by
  have hphase : nextPhase { f with tracker := t, consumer } b batch processed =
      .ofBatch b batch processed := nextPhase_of_faces faces hi
  have hpend : pending { f with
      tracker := t
      consumer
      phase := nextPhase { f with tracker := t, consumer } b batch processed } = batch :=
    pending_of_faces faces hi
  exact {
    early := fun he => by simp [hphase] at he
    leads := fun hl => by
      obtain ⟨leader, hybrid, hpush⟩ := h.leads hl
      exact ⟨leader, hybrid, push hpush⟩
    turned := h.turned
    own := h.own
    reads := fun tp htp => by
      obtain ⟨next, hn, hgives, hpos⟩ := faces.reads tp htp
      refine ⟨next, hn, ?_, ?_⟩
      · rw [hpend]
        exact hgives
      · rw [hpend]
        exact hpos
    unread := unread
    subscribed := by
      rw [hpend]
      exact faces.subscribed
    aligned := fun _ => h.aligned reading
    attaching := fun first tp offset hp =>
      absurd (hphase.symm.trans hp) (Phase.ofBatch_ne_attaching b batch processed)
    reached := reached
    fits := fun w hp => by
      unfold Fits
      rw [Phase.stage_ofBatch (hphase.symm.trans hp)]
      trivial }

/-- A polled batch is what the feed has to go through. -/
theorem faces_poll (h : f.Flow) (hp : f.phase = .polling) {c c' : Consumer} {limit : Nat}
    (consumer : f.consumer = some c) (polled : c.poll f.log limit = .ok (batch, c')) :
    Faces { f with consumer := some c' } batch := by
  have hpend : f.pending = [] := by simp [pending, hp]
  have position : ∀ tp, f.position? tp = c.positions.find? tp := by simp [position?, consumer]
  refine ⟨fun e he => ?_, fun tp htp => ?_⟩
  · cases hs : f.subscriptions.contains e.1 with
    | true => rfl
    | false =>
      have hnone := (c.poll_of_none polled ((position _).symm.trans (h.unread _ hs))).1
      have hmem : e.2 ∈ recordsOf e.1 batch := mem_recordsOf.mpr he
      rw [hnone] at hmem
      cases hmem
  · obtain ⟨next, hn, _, hpos⟩ := h.reads tp htp
    rw [hpend, position, recordsOf_nil, List.length_nil, Nat.add_zero] at hpos
    obtain ⟨hgives, hpos'⟩ := c.poll_of_some polled hpos
    exact ⟨next, hn, hgives, hpos'⟩

/-- A polled batch is read. -/
theorem poll (h : f.Flow) (hi : f.log.Indexed) (hp : f.phase = .polling) {c c' : Consumer}
    {limit : Nat} (consumer : f.consumer = some c) (polled : c.poll f.log limit = .ok (batch, c')) :
    Flow { f with
      consumer := some c', phase := nextPhase { f with consumer := some c' } b batch false } := by
  have position : ∀ tp, f.position? tp = c.positions.find? tp := by simp [position?, consumer]
  exact h.withBatch hi (by rw [hp]; rfl) (fun hpush => hpush) h.reached
    (h.faces_poll hp consumer polled) fun tp htp =>
      (c.poll_of_none polled ((position _).symm.trans (h.unread _ htp))).2

/-- With its record done, the rest of a batch is what the feed has to go through. -/
theorem faces_finished (h : f.Flow) (hi : f.log.Indexed) {w : Work} (hp : f.phase = .working w)
    {t : LagTracker} (past : f.GoesPast w t) : Faces { f with tracker := t } w.rest := by
  have hpend : f.pending = (w.topic, w.record) :: w.rest := by simp [pending, hp]
  refine ⟨fun e he => h.subscribed e (by simp [hpend, he]), fun tp htp => ?_⟩
  obtain ⟨next, hn, hg, hpos⟩ := h.reads tp htp
  by_cases htopic : tp = w.topic
  · subst htopic
    rw [hpend, recordsOf_cons_self] at hg hpos
    rw [Log.gives_cons] at hg
    have done := past.done
    rw [hi _ _ _ hg.1] at done
    exact ⟨next + 1, done, hg.2, hpos.trans (by simp; omega)⟩
  · rw [hpend, recordsOf_cons_of_ne (Ne.symm htopic)] at hg hpos
    exact ⟨next, (past.others tp htp htopic).trans hn, hg, hpos⟩

/-- With its record done the rest of a batch is read on. -/
theorem finished (h : f.Flow) (hi : f.log.Indexed) {w : Work} (hp : f.phase = .working w)
    {t : LagTracker} (push : f.tracker.endOfPush → t.endOfPush)
    (reached : t.versionPosition ≤ f.versionRecords.length) (past : f.GoesPast w t) :
    (f.finished t b w).Flow :=
  h.withBatch hi (by rw [hp]; rfl) push reached (h.faces_finished hi hp past) h.unread

/-- A tracker at the next position of the version topic is past a record of it. -/
theorem goesPast_version (h : f.Flow) (hi : f.log.Indexed) {w : Work} (hp : f.phase = .working w)
    (hv : f.readsVersion w) {t : LagTracker} (position : t.versionPosition = w.record.offset + 1) :
    f.GoesPast w t := by
  obtain ⟨htopic, hwaits, _, _⟩ := h.version hi hp hv
  refine ⟨by simp [next?, htopic, position], fun tp htp hne => ?_⟩
  -- Nothing but the version topic is subscribed.
  have hd := (h.aligned (by rw [hp]; rfl) tp).mp htp
  rw [Feed.desired, if_neg (by simp [hwaits]), SortedSet.contains_ofMembers,
    List.mem_singleton] at hd
  exact absurd (hd.trans htopic.symm) hne

/-- A tracker that moved on in the real-time topic of a record is past it, wherever it stands in the
version topic. -/
theorem goesPast_realTime (h : f.Flow) (hi : f.log.Indexed) {w : Work}
    (hp : f.phase = .working w) (hv : ¬ f.readsVersion w) (position : Nat) :
    f.GoesPast w ((f.tracker.pastRealTimeRecord w.topic w.record).atVersionPosition position) := by
  obtain ⟨hleader, hreal, _, htopic, hposition, _⟩ := h.realTime hi hp hv
  have hne : w.topic ≠ f.id.versionTopic := fun heq => hv (congrArg _ heq)
  refine ⟨?_, fun tp htp hother => ?_⟩
  · have hself := f.tracker.realTimePosition?_atRealTimePosition_self w.topic.region
      (w.record.offset + 1)
    rw [next?, if_neg hne]
    refine hself.trans ?_
    rw [hposition, Option.getD_some, Nat.max_eq_right (by omega)]
  · -- Every subscribed partition is the real-time topic of a region of its own.
    have hd := (h.aligned (by rw [hp]; rfl) tp).mp htp
    rw [Feed.desired, if_pos ⟨hleader, hreal⟩, SortedSet.contains_ofMembers, List.mem_map] at hd
    obtain ⟨region, _, rfl⟩ := hd
    have hregion : region ≠ w.topic.region := by
      rintro rfl
      exact hother htopic.symm
    have hversion : f.id.realTimeTopic region ≠ f.id.versionTopic := fun heq =>
      f.id.versionTopic_ne_realTimeTopic region (congrArg TopicPartition.topic heq).symm
    rw [next?, next?, if_neg hversion, if_neg hversion]
    exact f.tracker.realTimePosition?_atRealTimePosition_of_ne hregion _

/-- A record of the version topic is done. -/
theorem finishedVersion (h : f.Flow) (hi : f.log.Indexed) {w : Work} (hp : f.phase = .working w)
    (hv : f.readsVersion w) {t : LagTracker} (push : f.tracker.endOfPush → t.endOfPush)
    (position : t.versionPosition = w.record.offset + 1) : (f.finished t b w).Flow := by
  obtain ⟨_, _, hrecord, hoffset⟩ := h.version hi hp hv
  refine h.finished hi hp push ?_ (h.goesPast_version hi hp hv position)
  have := (List.getElem?_eq_some_iff.mp hrecord).1
  omega

/-- A record of a real-time topic is done. -/
theorem finishedRealTime (h : f.Flow) (hi : f.log.Indexed) {w : Work} (hp : f.phase = .working w)
    (hv : ¬ f.readsVersion w) {position : Nat} (reached : position ≤ f.versionRecords.length) :
    (f.finished ((f.tracker.pastRealTimeRecord w.topic w.record).atVersionPosition position)
      b w).Flow :=
  h.finished hi hp (fun hpush => hpush) reached (h.goesPast_realTime hi hp hv position)

end Batch

/-! ## Subscribing -/

theorem restore (h : f.Flow) (kept : f.Kept) {since next : Nat} (hp : f.phase = .restoring since) :
    Flow { f with
      phase := .acquiring next, tracker := f.tracker.resumed f.data.checkpoint } := by
  obtain ⟨consumer, waits, target⟩ := h.early (by rw [hp]; rfl)
  have nothing : ∀ tp, f.subscriptions.contains tp = false := by
    intro tp
    cases hs : f.subscriptions.contains tp with
    | false => rfl
    | true =>
      obtain ⟨_, _, _, hpos⟩ := h.reads tp hs
      simp [position?, consumer] at hpos
  exact {
    early := fun _ => ⟨consumer, waits, target⟩
    leads := fun hl => by simp [waits, target] at hl
    turned := h.turned
    own := h.own
    reads := fun tp htp => by simp [nothing] at htp
    unread := h.unread
    subscribed := fun e he => by cases he
    aligned := fun hr => by cases hr
    attaching := fun _ _ _ ha => by cases ha
    reached := by
      show (f.tracker.resumed f.data.checkpoint).versionPosition ≤ f.versionRecords.length
      cases hc : f.data.checkpoint with
      | none => exact h.reached
      | some c =>
        rw [LagTracker.resumed, LagTracker.versionPosition_restored]
        exact kept c hc
    fits := fun _ hw => by cases hw }

theorem acquire (h : f.Flow) {since : Nat} (hp : f.phase = .acquiring since) :
    Flow { f with consumer := some Consumer.fresh, phase := .aligning true } where
  early he := by cases he
  leads := h.leads
  turned := h.turned
  own := h.own
  reads tp htp := by
    obtain ⟨consumer, _, _⟩ := h.early (by rw [hp]; rfl)
    obtain ⟨_, _, _, hpos⟩ := h.reads tp htp
    simp [position?, consumer] at hpos
  unread _ _ := rfl
  subscribed e he := by cases he
  aligned hr := by cases hr
  attaching _ _ _ ha := by cases ha
  reached := h.reached
  fits _ hw := by cases hw

theorem detach (h : f.Flow) {first : Bool} {c : Consumer} (tp : TopicPartition)
    (hp : f.phase = .aligning first) (consumer : f.consumer = some c) :
    Flow { f with
      consumer := some (c.unsubscribe tp), subscriptions := f.subscriptions.erase tp } := by
  have hpend : f.pending = [] := by simp [pending, hp]
  have kept : ∀ tp', SortedMap.contains (f.subscriptions.erase tp) tp' →
      tp' ≠ tp ∧ f.subscriptions.contains tp' := by
    intro tp' htp
    by_cases hne : tp' = tp
    · subst hne
      simp at htp
    · exact ⟨hne, by rwa [SortedSet.contains_erase_of_ne _ hne] at htp⟩
  have hpos : ∀ tp', tp' ≠ tp → position? { f with consumer := some (c.unsubscribe tp) } tp' =
      f.position? tp' := by
    intro tp' hne
    simp [position?, consumer, Consumer.unsubscribe, SortedMap.find?_erase_of_ne _ hne]
  exact {
    early := fun he => by simp [hp, Phase.isEarly] at he
    leads := h.leads
    turned := h.turned
    own := fun tp' htp => h.own tp' (kept tp' htp).2
    reads := fun tp' htp => by
      obtain ⟨hne, hs⟩ := kept tp' htp
      obtain ⟨next, hn, hg, hat⟩ := h.reads tp' hs
      exact ⟨next, hn, hg, (hpos tp' hne).trans hat⟩
    unread := fun tp' htp => by
      by_cases hne : tp' = tp
      · subst hne
        simp [position?, Consumer.unsubscribe]
      · rw [SortedSet.contains_erase_of_ne _ hne] at htp
        exact (hpos tp' hne).trans (h.unread tp' htp)
    subscribed := fun e he => by
      replace he : e ∈ f.pending := he
      rw [hpend] at he
      cases he
    aligned := fun hr => by simp [hp, Phase.isReading] at hr
    attaching := fun _ _ _ ha => by simp [hp] at ha
    reached := h.reached
    fits := fun _ hw => by simp [hp] at hw }

theorem aim (h : f.Flow) {first : Bool} {tp : TopicPartition} {offset : Nat}
    (hp : f.phase = .aligning first) (missing : tp ∈ f.desired.diff f.subscriptions)
    (startsAt : f.StartsAt tp offset) : Flow { f with phase := .attaching first tp offset } where
  early he := by cases he
  leads := h.leads
  turned := h.turned
  own := h.own
  reads _ htp := h.reads_of_pending (by simp [pending, hp]) htp
  unread := h.unread
  subscribed e he := by cases he
  aligned hr := by cases hr
  attaching _ _ _ ha := by
    cases ha
    exact ⟨startsAt, SortedSet.mem_diff.mp missing⟩
  reached := h.reached
  fits _ hw := by cases hw

/-- Where a partition is attached, its next offset is the one it is attached at. -/
theorem next?_attached {tp : TopicPartition} {offset : Nat} (startsAt : f.StartsAt tp offset) :
    next? { f with tracker := if tp = f.id.versionTopic then f.tracker
      else f.tracker.atRealTimePosition tp.region offset } tp = some offset := by
  unfold StartsAt at startsAt
  unfold next?
  by_cases hv : tp = f.id.versionTopic
  · rw [if_pos hv] at startsAt
    simp only [if_pos hv]
    rw [startsAt]
  · rw [if_neg hv] at startsAt
    simp only [if_neg hv, LagTracker.realTimePosition?_atRealTimePosition_self]
    cases hn : f.tracker.realTimePosition? tp.region with
    | none => simp
    | some next => simp [startsAt next hn]

/-- The other subscriptions have other regions, so their next offsets stay. -/
theorem next?_attach (h : f.Flow) {tp : TopicPartition} (desired : f.desired.contains tp)
    (offset : Nat) {tp' : TopicPartition} (hne : tp' ≠ tp) (hs : f.subscriptions.contains tp') :
    next? { f with tracker := if tp = f.id.versionTopic then f.tracker
      else f.tracker.atRealTimePosition tp.region offset } tp' = f.next? tp' := by
  by_cases hv : tp = f.id.versionTopic
  · simp only [if_pos hv]
  · simp only [if_neg hv]
    obtain ⟨region, _, rfl⟩ := (own_of_desired desired).resolve_left hv
    rcases h.own tp' hs with rfl | ⟨region', _, rfl⟩
    · simp [next?, LagTracker.atRealTimePosition]
    · have hregion : region' ≠ region := fun heq => hne (by rw [heq])
      unfold next?
      split
      · rfl
      · exact f.tracker.realTimePosition?_atRealTimePosition_of_ne hregion offset

theorem attach (h : f.Flow) {first : Bool} {c : Consumer} {tp : TopicPartition} {offset : Nat}
    (hp : f.phase = .attaching first tp offset) (consumer : f.consumer = some c) :
    Flow { f with
      consumer := some ⟨c.positions.insert tp offset⟩
      subscriptions := f.subscriptions.add tp
      tracker := if tp = f.id.versionTopic then f.tracker
        else f.tracker.atRealTimePosition tp.region offset
      phase := .aligning first } := by
  have hpend : f.pending = [] := by simp [pending, hp]
  obtain ⟨startsAt, desired, missing⟩ := h.attaching first tp offset hp
  have hown := own_of_desired desired
  -- Only the partition that is attached gets a position; all others are read as before.
  have hpos : ∀ tp', tp' ≠ tp →
      position? { f with consumer := some ⟨c.positions.insert tp offset⟩ } tp' =
        f.position? tp' := by
    intro tp' hne
    simp [position?, consumer, SortedMap.find?_insert_of_ne _ hne]
  exact {
    early := fun he => by cases he
    leads := fun hl => by
      obtain ⟨leader, hybrid, push⟩ := h.leads hl
      refine ⟨leader, hybrid, ?_⟩
      dsimp only
      split
      · exact push
      · exact push
    turned := h.turned
    own := fun tp' htp => by
      by_cases hne : tp' = tp
      · subst hne
        exact hown
      · rw [SortedSet.contains_add_of_ne _ hne] at htp
        exact h.own tp' htp
    reads := fun tp' htp => by
      by_cases hne : tp' = tp
      · subst hne
        exact ⟨offset, next?_attached startsAt, Log.gives_nil _ _ _, by simp [position?, pending]⟩
      · rw [SortedSet.contains_add_of_ne _ hne] at htp
        obtain ⟨next, hn, _, hat⟩ := h.reads tp' htp
        rw [hpend] at hat
        exact ⟨next, (h.next?_attach desired offset hne htp).trans hn, Log.gives_nil _ _ _,
          (hpos tp' hne).trans hat⟩
    unread := fun tp' htp => by
      have hne : tp' ≠ tp := by
        rintro rfl
        simp at htp
      rw [SortedSet.contains_add_of_ne _ hne] at htp
      exact (hpos tp' hne).trans (h.unread tp' htp)
    subscribed := fun e he => by cases he
    aligned := fun hr => by cases hr
    attaching := fun _ _ _ ha => by cases ha
    reached := by
      dsimp only
      split
      · exact h.reached
      · exact h.reached
    fits := fun _ hw => by cases hw }

theorem align (h : f.Flow) {first : Bool} (hp : f.phase = .aligning first)
    (kept : f.subscriptions.diff f.desired = []) (complete : f.desired.diff f.subscriptions = []) :
    Flow { f with phase := .polling } where
  early he := by cases he
  leads := h.leads
  turned := h.turned
  own := h.own
  reads _ htp := h.reads_of_pending (by simp [pending, hp]) htp
  unread := h.unread
  subscribed e he := by cases he
  aligned _ tp := ⟨SortedSet.contains_of_diff_eq_nil kept,
    SortedSet.contains_of_diff_eq_nil complete⟩
  attaching _ _ _ ha := by cases ha
  reached := h.reached
  fits _ hw := by cases hw

/-! ## The rest of a cycle -/

theorem takeRole (h : f.Flow) {processed : Bool} (hp : f.phase = .safePoint processed)
    (role : Role) :
    Flow { f with
      role
      tracker := { f.tracker with role }
      consumesRealTime := false
      catchUpTarget := none
      phase := .promoting processed } where
  early he := by cases he
  leads hl := by simp at hl
  turned _ := rfl
  own := h.own
  reads _ htp := h.reads_of_pending (by simp [pending, hp]) htp
  unread := h.unread
  subscribed e he := by cases he
  aligned hr := by cases hr
  attaching _ _ _ ha := by cases ha
  reached := h.reached
  fits _ hw := by cases hw

theorem turn (h : f.Flow) {processed : Bool} (hp : f.phase = .promoting processed) (target : Nat)
    (leader : f.role = .leader) (hybrid : f.settings.isHybrid) (push : f.tracker.endOfPush)
    (waits : f.consumesRealTime = false) :
    Flow { f.aimedAt target with phase := .samplingVersion processed } := by
  have turned : ∀ (consumesRealTime : Bool) (catchUpTarget : Option Nat),
      (consumesRealTime → catchUpTarget = none) →
      Flow { f with consumesRealTime, catchUpTarget, phase := .samplingVersion processed } :=
    fun _ _ turned =>
    { early := fun he => by cases he
      leads := fun _ => ⟨leader, hybrid, push⟩
      turned := turned
      own := h.own
      reads := fun _ htp => h.reads_of_pending (by simp [pending, hp]) htp
      unread := h.unread
      subscribed := fun e he => by cases he
      aligned := fun hr => by cases hr
      attaching := fun _ _ _ ha => by cases ha
      reached := h.reached
      fits := fun _ hw => by cases hw }
  unfold aimedAt
  split
  · exact turned _ _ fun _ => rfl
  · exact turned _ _ fun hc => absurd (waits.symm.trans hc) Bool.false_ne_true

theorem settled (h : f.Flow) {w : Work} (hp : f.phase = .working w) (value : Option ByteArray) :
    Flow { f with phase := f.settled w value } := by
  by_cases hv : f.readsVersion w
  · rw [settled_of_readsVersion hv]
    exact h.stage hp _ w.backoff fun hr => absurd hv hr
  · rw [settled_of_not_readsVersion hv]
    exact h.stage hp _ w.backoff hv

end Flow

/-! ## Moves -/

namespace Move

variable {f g : Feed}

theorem id_eq (m : f.Move g) : g.id = f.id := by
  cases m with
  | retire _ _ books => exact books.id
  | breakOff _ _ _ _ _ _ _ _ books => exact books.id
  | turn => unfold aimedAt; split <;> rfl
  | _ => rfl

theorem settings_eq (m : f.Move g) : g.settings = f.settings := by
  cases m with
  | retire _ _ books => exact books.settings
  | breakOff _ _ _ _ _ _ _ _ books => exact books.settings
  | turn => unfold aimedAt; split <;> rfl
  | _ => rfl

/-- The log stays as it is, or gets the record that is to be published. -/
theorem log_cases (m : f.Move g) : g.log = f.log ∨ ∃ w value, f.phase = .working w ∧
    w.stage = .publish value ∧
    g.log = (f.log.append f.id.versionTopic (Act.republished w.topic w.record value)).2 := by
  cases m with
  | retire _ _ books => exact .inl books.log
  | breakOff _ _ _ _ _ _ _ _ books => exact .inl books.log
  | turn => exact .inl (by unfold aimedAt; split <;> rfl)
  | publish w value phase stage => exact .inr ⟨w, value, phase, stage, rfl⟩
  | _ => exact .inl rfl

theorem extends_log (m : f.Move g) : f.log.Extends g.log := by
  rcases m.log_cases with h | ⟨w, value, _, _, h⟩
  · rw [h]
    exact Log.Extends.refl _
  · rw [h]
    exact Log.Extends.append _ _ _

/-- The checkpoint stays as it is, or is committed. -/
theorem checkpoint_cases (m : f.Move g) : g.data.checkpoint = f.data.checkpoint ∨
    ∃ b, f.phase = .committing b ∧ g.data.checkpoint = some f.checkpoint := by
  cases m with
  | retire _ _ books => exact .inl (by rw [books.data])
  | breakOff _ _ _ _ _ _ _ _ books =>
    exact .inl (by rw [books.data]; exact f.data.checkpoint_write _ _)
  | turn => exact .inl (by unfold aimedAt; split <;> rfl)
  | storeVersion => exact .inl (f.data.checkpoint_write _ _)
  | storeRealTime => exact .inl (f.data.checkpoint_write _ _)
  | commit b phase => exact .inr ⟨b, phase, rfl⟩
  | _ => exact .inl rfl

/-- What is over stays over. -/
theorem isOver (m : f.Move g) (h : f.phase.isOver) : g.phase.isOver := by
  cases m with
  | rest => exact h
  | retire _ ended => exact ended
  | breakOff _ _ _ _ _ _ _ killed => rw [killed]; rfl
  | lead _ leads => generalize f.phase = p at h leads; cases leads <;> cases h
  | detach _ _ _ phase => rw [phase] at h; cases h
  | _ => simp_all [Phase.isOver]

theorem live (m : f.Move g) (ended : g.phase.isOver = false) : f.phase.isOver = false := by
  cases h : f.phase.isOver with
  | false => rfl
  | true => rw [m.isOver h] at ended; cases ended

/-- A replica that is over after a move was over and rests, keeps its books, or was broken off right
after a write. -/
theorem of_over (m : f.Move g) (ended : g.phase.isOver) : g = f ∨ f.SameBooks g ∨
    ∃ w value offset, f.phase = .working w ∧ w.stage = .write value offset ∧ g.phase = .killed ∧
      SameBooks { f with data := f.data.write w.record.key ⟨value, offset⟩ } g := by
  cases m with
  | rest => exact .inl rfl
  | retire _ _ books => exact .inr (.inl books)
  | breakOff w value offset _ phase stage _ killed books =>
    exact .inr (.inr ⟨w, value, offset, phase, stage, killed, books⟩)
  | lead _ leads => simp [leads.isOver] at ended
  | detach _ _ _ phase => simp [phase, Phase.isOver] at ended
  | poll => simp at ended
  | passVersionControl => simp [finished] at ended
  | passRealTimeControl => simp [finished] at ended
  | storeVersion => simp [finished] at ended
  | storeRealTime => simp [finished] at ended
  | lookAtPut => simp at ended
  | lookAtDelete => simp at ended
  | merge => simp at ended
  | sampleVersion _ _ _ next => rcases next with rfl | rfl <;> cases ended
  | _ => cases ended

end Move

/-- A move keeps the checkpoint where it can be gone on from. -/
theorem Kept.move {f g : Feed} (k : f.Kept) (h : f.phase.isOver = false → f.Flow) (m : f.Move g) :
    g.Kept := by
  have longer : f.versionRecords.length ≤ g.versionRecords.length := by
    rw [versionRecords, versionRecords, m.id_eq]
    exact m.extends_log.length_le _
  intro c hc
  rcases m.checkpoint_cases with same | ⟨b, phase, committed⟩
  · exact Nat.le_trans (k c (same ▸ hc)) longer
  · cases committed.symm.trans hc
    exact Nat.le_trans (h (by rw [phase]; rfl)).reached longer

/-- What a replica reads is kept in order by every move. -/
theorem Flow.move {f g : Feed} (h : f.Flow) (kept : f.Kept) (hi : f.log.Indexed) (m : f.Move g)
    (ended : g.phase.isOver = false) : g.Flow := by
  cases m with
  | rest => exact h
  | retire _ hover => rw [hover] at ended; cases ended
  | breakOff _ _ _ _ _ _ _ killed => rw [killed] at ended; cases ended
  | lead p leads =>
    -- Between two phases without a batch nothing is pending before or after.
    refine h.withPhase ?_ leads.isEarly leads.isReading leads.ne_attaching
      fun w hp => absurd hp (leads.ne_working.2 w)
    rw [pending_eq_nil leads.ne_working.1]
    exact pending_eq_nil leads.ne_working.2
  | restore _ _ phase => exact h.restore kept phase
  | acquire _ phase => exact h.acquire phase
  | detach _ _ tp phase consumer => exact h.detach tp phase consumer
  | aim _ _ _ phase _ missing startsAt => exact h.aim phase missing startsAt
  | attach _ _ _ _ phase consumer => exact h.attach phase consumer
  | align _ phase _ subscribed complete => exact h.align phase subscribed complete
  | poll _ _ _ _ _ phase consumer polled => exact h.poll hi phase consumer polled
  | startOver _ b phase => exact h.stage phase .fresh b trivial
  | lookAtPut w value phase => exact h.settled phase _
  | lookAtDelete w phase => exact h.settled phase _
  | lookAtUpdate w u phase => exact h.stage phase _ _ trivial
  | passVersionControl w m b phase _ _ version =>
    refine h.finishedVersion hi phase version (fun push => ?_) rfl
    exact LagTracker.endOfPush_pastVersionRecord (LagTracker.endOfPush_marked push m) w.record
  | passRealTimeControl w m b phase _ _ realTime =>
    exact h.finishedRealTime hi phase realTime h.reached
  | merge w u value phase => exact h.settled phase _
  | openTopic w value phase stage =>
    have fits := h.fits w phase
    simp only [Fits, stage] at fits
    exact h.stage phase _ _ fits
  | publish w value phase stage =>
    refine (h.withLog (Log.Extends.append _ _ _)).stage phase _ w.backoff fun _ => ?_
    simp [versionRecords, Log.records_append_self]
  | storeVersion w value offset b phase stage version =>
    have h := h.withData (f.data.write w.record.key ⟨value, offset⟩)
    refine h.finishedVersion hi phase version (fun push => ?_) rfl
    exact LagTracker.endOfPush_pastVersionRecord push w.record
  | storeRealTime w value offset b phase stage realTime =>
    have fits := h.fits w phase
    simp only [Fits, stage] at fits
    have h := h.withData (f.data.write w.record.key ⟨value, offset⟩)
    exact h.finishedRealTime hi phase realTime (fits realTime)
  | commit b phase =>
    have h := h.withData { f.data with checkpoint := some f.checkpoint }
    exact h.withPhase (by simp [pending, phase]) (fun he => by cases he)
      (fun _ => by rw [phase]; rfl) (fun _ _ _ hp => by cases hp) fun _ hp => by cases hp
  | takeRole _ role phase => exact h.takeRole phase role
  | turn _ target phase leader hybrid push waits =>
    exact h.turn phase target leader hybrid push waits
  | sampleVersion processed p phase next =>
    have h := h.withTracker (t := f.tracker.withVersionEnd f.versionRecords.length) rfl rfl rfl
    rcases next with rfl | rfl
    · exact h.withPhase (by simp [pending, phase]) (fun he => by cases he) (fun hr => by cases hr)
        (fun _ _ _ hp => by cases hp) fun _ hp => by cases hp
    · exact h.withPhase (by simp [pending, phase]) (fun he => by cases he) (fun hr => by cases hr)
        (fun _ _ _ hp => by cases hp) fun _ hp => by cases hp
  | sampleRegion processed region rest phase =>
    have h := h.withTracker (t := f.tracker.withRealTimeEnd region
      (f.log.records (f.id.realTimeTopic region)).length) rfl rfl rfl
    exact h.withPhase (by simp [pending, phase]) (fun he => by cases he) (fun hr => by cases hr)
      (fun _ _ _ hp => by cases hp) fun _ hp => by cases hp

end Feed

end StoreFeed
