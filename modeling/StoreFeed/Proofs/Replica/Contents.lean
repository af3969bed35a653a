import StoreFeed.Proofs.Replica.Flow
import StoreFeed.Proofs.Storage.Replay

/-!
# What a replica stores

A replica that was not restarted stores what replaying its version topic up to its position gives,
in whatever role it wrote it (`Feed.Stores`). For a leader this rests on the version topic: while
the leader waits for its target, and while it publishes, nobody else may append to it. Then its
target is the end of the topic, and what it publishes lands right at its position.
-/

namespace StoreFeed

namespace Feed

/-- How a replica that is not over, and was not restarted, stands to its version topic. -/
structure Faithful (f : Feed) : Prop where
  stored : replay f.settings.schema (f.versionRecords.take f.tracker.versionPosition) =
    .ok f.data.values
  fresh : f.phase.isUnrestored → f.data.checkpoint = none
  merging : ∀ w u, f.phase = .working w → w.stage = .merge u → w.record.payload = .update u
  /-- A record of the version topic is written as it would be replayed. -/
  replayed : ∀ w value offset, f.phase = .working w → w.stage = .write value offset →
    f.readsVersion w →
      offset = w.record.offset ∧ w.record.Makes f.settings.schema (f.get? w.record.key) value
  /-- A record of a real-time topic was published last, right at the position. -/
  published : ∀ w value offset, f.phase = .working w → w.stage = .write value offset →
    ¬ f.readsVersion w →
      offset = f.tracker.versionPosition ∧ f.versionRecords.length = offset + 1 ∧
        f.versionRecords[offset]? = some { Act.republished w.topic w.record value with offset }
  target : ∀ target, f.catchUpTarget = some target → target = f.versionRecords.length
  turned : f.consumesRealTime → f.isWriting = false →
    f.versionRecords.length = f.tracker.versionPosition

namespace Faithful

variable {f : Feed}

/-- A replica that starts for the first time stores nothing. -/
theorem of_created (phase : f.phase = .created) (values : f.data.values = SortedMap.empty)
    (checkpoint : f.data.checkpoint = none) (position : f.tracker.versionPosition = 0)
    (waits : f.consumesRealTime = false) (target : f.catchUpTarget = none) : f.Faithful where
  stored := by rw [position, values]; rfl
  fresh _ := checkpoint
  merging w u hp := by simp [phase] at hp
  replayed w value offset hp := by simp [phase] at hp
  published w value offset hp := by simp [phase] at hp
  target t ht := by simp [target] at ht
  turned hc := by simp [waits] at hc

/-- Growth of the log changes nothing where the replica does not hold its version topic. -/
theorem withLog (h : f.Faithful) (flow : f.Flow) (hi : f.log.Indexed) {log : Log}
    (hx : f.log.Extends log) (fence : f.consumesRealTime ∨ f.catchUpTarget.isSome →
      log.records f.id.versionTopic = f.versionRecords) : Faithful { f with log } where
  stored := by
    show replay f.settings.schema ((log.records f.id.versionTopic).take _) = _
    rw [hx.take flow.reached]
    exact h.stored
  fresh := h.fresh
  merging := h.merging
  replayed := h.replayed
  published w value offset hp hs hr := by
    have hc := (flow.realTime hi hp hr).2.1
    show _ ∧ (log.records f.id.versionTopic).length = _ ∧ (log.records f.id.versionTopic)[_]? = _
    rw [fence (.inl hc)]
    exact h.published w value offset hp hs hr
  target t ht := by
    show t = (log.records f.id.versionTopic).length
    rw [fence (.inr (by rw [show f.catchUpTarget = some t from ht]; rfl))]
    exact h.target t ht
  turned hc hw := by
    show (log.records f.id.versionTopic).length = _
    rw [fence (.inl hc)]
    exact h.turned hc hw

/-- What is subscribed and known of real-time topics does not matter. -/
theorem withReading (h : f.Faithful) {t : LagTracker} (consumer : Option Consumer)
    (subscriptions : SortedSet TopicPartition)
    (position : t.versionPosition = f.tracker.versionPosition) :
    Faithful { f with tracker := t, consumer, subscriptions } where
  stored := by rw [show LagTracker.versionPosition t = _ from position]; exact h.stored
  fresh := h.fresh
  merging := h.merging
  replayed := h.replayed
  published w value offset hp hs hr := by
    rw [show LagTracker.versionPosition t = _ from position]
    exact h.published w value offset hp hs hr
  target := h.target
  turned hc hw := (h.turned hc hw).trans position.symm

/-- A change of phase away from anything but a write that leads to no write or to one from the
version topic. -/
theorem withPhase (h : f.Faithful) {p : Phase}
    (settled : f.consumesRealTime → f.isWriting = false)
    (fresh : p.isUnrestored → f.phase.isUnrestored)
    (merging : ∀ w u, p = .working w → w.stage = .merge u → w.record.payload = .update u)
    (replayed : ∀ w value offset, p = .working w → w.stage = .write value offset →
      f.readsVersion w ∧ offset = w.record.offset ∧
        w.record.Makes f.settings.schema (f.get? w.record.key) value) :
    Faithful { f with phase := p } where
  stored := h.stored
  fresh hp := h.fresh (fresh hp)
  merging := merging
  replayed w value offset hp hs _ := (replayed w value offset hp hs).2
  published w value offset hp hs hr := absurd (replayed w value offset hp hs).1 hr
  target := h.target
  turned hc _ := h.turned hc (settled hc)

/-- A change of phase to one that neither merges nor writes. -/
theorem withPlainPhase (h : f.Faithful) {p : Phase}
    (settled : f.consumesRealTime → f.isWriting = false)
    (fresh : p.isUnrestored → f.phase.isUnrestored) (plain : p.IsPlain) :
    Faithful { f with phase := p } :=
  h.withPhase settled fresh (fun w u hp hs => absurd hs ((plain w hp).1 u))
    fun w value offset hp hs => absurd hs ((plain w hp).2 value offset)

/-- A change between phases in which no record is in hand. -/
theorem idle (h : f.Faithful) {t : LagTracker} {p : Phase} {consumer : Option Consumer}
    {subscriptions : SortedSet TopicPartition} (before : ∀ w, f.phase ≠ .working w)
    (after : ∀ w, p ≠ .working w) (fresh : p.isUnrestored → f.phase.isUnrestored)
    (position : t.versionPosition = f.tracker.versionPosition) :
    Faithful { f with tracker := t, consumer, subscriptions, phase := p } :=
  (h.withReading consumer subscriptions position).withPlainPhase
    (fun _ => isWriting_of_ne_working before) fresh fun w hp => absurd hp (after w)

/-- The record in hand is gone on with, up to a stage that neither merges nor writes. -/
theorem stage (h : f.Faithful) {w : Work} {s : Stage} {b : Backoff}
    (settled : f.consumesRealTime → f.isWriting = false) (merges : ∀ u, s ≠ .merge u)
    (writes : ∀ value offset, s ≠ .write value offset) :
    Faithful { f with phase := .working { w with stage := s, backoff := b } } := by
  refine h.withPlainPhase settled (fun hp => by cases hp) fun w' hp => ?_
  cases hp
  exact ⟨merges, writes⟩

/-- A record is done: the position is behind it, and what it makes is stored. -/
theorem finished (h : f.Faithful) {t : LagTracker} (data : ReplicaData) (b : Backoff) (w : Work)
    (stored : replay f.settings.schema (f.versionRecords.take t.versionPosition) = .ok data.values)
    (turned : f.consumesRealTime → f.versionRecords.length = t.versionPosition) :
    Faithful (Feed.finished { f with data } t b w) where
  stored := stored
  fresh hp := by simp [Feed.finished, isUnrestored_nextPhase] at hp
  merging w' u hp hs := absurd hs ((isPlain_nextPhase _ _ _ _ w' hp).1 u)
  replayed w' value offset hp hs := absurd hs ((isPlain_nextPhase _ _ _ _ w' hp).2 value offset)
  published w' value offset hp hs := absurd hs ((isPlain_nextPhase _ _ _ _ w' hp).2 value offset)
  target := h.target
  turned hc _ := turned hc

/-- Everything stored is older than the position. -/
theorem stored_lt (h : f.Faithful) (hi : f.log.Indexed) {key : ByteArray} {existing : Stored}
    (hs : f.data.values.find? key = some existing) :
    existing.offset < f.tracker.versionPosition := by
  have numbered := Numbered.take (hi f.id.versionTopic) f.tracker.versionPosition
  exact Nat.lt_of_lt_of_le (offset_lt_of_replay h.stored numbered hs) (List.length_take_le _ _)

/-- A write at the position stores what the record at the position makes. -/
theorem stored_write (h : f.Faithful) (hi : f.log.Indexed) {r : ChangeRecord}
    {value : Option ByteArray} (hr : f.versionRecords[f.tracker.versionPosition]? = some r)
    (makes : r.Makes f.settings.schema (f.get? r.key) value) :
    replay f.settings.schema (f.versionRecords.take (f.tracker.versionPosition + 1)) =
      .ok (f.data.write r.key ⟨value, f.tracker.versionPosition⟩).values := by
  rw [replay_take_succ hr, h.stored,
    ReplicaData.values_write fun existing hs => Nat.le_of_lt (h.stored_lt hi hs)]
  have hoffset : r.offset = f.tracker.versionPosition := hi _ _ _ hr
  have happly : r.applyTo f.settings.schema f.data.values =
      .ok (f.data.values.insert r.key ⟨value, r.offset⟩) := ChangeRecord.Makes.applyTo makes
  rw [hoffset] at happly
  exact happly

/-- The write that is about to be made stores what the record at the position makes. -/
theorem stored_of_write (h : f.Faithful) (flow : f.Flow) (hi : f.log.Indexed) {w : Work}
    {value : Option ByteArray} {offset : Nat} (hp : f.phase = .working w)
    (hs : w.stage = .write value offset) :
    f.tracker.versionPosition < f.versionRecords.length ∧
      replay f.settings.schema (f.versionRecords.take (f.tracker.versionPosition + 1)) =
        .ok (f.data.write w.record.key ⟨value, offset⟩).values := by
  by_cases hv : f.readsVersion w
  · obtain ⟨_, _, hrecord, hoffset⟩ := flow.version hi hp hv
    obtain ⟨rfl, makes⟩ := h.replayed w value offset hp hs hv
    rw [hoffset]
    exact ⟨(List.getElem?_eq_some_iff.mp hrecord).1, h.stored_write hi hrecord makes⟩
  · obtain ⟨rfl, _, hrecord⟩ := h.published w value offset hp hs hv
    refine ⟨(List.getElem?_eq_some_iff.mp hrecord).1, h.stored_write
      (r := { Act.republished w.topic w.record value with offset := f.tracker.versionPosition })
      hi hrecord ?_⟩
    cases value with
    | none => exact .delete rfl
    | some value => exact .put value rfl

/-- The value of a record is known: it is written next, or published first. -/
theorem settle (h : f.Faithful) {w : Work} (settled : f.consumesRealTime → f.isWriting = false)
    {value : Option ByteArray}
    (makes : w.record.Makes f.settings.schema (f.get? w.record.key) value) :
    Faithful { f with phase := f.settled w value } := by
  by_cases hv : f.readsVersion w
  · rw [settled_of_readsVersion hv]
    refine h.withPhase settled (fun hp => by cases hp) (fun w' u hp hs => ?_)
      fun w' value' offset hp hs => ?_
    · cases hp
      cases hs
    · cases hp
      cases hs
      exact ⟨hv, rfl, makes⟩
  · rw [settled_of_not_readsVersion hv]
    exact h.stage settled (fun _ => Stage.noConfusion) fun _ _ => Stage.noConfusion

/-- A value is published right at the position. -/
theorem publish (h : f.Faithful) (flow : f.Flow) (hi : f.log.Indexed) {w : Work}
    {value : Option ByteArray} (hp : f.phase = .working w) (hs : w.stage = .publish value) :
    Faithful { f with
      log := (f.log.append f.id.versionTopic (Act.republished w.topic w.record value)).2
      phase := .working { w with stage := .write value f.versionRecords.length } } := by
  have hv := flow.not_readsVersion hp hs
  have hc := (flow.realTime hi hp hv).2.1
  have hend := h.turned hc (by simp [isWriting, hp, hs])
  have hrecords := f.log.records_append_self f.id.versionTopic
    (Act.republished w.topic w.record value)
  exact {
    stored := by
      show replay f.settings.schema ((Log.records _ f.id.versionTopic).take _) = _
      rw [(Log.Extends.append f.log f.id.versionTopic _).take flow.reached]
      exact h.stored
    fresh := fun hp => by cases hp
    merging := fun w' u hp hs => by
      cases hp
      cases hs
    replayed := fun w' value' offset hp hs hr => by
      cases hp
      exact absurd hr hv
    published := fun w' value' offset hp hs _ => by
      cases hp
      cases hs
      refine ⟨hend, ?_, ?_⟩
      · show (Log.records _ f.id.versionTopic).length = _
        rw [hrecords, List.length_append]
        rfl
      · show (Log.records _ f.id.versionTopic)[_]? = _
        rw [hrecords]
        simp [versionRecords]
    target := fun t ht => by
      have hnone := flow.turned hc
      rw [show f.catchUpTarget = some t from ht] at hnone
      cases hnone
    turned := fun _ hw => by cases hw }

/-- An update is merged next. -/
theorem lookAtUpdate (h : f.Faithful) {w : Work} {u : PartialUpdate}
    (settled : f.consumesRealTime → f.isWriting = false) (payload : w.record.payload = .update u) :
    Faithful { f with phase := .working { w with stage := .merge u } } := by
  refine h.withPhase settled (fun hp => by cases hp) (fun w' u' hp hs => ?_)
    fun w' value offset hp hs => ?_
  · cases hp
    cases hs
    exact payload
  · cases hp
    cases hs

/-- A control record moves the position by one and leaves the values of the replay. -/
theorem passVersionControl (h : f.Faithful) (flow : f.Flow) (hi : f.log.Indexed) {w : Work}
    {m : ControlMessage} (hp : f.phase = .working w) (payload : w.record.payload = .control m)
    (version : f.readsVersion w) (b : Backoff) :
    (f.finished ((f.tracker.marked m).pastVersionRecord w.record) b w).Faithful := by
  obtain ⟨_, waits, hrecord, hoffset⟩ := flow.version hi hp version
  refine h.finished f.data b w ?_ fun hc => by simp [waits] at hc
  show replay _ (f.versionRecords.take (w.record.offset + 1)) = _
  rw [hoffset, replay_take_succ hrecord, h.stored]
  exact ChangeRecord.applyTo_of_control payload

theorem storeVersion (h : f.Faithful) (flow : f.Flow) (hi : f.log.Indexed) {w : Work}
    {value : Option ByteArray} {offset : Nat} (hp : f.phase = .working w)
    (hs : w.stage = .write value offset) (version : f.readsVersion w) (b : Backoff) :
    (Feed.finished { f with data := f.data.write w.record.key ⟨value, offset⟩ }
      (f.tracker.pastVersionRecord w.record) b w).Faithful := by
  obtain ⟨_, waits, _, hoffset⟩ := flow.version hi hp version
  obtain ⟨_, hwritten⟩ := h.stored_of_write flow hi hp hs
  refine h.finished _ b w ?_ fun hc => by simp [waits] at hc
  show replay _ (f.versionRecords.take (w.record.offset + 1)) = _
  rw [hoffset]
  exact hwritten

/-- What was published stands at the end of the version topic, so storing it is storing the record
of that offset. -/
theorem storeRealTime (h : f.Faithful) (flow : f.Flow) (hi : f.log.Indexed) {w : Work}
    {value : Option ByteArray} {offset : Nat} (hp : f.phase = .working w)
    (hs : w.stage = .write value offset) (realTime : ¬ f.readsVersion w) (b : Backoff) :
    (Feed.finished { f with data := f.data.write w.record.key ⟨value, offset⟩ }
      ((f.tracker.pastRealTimeRecord w.topic w.record).atVersionPosition (offset + 1))
      b w).Faithful := by
  obtain ⟨hposition, hend, _⟩ := h.published w value offset hp hs realTime
  obtain ⟨_, hwritten⟩ := h.stored_of_write flow hi hp hs
  refine h.finished _ b w ?_ fun _ => hend
  show replay _ (f.versionRecords.take (offset + 1)) = _
  rw [hposition] at hwritten ⊢
  exact hwritten

theorem takeRole (h : f.Faithful) {processed : Bool} (role : Role)
    (hp : f.phase = .safePoint processed) :
    Faithful { f with
      role
      tracker := { f.tracker with role }
      consumesRealTime := false
      catchUpTarget := none
      phase := .promoting processed } := by
  have h : Faithful { f with role, consumesRealTime := false, catchUpTarget := none } :=
    { h with
      target := fun t ht => by cases ht
      turned := fun hc => by cases hc }
  exact h.idle (by simp [hp]) (fun _ => Phase.noConfusion) (fun hp => by cases hp) rfl

/-- The target is the end of the version topic, whether it was sampled now or is still waited for. A
replica that is there reads the real-time topics from its position on. -/
theorem aimedAt (h : f.Faithful) (flow : f.Flow) {target : Nat}
    (sampled : f.catchUpTarget = some target ∨
      f.catchUpTarget = none ∧ target = f.versionRecords.length) : (f.aimedAt target).Faithful := by
  have htarget : target = f.versionRecords.length := by
    rcases sampled with htarget | ⟨_, htarget⟩
    · exact h.target target htarget
    · exact htarget
  unfold Feed.aimedAt
  split
  · rename_i hle
    exact { h with
      target := fun t ht => by cases ht
      turned := fun _ _ => Nat.le_antisymm (htarget ▸ hle) flow.reached }
  · exact { h with
      target := fun t ht => by
        cases ht
        exact htarget }

/-- Every move of a replica is faithful to the version topic. -/
theorem move {g : Feed} (h : f.Faithful) (flow : f.Flow) (hi : f.log.Indexed) (m : f.Move g)
    (ended : g.phase.isOver = false) : g.Faithful := by
  cases m with
  | rest => exact h
  | retire _ hover => rw [hover] at ended; cases ended
  | breakOff _ _ _ _ _ _ _ killed => rw [killed] at ended; cases ended
  | lead p leads =>
    exact h.idle leads.ne_working.1 leads.ne_working.2 (fun hp => leads.isUnrestored ▸ hp) rfl
  | restore since next phase =>
    simp only [h.fresh (by rw [phase]; rfl)]
    exact h.idle (by simp [phase]) (fun _ => Phase.noConfusion) (fun hp => by cases hp) rfl
  | acquire since phase =>
    exact h.idle (by simp [phase]) (fun _ => Phase.noConfusion) (fun hp => by cases hp) rfl
  | detach first c tp phase consumer => exact h.withReading _ _ rfl
  | aim first tp offset phase =>
    exact h.idle (by simp [phase]) (fun _ => Phase.noConfusion) (fun hp => by cases hp) rfl
  | attach first c tp offset phase =>
    exact h.idle (by simp [phase]) (fun _ => Phase.noConfusion) (fun hp => by cases hp)
      (by split <;> rfl)
  | align first phase =>
    exact h.idle (by simp [phase]) (fun _ => Phase.noConfusion) (fun hp => by cases hp) rfl
  | poll c c' limit batch b phase consumer polled =>
    refine (h.withReading (some c') f.subscriptions rfl).withPlainPhase
      (fun _ => isWriting_of_ne_working (by simp [phase])) (fun hp => ?_)
      (isPlain_nextPhase _ _ _ _)
    simp [isUnrestored_nextPhase] at hp
  | startOver w b phase unwritten =>
    exact h.stage (flow.isWriting_of_unwritten phase unwritten) (fun _ => Stage.noConfusion)
      fun _ _ => Stage.noConfusion
  | lookAtPut w value phase stage payload =>
    exact h.settle (fun _ => by simp [isWriting, phase, stage]) (.put value payload)
  | lookAtDelete w phase stage payload =>
    exact h.settle (fun _ => by simp [isWriting, phase, stage]) (.delete payload)
  | lookAtUpdate w u phase stage payload =>
    exact h.lookAtUpdate (fun _ => by simp [isWriting, phase, stage]) payload
  | passVersionControl w m b phase stage payload version =>
    exact h.passVersionControl flow hi phase payload version b
  | passRealTimeControl w m b phase stage payload realTime =>
    exact h.finished f.data b w h.stored fun hc => h.turned hc (by simp [isWriting, phase, stage])
  | merge w u value phase stage merged =>
    exact h.settle (fun _ => by simp [isWriting, phase, stage])
      (.update u value (h.merging w u phase stage) merged)
  | openTopic w value phase stage =>
    exact h.stage (fun _ => by simp [isWriting, phase, stage]) (fun _ => Stage.noConfusion)
      fun _ _ => Stage.noConfusion
  | publish w value phase stage => exact h.publish flow hi phase stage
  | storeVersion w value offset b phase stage version =>
    exact h.storeVersion flow hi phase stage version b
  | storeRealTime w value offset b phase stage realTime =>
    exact h.storeRealTime flow hi phase stage realTime b
  | commit b phase =>
    have h : Faithful { f with data := { f.data with checkpoint := some f.checkpoint } } :=
      { h with fresh := fun hp => by simp [phase, Phase.isUnrestored] at hp }
    exact h.idle (by simp [phase]) (fun _ => Phase.noConfusion) (fun hp => by cases hp) rfl
  | takeRole processed role phase => exact h.takeRole role phase
  | turn processed target phase leader hybrid push waits sampled =>
    -- Whether the target is reached or not, the phase is not touched by the look at it.
    have here : ∀ w, (f.aimedAt target).phase ≠ .working w := by
      unfold Feed.aimedAt
      split <;> simp [phase]
    exact (h.aimedAt flow sampled).idle here (fun _ => Phase.noConfusion)
      (fun hp => by cases hp) rfl
  | sampleVersion processed p phase next =>
    rcases next with rfl | rfl
    · exact h.idle (by simp [phase]) (fun _ => Phase.noConfusion) (fun hp => by cases hp) rfl
    · exact h.idle (by simp [phase]) (fun _ => Phase.noConfusion) (fun hp => by cases hp) rfl
  | sampleRegion processed region rest phase =>
    exact h.idle (by simp [phase]) (fun _ => Phase.noConfusion) (fun hp => by cases hp) rfl

end Faithful

/-- What a replica that was not restarted stores, over or not: its version topic, replayed up to its
position. A task that an overflow ended may have stored one record more. -/
structure Stores (f : Feed) : Prop where
  contents : ∃ n ≤ f.versionRecords.length,
    (n = f.tracker.versionPosition ∨ f.phase = .killed ∧ n = f.tracker.versionPosition + 1) ∧
      replay f.settings.schema (f.versionRecords.take n) = .ok f.data.values
  faithful : f.phase.isOver = false → f.Faithful

namespace Stores

variable {f : Feed}

/-- Contents of a replica whose task was not ended by an overflow. -/
theorem of_ne_killed (h : f.Stores) (alive : f.phase ≠ .killed) :
    f.tracker.versionPosition ≤ f.versionRecords.length ∧
      replay f.settings.schema (f.versionRecords.take f.tracker.versionPosition) =
        .ok f.data.values := by
  obtain ⟨n, hn, rfl | ⟨killed, _⟩, hreplay⟩ := h.contents
  · exact ⟨hn, hreplay⟩
  · exact absurd killed alive

/-- A replica that is not over stores what it faithfully should. -/
theorem of_faithful (h : f.Faithful) (flow : f.Flow) : f.Stores :=
  ⟨⟨_, flow.reached, .inl rfl, h.stored⟩, fun _ => h⟩

/-- Growth of the log changes nothing where the replica does not hold its version topic. -/
theorem withLog (h : f.Stores) (flow : f.phase.isOver = false → f.Flow) (hi : f.log.Indexed)
    {log : Log} (hx : f.log.Extends log)
    (fence : f.holds → log.records f.id.versionTopic = f.versionRecords) :
    Stores { f with log } where
  contents := by
    obtain ⟨n, hn, hpos, hreplay⟩ := h.contents
    refine ⟨n, Nat.le_trans hn (hx.length_le _), hpos, ?_⟩
    show replay _ ((log.records f.id.versionTopic).take n) = _
    rw [hx.take hn]
    exact hreplay
  faithful ended := by
    refine (h.faithful ended).withLog (flow ended) hi hx fun holds => fence ?_
    simp only [Feed.holds, ended, Bool.not_false, Bool.true_and, Bool.or_eq_true]
    exact holds

/-- What a move leaves where it ends the replica. -/
theorem of_over {g : Feed} (h : f.Stores) (flow : f.phase.isOver = false → f.Flow)
    (hi : f.log.Indexed) (alive : f.phase ≠ .killed) (m : f.Move g) (ended : g.phase.isOver) :
    g.Stores := by
  obtain ⟨hle, hreplay⟩ := h.of_ne_killed alive
  rcases m.of_over ended with rfl | books | ⟨w, value, offset, phase, stage, killed, books⟩
  · exact h
  · refine ⟨⟨g.tracker.versionPosition, ?_, .inl rfl, ?_⟩, fun live => ?_⟩
    · rw [versionRecords, books.id, books.log, books.versionPosition]
      exact hle
    · rw [versionRecords, books.id, books.log, books.versionPosition, books.settings, books.data]
      exact hreplay
    · rw [ended] at live
      cases live
  · have faithful := h.faithful (by rw [phase]; rfl)
    have flow := flow (by rw [phase]; rfl)
    obtain ⟨hlt, hwritten⟩ := faithful.stored_of_write flow hi phase stage
    refine ⟨⟨f.tracker.versionPosition + 1, ?_, .inr ⟨killed, by rw [books.versionPosition]⟩, ?_⟩,
      fun live => ?_⟩
    · rw [versionRecords, books.id, books.log]
      exact hlt
    · rw [versionRecords, books.id, books.log, books.settings, books.data]
      exact hwritten
    · rw [ended] at live
      cases live

/-- Every move of a replica keeps what it stores right. -/
theorem move {g : Feed} (h : f.Stores) (flow : f.phase.isOver = false → f.Flow) (kept : f.Kept)
    (hi : f.log.Indexed) (alive : f.phase ≠ .killed) (m : f.Move g) : g.Stores := by
  cases ended : g.phase.isOver with
  | true => exact h.of_over flow hi alive m ended
  | false =>
    have live := m.live ended
    exact of_faithful ((h.faithful live).move (flow live) hi m ended)
      ((flow live).move kept hi m ended)

end Stores

end Feed

end StoreFeed
