import StoreFeed.Proofs.Replica.Stamps

/-!
# What is published again without a gap

A leader goes through a real-time topic record by record: what it does not publish again is a
control record. After a restart, or a change of roles, it goes on where its own stamps end. So from
the first stamp of a region on, every record below the position of the leader is published or a
control record (`Log.Covers`). A position is learnt from a checkpoint, from a stamp, or from the
record that is done; only the first position of a region may be anywhere, and then the region has no
stamp yet.
-/

namespace StoreFeed

namespace Log

/-- A record of a real-time topic is not to be published: it was, or it is a control record. -/
def Done (log : Log) (id : ReplicaId) (region : Option RegionId) (offset : Nat) : Prop :=
  (∃ i, stampAt? (log.records id.versionTopic) i = some ⟨region, offset⟩) ∨
    ∃ r m, (log.records (id.realTimeTopic region))[offset]? = some r ∧ r.payload = .control m

/-- Every record of a real-time topic behind its first stamp and below a bound is done. -/
def Covers (log : Log) (id : ReplicaId) (region : Option RegionId) (bound : Nat) : Prop :=
  ∀ i p, stampAt? (log.records id.versionTopic) i = some p → p.region = region →
    ∀ offset, p.offset < offset → offset < bound → log.Done id region offset

variable {log log' : Log} {id : ReplicaId} {region : Option RegionId} {bound : Nat}

theorem Done.extends {offset : Nat} (h : log.Done id region offset) (hx : log.Extends log') :
    log'.Done id region offset := by
  rcases h with ⟨i, hs⟩ | ⟨r, m, hr, hm⟩
  · exact .inl ⟨i, (hx.stampAt? (lt_of_stampAt? hs)).trans hs⟩
  · exact .inr ⟨r, m, hx.getElem? hr, hm⟩

/-- New stamps at the bound or behind it change nothing. -/
theorem Covers.extends (h : log.Covers id region bound) (hx : log.Extends log')
    (new : ∀ i p, stampAt? (log'.records id.versionTopic) i = some p → p.region = region →
      stampAt? (log.records id.versionTopic) i = some p ∨ bound ≤ p.offset + 1) :
    log'.Covers id region bound := by
  intro i p hs hregion offset hlt hbound
  rcases new i p hs hregion with hs | hle
  · exact (h i p hs hregion offset hlt hbound).extends hx
  · omega

/-- A record at the bound or behind it is published. -/
theorem Covers.append (h : log.Covers id region bound) {r : ChangeRecord} {p : RealTimePosition}
    (origin : r.origin = some p) (hle : p.region = region → bound ≤ p.offset + 1) :
    (log.append id.versionTopic r).2.Covers id region bound := by
  refine h.extends (Extends.append _ _ _) fun i q hs hregion => ?_
  rcases stampAt?_append hs with ⟨_, hs⟩ | ⟨_, hs⟩
  · exact .inl hs
  · rw [origin] at hs
    cases hs
    exact .inr (hle hregion)

theorem Covers.succ (h : log.Covers id region bound) (done : log.Done id region bound) :
    log.Covers id region (bound + 1) := by
  intro i p hs hregion offset hlt hbound
  rcases Nat.lt_or_eq_of_le (Nat.le_of_lt_succ hbound) with hbound | rfl
  · exact h i p hs hregion offset hlt hbound
  · exact done

end Log

namespace Feed

/-- The log is covered up to and including every stamp. -/
def StampsCovered (f : Feed) : Prop :=
  ∀ i p, stampAt? f.versionRecords i = some p → f.log.Covers f.id p.region (p.offset + 1)

/-- The log is covered up to where the last checkpoint goes on. -/
def KeepsCovered (f : Feed) : Prop :=
  ∀ c q, f.data.checkpoint = some c → q ∈ c.realTime → f.log.Covers f.id q.region q.offset

/-- What a new checkpoint keeps is known. -/
theorem mem_checkpoint {f : Feed} {q : RealTimePosition} (h : q ∈ f.checkpoint.realTime) :
    f.tracker.realTimePosition? q.region = some q.offset := by
  obtain ⟨region, _, hq⟩ := List.mem_filterMap.mp h
  obtain ⟨offset, hk, rfl⟩ := Option.map_eq_some_iff.mp hq
  exact hk

/-- How a replica that is not over stands to the real-time topics. -/
structure Covered (f : Feed) : Prop where
  blank : f.phase.isUnrestored → ∀ region, f.tracker.realTimePosition? region = none
  known : ∀ region next, f.tracker.realTimePosition? region = some next →
    f.log.Covers f.id region next
  /-- A record of a real-time topic is stored once it was published. -/
  published : ∀ w value offset, f.phase = .working w → w.stage = .write value offset →
    ¬ f.readsVersion w → stampAt? f.versionRecords offset = some ⟨w.topic.region, w.record.offset⟩
  /-- The last checkpoint is not ahead. -/
  behind : f.phase.isUnrestored = false → ∀ c q, f.data.checkpoint = some c → q ∈ c.realTime →
    f.tracker.Reaches q.region q.offset

namespace Covered

variable {f g : Feed}

/-- A replica that starts knows no position. -/
theorem of_created (phase : f.phase = .created)
    (blank : ∀ region, f.tracker.realTimePosition? region = none) : f.Covered where
  blank _ := blank
  known region next h := by simp [blank] at h
  published w value offset hp := by simp [phase] at hp
  behind hp := by simp [phase, Phase.isUnrestored] at hp

/-- Growth of the log without new stamps changes nothing. -/
theorem withLog (h : f.Covered) {log : Log} (hx : f.log.Extends log)
    (old : ∀ i p, stampAt? (log.records f.id.versionTopic) i = some p →
      stampAt? f.versionRecords i = some p) : Covered { f with log } where
  blank := h.blank
  known region next hk := (h.known region next hk).extends hx fun i p hs _ => .inl (old i p hs)
  published w value offset hp hs hr := by
    have hstamp := h.published w value offset hp hs hr
    exact (hx.stampAt? (lt_of_stampAt? hstamp)).trans hstamp
  behind := h.behind

/-- A change that reaches no position, and comes to no write of a real-time record. -/
theorem same (h : f.Covered) (id : g.id = f.id) (log : g.log = f.log)
    (checkpoint : g.data.checkpoint = f.data.checkpoint)
    (positions : g.tracker.realTimePositions = f.tracker.realTimePositions)
    (unrestored : g.phase.isUnrestored = f.phase.isUnrestored)
    (version : ∀ w value offset, g.phase = .working w → w.stage = .write value offset →
      g.readsVersion w) : g.Covered where
  blank hp region := by
    rw [LagTracker.realTimePosition?, positions]
    exact h.blank (unrestored ▸ hp) region
  known region next hk := by
    rw [LagTracker.realTimePosition?, positions] at hk
    rw [id, log]
    exact h.known region next hk
  published w value offset hp hs hr := absurd (version w value offset hp hs) hr
  behind hp c q hc hq := by
    obtain ⟨next, hn, hle⟩ := h.behind (unrestored ▸ hp) c q (checkpoint ▸ hc) hq
    refine ⟨next, ?_, hle⟩
    rw [LagTracker.realTimePosition?, positions]
    exact hn

/-- A change to a phase that does not write. -/
theorem plain (h : f.Covered) (id : g.id = f.id) (log : g.log = f.log)
    (checkpoint : g.data.checkpoint = f.data.checkpoint)
    (positions : g.tracker.realTimePositions = f.tracker.realTimePositions)
    (unrestored : g.phase.isUnrestored = f.phase.isUnrestored)
    (waits : ∀ w value offset, g.phase = .working w → w.stage ≠ .write value offset) : g.Covered :=
  h.same id log checkpoint positions unrestored fun w value offset hp hs =>
    absurd hs (waits w value offset hp)

/-- A position is reached up to which the log is covered. -/
theorem reach (h : f.Covered) (id : g.id = f.id) (log : g.log = f.log)
    (checkpoint : g.data.checkpoint = f.data.checkpoint)
    (region : Option RegionId) (next : Nat)
    (positions : g.tracker.realTimePositions =
      (f.tracker.atRealTimePosition region next).realTimePositions)
    (covers : f.log.Covers f.id region next)
    (restored : f.phase.isUnrestored = false) (restored' : g.phase.isUnrestored = false)
    (waits : ∀ w value offset, g.phase = .working w → w.stage ≠ .write value offset) :
    g.Covered where
  blank hp := by rw [restored'] at hp; cases hp
  known region' next' hk := by
    rw [LagTracker.realTimePosition?, positions] at hk
    rw [id, log]
    rcases LagTracker.realTimePosition?_atRealTimePosition_cases hk with hk | ⟨rfl, rfl⟩
    · exact h.known region' next' hk
    · exact covers
  published w value offset hp hs := absurd hs (waits w value offset hp)
  behind _ c q hc hq := by
    obtain ⟨n, hn, hle⟩ :=
      (h.behind restored c q (checkpoint ▸ hc) hq).atRealTimePosition region next
    refine ⟨n, ?_, hle⟩
    rw [LagTracker.realTimePosition?, positions]
    exact hn

/-- What is next in a batch is not written yet. -/
theorem waits_nextPhase {b : Backoff} {batch : List (TopicPartition × ChangeRecord)}
    {processed : Bool} (w : Work) (value : Option ByteArray) (offset : Nat)
    (h : f.nextPhase b batch processed = .working w) : w.stage ≠ .write value offset :=
  (isPlain_nextPhase _ _ _ _ w h).2 value offset

/-- A record of the version topic is done: its stamp, if it bears one, is covered. -/
theorem finishedVersion (h : f.Covered) (stamps : f.StampsCovered) (flow : f.Flow)
    (hi : f.log.Indexed) {w : Work} (hp : f.phase = .working w) (hv : f.readsVersion w)
    {t : LagTracker} (positions : t.realTimePositions = f.tracker.realTimePositions)
    {data : ReplicaData} (checkpoint : data.checkpoint = f.data.checkpoint) (b : Backoff) :
    Covered (Feed.finished { f with data } (t.pastVersionRecord w.record) b w) := by
  obtain ⟨_, _, hrecord, _⟩ := flow.version hi hp hv
  have restored : f.phase.isUnrestored = false := by rw [hp]; rfl
  cases ho : w.record.origin with
  | none =>
    refine h.plain rfl rfl checkpoint ?_ ?_ waits_nextPhase
    · simp only [Feed.finished, LagTracker.pastVersionRecord, LagTracker.stamped, ho]
      exact positions
    · rw [restored]
      exact isUnrestored_nextPhase _ _ _ _
  | some p =>
    refine h.reach rfl rfl checkpoint p.region (p.offset + 1) ?_ ?_ restored
      (isUnrestored_nextPhase _ _ _ _) waits_nextPhase
    · simp only [Feed.finished, LagTracker.pastVersionRecord, LagTracker.stamped, ho]
      simp only [LagTracker.atVersionPosition, LagTracker.atRealTimePosition, positions,
        LagTracker.realTimePosition?]
    · refine stamps f.tracker.versionPosition p ?_
      rw [stampAt?, hrecord]
      exact ho

/-- A record of a real-time topic is done. -/
theorem finishedRealTime (h : f.Covered) (flow : f.Flow) (hi : f.log.Indexed) {w : Work}
    (hp : f.phase = .working w) (hv : ¬ f.readsVersion w)
    (done : f.log.Done f.id w.topic.region w.record.offset) {t : LagTracker}
    (positions : t.realTimePositions =
      (f.tracker.pastRealTimeRecord w.topic w.record).realTimePositions)
    (data : ReplicaData) (checkpoint : data.checkpoint = f.data.checkpoint) (b : Backoff) :
    Covered (Feed.finished { f with data } t b w) := by
  have hposition := (flow.realTime hi hp hv).2.2.2.2.1
  refine h.reach rfl rfl checkpoint w.topic.region (w.record.offset + 1)
    positions ((h.known _ _ hposition).succ done) (by rw [hp]; rfl) (isUnrestored_nextPhase _ _ _ _)
    waits_nextPhase

/-- The value of a record is known. -/
theorem settle (h : f.Covered) {w : Work} (hp : f.phase = .working w) (value : Option ByteArray) :
    Covered { f with phase := f.settled w value } := by
  by_cases hv : f.readsVersion w
  · rw [settled_of_readsVersion hv]
    refine h.same rfl rfl rfl rfl (by rw [hp]; rfl) fun w' value' offset hp' _ => ?_
    cases hp'
    exact hv
  · rw [settled_of_not_readsVersion hv]
    refine h.plain rfl rfl rfl rfl (by rw [hp]; rfl) fun w' value' offset hp' => ?_
    cases hp'
    exact Stage.noConfusion

/-- A real-time topic is subscribed where its position is, or anywhere if it has no stamp. -/
theorem covers_attaching (h : f.Covered) (flow : f.Flow) {watched : RealTimePosition → Prop}
    (all : ∀ p, watched p) (tracks : f.Tracks watched) {first : Bool} {tp : TopicPartition}
    {offset : Nat} (hp : f.phase = .attaching first tp offset) (hv : tp ≠ f.id.versionTopic) :
    f.log.Covers f.id tp.region offset := by
  obtain ⟨startsAt, desired, _⟩ := flow.attaching first tp offset hp
  rw [StartsAt, if_neg hv] at startsAt
  cases hk : f.tracker.realTimePosition? tp.region with
  | some next =>
    rw [startsAt next hk]
    exact h.known tp.region next hk
  | none =>
    have hc : f.consumesRealTime := by
      unfold Feed.desired at desired
      split at desired
      · rename_i hrt
        exact hrt.2
      · rw [SortedSet.contains_ofMembers, List.mem_singleton] at desired
        exact absurd desired hv
    intro i p hs hregion
    rcases tracks.turned hc i p hs (all p) with ⟨next, hn, _⟩ | ⟨w, _, hw, _⟩
    · rw [hregion, hk] at hn
      cases hn
    · rw [hp] at hw
      cases hw

/-- A record is published. -/
theorem publish (h : f.Covered) (flow : f.Flow) (hi : f.log.Indexed) {w : Work}
    {value : Option ByteArray} (hp : f.phase = .working w) (hs : w.stage = .publish value) :
    Covered { f with
      log := (f.log.append f.id.versionTopic (Act.republished w.topic w.record value)).2
      phase := .working { w with stage := .write value f.versionRecords.length } } := by
  have hv := flow.not_readsVersion hp hs
  have hposition := (flow.realTime hi hp hv).2.2.2.2.1
  exact {
    blank := fun hp => by cases hp
    known := fun region next hk => by
      refine (h.known region next hk).append rfl fun hregion => ?_
      have hk := hposition.symm.trans (hregion ▸ hk)
      cases hk
      exact Nat.le_succ _
    published := fun w' value' offset hp' hs' _ => by
      cases hp'
      cases hs'
      show stampAt? (Log.records _ f.id.versionTopic) _ = _
      rw [stampAt?, Log.records_append_self]
      simp [versionRecords, Act.republished]
    behind := fun _ => h.behind (by rw [hp]; rfl) }

/-- Before the checkpoint is restored no position is known, so all that are known come from it. -/
theorem restore (h : f.Covered) (kept : f.KeepsCovered) (unrestored : f.phase.isUnrestored)
    {p : Phase} (restored : p.isUnrestored = false) (idle : ∀ w, p ≠ .working w) :
    Covered { f with phase := p, tracker := f.tracker.resumed f.data.checkpoint } where
  blank hp := by
    rw [show p.isUnrestored = true from hp] at restored
    cases restored
  known region next hk := by
    cases hc : f.data.checkpoint with
    | none =>
      simp only [hc] at hk
      exact h.known region next hk
    | some c =>
      simp only [hc] at hk
      exact kept c _ hc (LagTracker.mem_of_restored (h.blank unrestored) hk)
  published w _ _ hp := absurd hp (idle w)
  behind _ c q hc hq := by
    have hc : f.data.checkpoint = some c := hc
    simp only [hc]
    exact f.tracker.reaches_restored hq

/-- A checkpoint keeps what is covered. -/
theorem commit (h : f.Covered) {p : Phase} (restored : p.isUnrestored = false)
    (idle : ∀ w, p ≠ .working w) :
    Covered { f with data := { f.data with checkpoint := some f.checkpoint }, phase := p } where
  blank hp := by
    rw [show p.isUnrestored = true from hp] at restored
    cases restored
  known := h.known
  published w _ _ hp := absurd hp (idle w)
  behind _ c q hc hq := by
    cases hc
    exact ⟨q.offset, mem_checkpoint hq, Nat.le_refl _⟩

/-- Every move of a replica leaves the real-time topics covered up to its positions. -/
theorem move (h : f.Covered) (stamps : f.StampsCovered) (kept : f.KeepsCovered)
    (flow : f.Flow) {watched : RealTimePosition → Prop} (all : ∀ p, watched p)
    (tracks : f.Tracks watched) (hi : f.log.Indexed) (m : f.Move g)
    (ended : g.phase.isOver = false) : g.Covered := by
  cases m with
  | rest => exact h
  | retire _ hover => rw [hover] at ended; cases ended
  | breakOff _ _ _ _ _ _ _ killed => rw [killed] at ended; cases ended
  | lead p leads =>
    exact h.plain rfl rfl rfl rfl leads.isUnrestored fun w _ _ hp =>
      absurd hp (leads.ne_working.2 w)
  | restore since next phase =>
    exact h.restore kept (by rw [phase]; rfl) rfl fun _ => Phase.noConfusion
  | acquire since phase =>
    exact h.plain rfl rfl rfl rfl (by rw [phase]; rfl) fun _ _ _ hp => by cases hp
  | detach first c tp phase consumer =>
    exact h.plain rfl rfl rfl rfl rfl fun _ _ _ hp => by simp [phase] at hp
  | aim first tp offset phase =>
    exact h.plain rfl rfl rfl rfl (by rw [phase]; rfl) fun _ _ _ hp => by cases hp
  | attach first c tp offset phase consumer =>
    by_cases hv : tp = f.id.versionTopic
    · refine h.plain rfl rfl rfl ?_ (by rw [phase]; rfl) fun _ _ _ hp => by cases hp
      rw [if_pos hv]
    -- Attaching to a real-time topic may move the position forward, but only over what is covered.
    · refine h.reach rfl rfl rfl tp.region offset ?_ ?_ (by rw [phase]; rfl) rfl
        fun _ _ _ hp => by cases hp
      · rw [if_neg hv]
      · exact h.covers_attaching flow all tracks phase hv
  | align first phase =>
    exact h.plain rfl rfl rfl rfl (by rw [phase]; rfl) fun _ _ _ hp => by cases hp
  | poll c c' limit batch b phase consumer polled =>
    refine h.plain rfl rfl rfl rfl ?_ waits_nextPhase
    rw [phase]
    exact isUnrestored_nextPhase _ _ _ _
  | startOver w b phase =>
    refine h.plain rfl rfl rfl rfl (by rw [phase]; rfl) fun w' value offset hp => ?_
    cases hp
    exact Stage.noConfusion
  | lookAtPut w value phase => exact h.settle phase _
  | lookAtDelete w phase => exact h.settle phase _
  | lookAtUpdate w u phase stage =>
    refine h.plain rfl rfl rfl rfl (by rw [phase]; rfl) fun w' value offset hp => ?_
    cases hp
    exact Stage.noConfusion
  | passVersionControl w m b phase stage payload version =>
    exact h.finishedVersion stamps flow hi phase version (by cases m <;> rfl) rfl b
  | passRealTimeControl w m b phase stage payload realTime =>
    have hrecord := (flow.realTime hi phase realTime).2.2.2
    refine h.finishedRealTime flow hi phase realTime (.inr ⟨w.record, m, ?_, payload⟩)
      rfl f.data rfl b
    rw [← hrecord.1]
    exact hrecord.2.2
  | merge w u value phase => exact h.settle phase _
  | openTopic w value phase stage =>
    refine h.plain rfl rfl rfl rfl (by rw [phase]; rfl) fun w' value offset hp => ?_
    cases hp
    exact Stage.noConfusion
  | publish w value phase stage => exact h.publish flow hi phase stage
  | storeVersion w value offset b phase stage version =>
    exact h.finishedVersion stamps flow hi phase version rfl (f.data.checkpoint_write _ _) b
  | storeRealTime w value offset b phase stage realTime =>
    exact h.finishedRealTime (t := (f.tracker.pastRealTimeRecord w.topic w.record).atVersionPosition
      (offset + 1)) flow hi phase realTime
      (.inl ⟨offset, h.published w value offset phase stage realTime⟩) rfl _
      (f.data.checkpoint_write _ _) b
  | commit b phase => exact h.commit rfl fun _ => Phase.noConfusion
  | takeRole processed role phase =>
    exact h.plain rfl rfl rfl rfl (by rw [phase]; rfl) fun _ _ _ hp => by cases hp
  | turn processed target phase =>
    unfold aimedAt
    split
    · exact h.plain rfl rfl rfl rfl (by rw [phase]; rfl) fun _ _ _ hp => by cases hp
    · exact h.plain rfl rfl rfl rfl (by rw [phase]; rfl) fun _ _ _ hp => by cases hp
  | sampleVersion processed p phase next =>
    rcases next with rfl | rfl
    · exact h.plain rfl rfl rfl rfl (by rw [phase]; rfl) fun _ _ _ hp => by cases hp
    · exact h.plain rfl rfl rfl rfl (by rw [phase]; rfl) fun _ _ _ hp => by cases hp
  | sampleRegion processed region rest phase =>
    exact h.plain rfl rfl rfl rfl (by rw [phase]; rfl) fun _ _ _ hp => by cases hp

end Covered

variable {f g : Feed}

/-- What is in the hands of a replica is ahead of its last checkpoint, and what the checkpoint keeps
is covered after every move. -/
theorem KeepsCovered.move (h : f.KeepsCovered) (covered : f.phase.isOver = false → f.Covered)
    (flow : f.phase.isOver = false → f.Flow) (hi : f.log.Indexed) (m : f.Move g) :
    g.KeepsCovered := by
  intro c q hc hq
  rw [m.id_eq]
  have old : f.log.Covers f.id q.region q.offset := by
    rcases m.checkpoint_cases with same | ⟨b, phase, committed⟩
    · exact h c q (same.symm.trans hc) hq
    · cases committed.symm.trans hc
      exact (covered (by rw [phase]; rfl)).known _ _ (mem_checkpoint hq)
  rcases m.log_cases with hlog | ⟨w, value, phase, stage, hlog⟩
  · rw [hlog]
    exact old
  · have live : f.phase.isOver = false := by rw [phase]; rfl
    have hv := (flow live).not_readsVersion phase stage
    have hposition := ((flow live).realTime hi phase hv).2.2.2.2.1
    have hc : f.data.checkpoint = some c := by
      rcases m.checkpoint_cases with same | ⟨b, committing, _⟩
      · exact same.symm.trans hc
      · rw [phase] at committing
        cases committing
    rw [hlog]
    refine old.append rfl fun hregion => ?_
    obtain ⟨next, hn, hle⟩ := (covered live).behind (by rw [phase]; rfl) c q hc hq
    -- The record published now is not below the position of the checkpoint in its region.
    have hn := hposition.symm.trans (hregion ▸ hn)
    cases hn
    exact Nat.le_succ_of_le hle

/-- The log is covered up to and including every stamp after every move. -/
theorem StampsCovered.move (h : f.StampsCovered) (covered : f.phase.isOver = false → f.Covered)
    (flow : f.phase.isOver = false → f.Flow) {watched : RealTimePosition → Prop}
    (all : ∀ p, watched p) (tracks : f.phase.isOver = false → f.Tracks watched)
    (hi : f.log.Indexed) (m : f.Move g) : g.StampsCovered := by
  intro i p hs
  rw [versionRecords, m.id_eq] at hs
  rw [m.id_eq]
  rcases m.log_cases with hlog | ⟨w, value, phase, stage, hlog⟩
  · rw [hlog] at hs ⊢
    exact h i p hs
  · have live : f.phase.isOver = false := by rw [phase]; rfl
    have hv := (flow live).not_readsVersion phase stage
    have hposition := ((flow live).realTime hi phase hv).2.2.2.2.1
    rw [hlog] at hs ⊢
    rcases stampAt?_append hs with ⟨_, hold⟩ | ⟨hnew, hp⟩
    · refine (h i p hold).append rfl fun hregion => ?_
      have hlt := (tracks live).lt_of_publish (flow live) hi phase stage hold (all p) hregion.symm
      exact Nat.succ_le_succ (Nat.le_of_lt hlt)
    · cases hp
      refine Log.Covers.succ ?_ (.inl ⟨i, hs⟩)
      exact ((covered live).known _ _ hposition).append rfl fun _ => Nat.le_succ _

end Feed

end StoreFeed
