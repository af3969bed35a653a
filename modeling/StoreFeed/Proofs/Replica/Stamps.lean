import StoreFeed.Proofs.Replica.Flow

/-!
# What a replica knows of stamps

A record that a leader published again is stamped with where it was read. A replica that reads the
stamp, or publishes the record itself, moves its position of that real-time topic past it, and so
does one that goes on from its checkpoint. A leader turns to the real-time topics only after it came
to the end that it sampled, so it has passed every stamp that was there, and publishes none of those
records again. This holds for each stamp alone: `Feed.Tracks` is about watched stamps, which nobody
else publishes while the replica holds its version topic.
-/

namespace StoreFeed

/-- The stamp of a record. -/
def stampAt? (records : List ChangeRecord) (i : Nat) : Option RealTimePosition :=
  records[i]?.bind (·.origin)

theorem lt_of_stampAt? {records : List ChangeRecord} {i : Nat} {p : RealTimePosition}
    (h : stampAt? records i = some p) : i < records.length := by
  unfold stampAt? at h
  cases hr : records[i]? with
  | none => simp [hr] at h
  | some r => exact (List.getElem?_eq_some_iff.mp hr).1

/-- A stamp of a log with one more record is an old one or that of the record. -/
theorem stampAt?_append {log : Log} {tp : TopicPartition} {r : ChangeRecord} {i : Nat}
    {p : RealTimePosition} (h : stampAt? ((log.append tp r).2.records tp) i = some p) :
    (i < (log.records tp).length ∧ stampAt? (log.records tp) i = some p) ∨
      (i = (log.records tp).length ∧ r.origin = some p) := by
  rw [Log.records_append_self] at h
  unfold stampAt? at h ⊢
  rcases Nat.lt_trichotomy i (log.records tp).length with hi | hi | hi
  · rw [List.getElem?_append_left hi] at h
    exact .inl ⟨hi, h⟩
  · subst hi
    exact .inr ⟨rfl, by simpa using h⟩
  · rw [List.getElem?_eq_none (by simp; omega)] at h
    cases h

/-- The stamps below the end stay where they are. -/
theorem Log.Extends.stampAt? {log log' : Log} (h : log.Extends log') {tp : TopicPartition} {i : Nat}
    (hi : i < (log.records tp).length) :
    StoreFeed.stampAt? (log'.records tp) i = StoreFeed.stampAt? (log.records tp) i := by
  rw [StoreFeed.stampAt?, StoreFeed.stampAt?, h.getElem?_of_lt hi]

namespace LagTracker

/-- The position of a real-time topic is known and not below an offset. -/
def Reaches (t : LagTracker) (region : Option RegionId) (offset : Nat) : Prop :=
  ∃ next, t.realTimePosition? region = some next ∧ offset ≤ next

/-- The position of a real-time topic is behind a record of it. -/
def Passed (t : LagTracker) (p : RealTimePosition) : Prop := t.Reaches p.region (p.offset + 1)

variable {t : LagTracker} {region : Option RegionId} {offset : Nat}

/-- Positions only move forward. -/
theorem Reaches.atRealTimePosition (h : t.Reaches region offset) (region' : Option RegionId)
    (next : Nat) : (t.atRealTimePosition region' next).Reaches region offset := by
  obtain ⟨n, hn, hle⟩ := h
  by_cases hr : region = region'
  · subst hr
    refine ⟨_, t.realTimePosition?_atRealTimePosition_self region next, ?_⟩
    rw [hn, Option.getD_some]
    omega
  · exact ⟨n, (t.realTimePosition?_atRealTimePosition_of_ne hr next).trans hn, hle⟩

theorem reaches_atRealTimePosition (t : LagTracker) (region : Option RegionId) (offset : Nat) :
    (t.atRealTimePosition region offset).Reaches region offset := by
  refine ⟨_, t.realTimePosition?_atRealTimePosition_self region offset, ?_⟩
  omega

theorem Reaches.pastVersionRecord (h : t.Reaches region offset) (r : ChangeRecord) :
    (t.pastVersionRecord r).Reaches region offset := by
  unfold LagTracker.pastVersionRecord LagTracker.stamped
  cases r.origin with
  | none => exact h
  | some origin => exact h.atRealTimePosition _ _

theorem Reaches.marked (h : t.Reaches region offset) (m : ControlMessage) :
    (t.marked m).Reaches region offset := by
  cases m <;> exact h

/-- A stamp that was read is passed. -/
theorem passed_pastVersionRecord (t : LagTracker) {r : ChangeRecord} {p : RealTimePosition}
    (h : r.origin = some p) : (t.pastVersionRecord r).Passed p := by
  unfold LagTracker.pastVersionRecord LagTracker.stamped
  rw [h]
  exact t.reaches_atRealTimePosition p.region (p.offset + 1)

/-- What a checkpoint keeps, a tracker reaches that was restored from it. -/
theorem reaches_restored (t : LagTracker) {c : Checkpoint} {q : RealTimePosition}
    (h : q ∈ c.realTime) : (t.restored c).Reaches q.region q.offset := by
  have keeps : ∀ (positions : List RealTimePosition) (t : LagTracker), t.Reaches q.region q.offset →
      (positions.foldl (fun t q => t.atRealTimePosition q.region q.offset) t).Reaches
        q.region q.offset := by
    intro positions
    induction positions with
    | nil => exact fun _ ht => ht
    | cons q' rest ih => exact fun t ht => ih _ (ht.atRealTimePosition _ _)
  have reaches : ∀ (positions : List RealTimePosition) (t : LagTracker), q ∈ positions →
      (positions.foldl (fun t q => t.atRealTimePosition q.region q.offset) t).Reaches
        q.region q.offset := by
    intro positions
    induction positions with
    | nil => exact fun _ hq => by cases hq
    | cons q' rest ih =>
      intro t hq
      rcases List.mem_cons.mp hq with rfl | hq
      · exact keeps rest _ (t.reaches_atRealTimePosition _ _)
      · exact ih _ hq
  exact reaches _ _ h

/-- A position is known after another one was reached if it was known before or is that one. -/
theorem realTimePosition?_atRealTimePosition_cases {region' : Option RegionId} {next : Nat}
    (h : (t.atRealTimePosition region offset).realTimePosition? region' = some next) :
    t.realTimePosition? region' = some next ∨ region' = region ∧ next = offset := by
  by_cases hr : region' = region
  · subst hr
    rw [t.realTimePosition?_atRealTimePosition_self, Option.some.injEq] at h
    cases hk : t.realTimePosition? region' with
    | none =>
      rw [hk, Option.getD_none, Nat.zero_max] at h
      exact .inr ⟨rfl, h.symm⟩
    | some known =>
      rw [hk, Option.getD_some] at h
      rcases Nat.le_total known offset with hle | hle
      · rw [Nat.max_eq_right hle] at h
        exact .inr ⟨rfl, h.symm⟩
      · rw [Nat.max_eq_left hle] at h
        exact .inl (by rw [h])
  · exact .inl ((t.realTimePosition?_atRealTimePosition_of_ne hr offset).symm.trans h)

/-- A tracker that knew no position knows those of the checkpoint after it was restored. -/
theorem mem_of_restored {t : LagTracker} (blank : ∀ region, t.realTimePosition? region = none)
    {c : Checkpoint} {region : Option RegionId} {next : Nat}
    (h : (t.restored c).realTimePosition? region = some next) : ⟨region, next⟩ ∈ c.realTime := by
  have known : ∀ (positions : List RealTimePosition) (t : LagTracker),
      (positions.foldl (fun t q => t.atRealTimePosition q.region q.offset) t).realTimePosition?
        region = some next → t.realTimePosition? region = some next ∨
          ⟨region, next⟩ ∈ positions := by
    intro positions
    induction positions with
    | nil => exact fun _ h => .inl h
    | cons q rest ih =>
      intro t h
      rcases ih _ h with h | h
      · rcases realTimePosition?_atRealTimePosition_cases h with h | ⟨rfl, rfl⟩
        · exact .inl h
        · exact .inr List.mem_cons_self
      · exact .inr (List.mem_cons_of_mem _ h)
  rcases known _ _ h with h | h
  · have hnone : t.realTimePosition? region = some next := h
    rw [blank] at hnone
    cases hnone
  · exact h

end LagTracker

namespace Checkpoint

/-- The position of a real-time topic that is kept is behind a record of it. -/
def Passed (c : Checkpoint) (p : RealTimePosition) : Prop :=
  ∃ q ∈ c.realTime, q.region = p.region ∧ p.offset < q.offset

/-- What a checkpoint has passed, a tracker has passed that was restored from it. -/
theorem Passed.restored {c : Checkpoint} {p : RealTimePosition} (h : c.Passed p) (t : LagTracker) :
    (t.restored c).Passed p := by
  obtain ⟨q, hq, hregion, hlt⟩ := h
  obtain ⟨next, hn, hle⟩ := t.reaches_restored hq
  exact ⟨next, hregion ▸ hn, Nat.le_trans hlt hle⟩

end Checkpoint

namespace Feed

/-- What was passed is passed in a checkpoint, if it is of a region of the version. -/
theorem passed_checkpoint {f : Feed} {p : RealTimePosition} (h : f.tracker.Passed p)
    (hregion : p.region ∈ f.settings.realTimeRegions) : f.checkpoint.Passed p := by
  obtain ⟨next, hn, hlt⟩ := h
  refine ⟨⟨p.region, next⟩, ?_, rfl, hlt⟩
  exact List.mem_filterMap.mpr ⟨p.region, hregion, by rw [hn]; rfl⟩

/-- Whether a record was published at an index and is not stored yet. -/
def InHand (f : Feed) (i : Nat) (p : RealTimePosition) : Prop :=
  ∃ w value, f.phase = .working w ∧ w.stage = .write value i ∧ ¬ f.readsVersion w ∧
    p = ⟨w.topic.region, w.record.offset⟩

/-- How a replica that is not over stands to watched stamps. -/
structure Tracks (watched : RealTimePosition → Prop) (f : Feed) : Prop where
  /-- Those below the position were passed. -/
  seen : ∀ i p, stampAt? f.versionRecords i = some p → watched p → i < f.tracker.versionPosition →
    f.tracker.Passed p
  /-- None is at the target or behind it. -/
  aimed : ∀ target, f.catchUpTarget = some target → ∀ i p,
    stampAt? f.versionRecords i = some p → watched p → i < target
  /-- A leader that turned has passed all but the one it publishes. -/
  turned : f.consumesRealTime → ∀ i p, stampAt? f.versionRecords i = some p → watched p →
    f.tracker.Passed p ∨ f.InHand i p

/-- The last checkpoint has passed the watched stamps below it. -/
def KeepsTrack (watched : RealTimePosition → Prop) (f : Feed) : Prop :=
  ∀ c, f.data.checkpoint = some c → ∀ i p, stampAt? f.versionRecords i = some p → watched p →
    i < c.versionOffset → c.Passed p

/-- Watched stamps are of regions of the version. -/
def Regional (watched : RealTimePosition → Prop) (f : Feed) : Prop :=
  ∀ i p, stampAt? f.versionRecords i = some p → watched p → p.region ∈ f.settings.realTimeRegions

theorem InHand.isWriting {f : Feed} {i : Nat} {p : RealTimePosition} (h : f.InHand i p) :
    f.isWriting = true := by
  obtain ⟨w, value, hp, hs, _⟩ := h
  simp [Feed.isWriting, hp, hs]

namespace Tracks

variable {watched : RealTimePosition → Prop} {f : Feed}

/-- A replica that starts is at the beginning of its version topic. -/
theorem of_created (position : f.tracker.versionPosition = 0) (waits : f.consumesRealTime = false)
    (target : f.catchUpTarget = none) : f.Tracks watched where
  seen i p _ _ hi := by rw [position] at hi; cases hi
  aimed t ht := by simp [target] at ht
  turned hc := by simp [waits] at hc

/-- Growth of the log brings no watched stamps while the replica holds its version topic. -/
theorem withLog (h : f.Tracks watched) (flow : f.Flow) {log : Log} (hx : f.log.Extends log)
    (fence : f.consumesRealTime ∨ f.catchUpTarget.isSome → ∀ i p,
      stampAt? (log.records f.id.versionTopic) i = some p → watched p →
        i < f.versionRecords.length) : Tracks watched { f with log } where
  seen i p hs hw hi := by
    have hlt : i < f.versionRecords.length := Nat.lt_of_lt_of_le hi flow.reached
    exact h.seen i p ((hx.stampAt? hlt).symm.trans hs) hw hi
  aimed t ht i p hs hw := by
    have hlt := fence (.inr (by rw [show f.catchUpTarget = some t from ht]; rfl)) i p hs hw
    exact h.aimed t ht i p ((hx.stampAt? hlt).symm.trans hs) hw
  turned hc i p hs hw := by
    have hlt := fence (.inl hc) i p hs hw
    exact h.turned hc i p ((hx.stampAt? hlt).symm.trans hs) hw

/-- A change that is no end of a write keeps the position, and passes no less. -/
theorem change (h : f.Tracks watched) {t : LagTracker} {p : Phase} {consumer : Option Consumer}
    {subscriptions : SortedSet TopicPartition} {data : ReplicaData}
    (settled : f.consumesRealTime → f.isWriting = false)
    (position : t.versionPosition = f.tracker.versionPosition)
    (passes : ∀ p, f.tracker.Passed p → t.Passed p) :
    Tracks watched { f with tracker := t, phase := p, consumer, subscriptions, data } where
  seen i p hs hw hi := by
    rw [show LagTracker.versionPosition t = _ from position] at hi
    exact passes p (h.seen i p hs hw hi)
  aimed := h.aimed
  turned hc i p hs hw := by
    rcases h.turned hc i p hs hw with hpassed | inHand
    · exact .inl (passes p hpassed)
    · have := inHand.isWriting
      rw [settled hc] at this
      cases this

/-- A record of the version topic was read: its stamp is passed. -/
theorem readVersion (h : f.Tracks watched) (flow : f.Flow) (hi : f.log.Indexed) {w : Work}
    (hp : f.phase = .working w) (hv : f.readsVersion w) {t : LagTracker} {p : Phase}
    {data : ReplicaData} (passes : ∀ p, f.tracker.Passed p → t.Passed p) :
    Tracks watched { f with tracker := t.pastVersionRecord w.record, phase := p, data } := by
  obtain ⟨_, waits, hrecord, hoffset⟩ := flow.version hi hp hv
  exact {
    seen := fun i q hs hw hlt => by
      have hlt : i < w.record.offset + 1 := hlt
      rcases Nat.lt_or_eq_of_le (Nat.le_of_lt_succ hlt) with hlt | heq
      · exact (passes q (h.seen i q hs hw (hoffset ▸ hlt))).pastVersionRecord _
      · refine t.passed_pastVersionRecord ?_
        have hs : f.versionRecords[i]?.bind (·.origin) = some q := hs
        rw [heq, hoffset, hrecord] at hs
        exact hs
    aimed := h.aimed
    turned := fun hc => by
      rw [show f.consumesRealTime = true from hc] at waits
      cases waits }

/-- A record that was published is stored: all watched stamps are passed. -/
theorem storeRealTime (h : f.Tracks watched) (flow : f.Flow) (hi : f.log.Indexed) {w : Work}
    (hp : f.phase = .working w) (hv : ¬ f.readsVersion w) {offset : Nat} {p : Phase}
    {data : ReplicaData} : Tracks watched { f with
      tracker := (f.tracker.pastRealTimeRecord w.topic w.record).atVersionPosition (offset + 1)
      phase := p
      data } := by
  have hc := (flow.realTime hi hp hv).2.1
  have passed : ∀ i q, stampAt? f.versionRecords i = some q → watched q →
      (f.tracker.pastRealTimeRecord w.topic w.record).Passed q := by
    intro i q hstamp hw
    rcases h.turned hc i q hstamp hw with hpassed | ⟨w', _, hp', _, _, rfl⟩
    · exact hpassed.atRealTimePosition _ _
    · rw [hp] at hp'
      cases hp'
      exact f.tracker.reaches_atRealTimePosition w.topic.region (w.record.offset + 1)
  exact {
    seen := fun i q hstamp hw _ => passed i q hstamp hw
    aimed := h.aimed
    turned := fun _ i q hstamp hw => .inl (passed i q hstamp hw) }

/-- A record that is published is in hand. -/
theorem publish (h : f.Tracks watched) (flow : f.Flow) (hi : f.log.Indexed) {w : Work}
    {value : Option ByteArray} (hp : f.phase = .working w) (hs : w.stage = .publish value) :
    Tracks watched { f with
      log := (f.log.append f.id.versionTopic (Act.republished w.topic w.record value)).2
      phase := .working { w with stage := .write value f.versionRecords.length } } := by
  have hv := flow.not_readsVersion hp hs
  have hc := (flow.realTime hi hp hv).2.1
  exact {
    seen := fun i q hstamp hw hlt => by
      rcases stampAt?_append hstamp with ⟨_, hold⟩ | ⟨rfl, _⟩
      · exact h.seen i q hold hw hlt
      · exact absurd hlt (Nat.not_lt.mpr flow.reached)
    aimed := fun t ht => by
      have hnone := flow.turned hc
      rw [show f.catchUpTarget = some t from ht] at hnone
      cases hnone
    turned := fun _ i q hstamp hw => by
      rcases stampAt?_append hstamp with ⟨_, hold⟩ | ⟨rfl, horigin⟩
      · rcases h.turned hc i q hold hw with hpassed | inHand
        · exact .inl hpassed
        · have := inHand.isWriting
          simp [isWriting, hp, hs] at this
      · cases horigin
        exact .inr ⟨_, value, rfl, rfl, hv, rfl⟩ }

/-- What is below the position of a checkpoint, the checkpoint has passed. -/
theorem restore (h : f.Tracks watched) (kept : f.KeepsTrack watched) (flow : f.Flow)
    (early : f.phase.isEarly) (p : Phase) :
    Tracks watched { f with phase := p, tracker := f.tracker.resumed f.data.checkpoint } := by
  obtain ⟨_, waits, target⟩ := flow.early early
  exact {
    seen := fun i p hs hw hlt => by
      cases hc : f.data.checkpoint with
      | none =>
        simp only [hc] at hlt ⊢
        exact h.seen i p hs hw hlt
      | some c =>
        simp only [hc, LagTracker.resumed, LagTracker.versionPosition_restored] at hlt ⊢
        exact (kept c hc i p hs hw hlt).restored _
    aimed := fun t ht => by
      rw [show f.catchUpTarget = some t from ht] at target
      cases target
    turned := fun hc => by
      rw [show f.consumesRealTime = true from hc] at waits
      cases waits }

/-- Every watched stamp is in front of the target, so the position that comes to it passed them
all. -/
theorem aimedAt (h : f.Tracks watched) {target : Nat} (waits : f.consumesRealTime = false)
    (sampled : f.catchUpTarget = some target ∨
      f.catchUpTarget = none ∧ target = f.versionRecords.length) :
    (f.aimedAt target).Tracks watched := by
  have htarget : ∀ i p, stampAt? f.versionRecords i = some p → watched p → i < target := by
    intro i p hs hw
    rcases sampled with htarget | ⟨_, htarget⟩
    · exact h.aimed target htarget i p hs hw
    · rw [htarget]
      exact lt_of_stampAt? hs
  unfold Feed.aimedAt
  split
  · rename_i hle
    exact {
      seen := h.seen
      aimed := fun t ht => by cases ht
      turned := fun _ i p hs hw =>
        .inl (h.seen i p hs hw (Nat.lt_of_lt_of_le (htarget i p hs hw) hle)) }
  · exact {
      seen := h.seen
      aimed := fun t ht => by
        cases ht
        exact htarget
      turned := fun hc => by
        rw [show f.consumesRealTime = true from hc] at waits
        cases waits }

/-- Every move keeps track of watched stamps. -/
theorem move {g : Feed} (h : f.Tracks watched) (kept : f.KeepsTrack watched) (flow : f.Flow)
    (hi : f.log.Indexed) (m : f.Move g) (ended : g.phase.isOver = false) : g.Tracks watched := by
  -- Few moves take a position further; all others keep what was passed.
  have same : ∀ p, f.tracker.Passed p → f.tracker.Passed p := fun _ hp => hp
  cases m with
  | rest => exact h
  | retire _ hover => rw [hover] at ended; cases ended
  | breakOff _ _ _ _ _ _ _ killed => rw [killed] at ended; cases ended
  | lead p leads =>
    exact h.change (fun _ => isWriting_of_ne_working leads.ne_working.1) rfl same
  | restore since next phase => exact h.restore kept flow (by rw [phase]; rfl) _
  | acquire since phase => exact h.change (fun _ => by simp [isWriting, phase]) rfl same
  | detach first c tp phase => exact h.change (fun _ => by simp [isWriting, phase]) rfl same
  | aim first tp offset phase => exact h.change (fun _ => by simp [isWriting, phase]) rfl same
  | attach first c tp offset phase =>
    refine h.change (fun _ => by simp [isWriting, phase]) (by split <;> rfl) fun p hp => ?_
    split
    · exact hp
    · exact hp.atRealTimePosition _ _
  | align first phase => exact h.change (fun _ => by simp [isWriting, phase]) rfl same
  | poll c c' limit batch b phase =>
    exact h.change (fun _ => by simp [isWriting, phase]) rfl same
  | startOver w b phase unwritten =>
    exact h.change (flow.isWriting_of_unwritten phase unwritten) rfl same
  | lookAtPut w value phase stage =>
    exact h.change (fun _ => by simp [isWriting, phase, stage]) rfl same
  | lookAtDelete w phase stage =>
    exact h.change (fun _ => by simp [isWriting, phase, stage]) rfl same
  | lookAtUpdate w u phase stage =>
    exact h.change (fun _ => by simp [isWriting, phase, stage]) rfl same
  | passVersionControl w m b phase stage payload version =>
    exact h.readVersion flow hi phase version fun p hp => hp.marked m
  | passRealTimeControl w m b phase stage payload realTime =>
    exact h.change (fun _ => by simp [isWriting, phase, stage]) rfl
      fun p hp => hp.atRealTimePosition _ _
  | merge w u value phase stage =>
    exact h.change (fun _ => by simp [isWriting, phase, stage]) rfl same
  | openTopic w value phase stage =>
    exact h.change (fun _ => by simp [isWriting, phase, stage]) rfl same
  | publish w value phase stage => exact h.publish flow hi phase stage
  | storeVersion w value offset b phase stage version =>
    exact h.readVersion flow hi phase version same
  | storeRealTime w value offset b phase stage realTime =>
    exact h.storeRealTime flow hi phase realTime
  | commit b phase => exact h.change (fun _ => by simp [isWriting, phase]) rfl same
  | takeRole processed role phase =>
    exact {
      seen := h.seen
      aimed := fun t ht => by cases ht
      turned := fun hc => by cases hc }
  | turn processed target phase leader hybrid push waits sampled =>
    have idle : (f.aimedAt target).isWriting = false := by
      unfold Feed.aimedAt
      split <;> simp [isWriting, phase]
    exact (h.aimedAt waits sampled).change (fun _ => idle) rfl fun _ hp => hp
  | sampleVersion processed p phase next =>
    exact h.change (fun _ => by simp [isWriting, phase]) rfl same
  | sampleRegion processed region rest phase =>
    exact h.change (fun _ => by simp [isWriting, phase]) rfl same

/-- What is published next was not published before, nor anything behind it. -/
theorem lt_of_publish (h : f.Tracks watched) (flow : f.Flow) (hi : f.log.Indexed) {w : Work}
    {value : Option ByteArray} (hp : f.phase = .working w) (hs : w.stage = .publish value) {i : Nat}
    {p : RealTimePosition} (hstamp : stampAt? f.versionRecords i = some p) (hw : watched p)
    (hregion : p.region = w.topic.region) : p.offset < w.record.offset := by
  have hv := flow.not_readsVersion hp hs
  obtain ⟨_, hc, _, _, hposition, _⟩ := flow.realTime hi hp hv
  rcases h.turned hc i p hstamp hw with ⟨next, hn, hlt⟩ | inHand
  · rw [hregion, hposition] at hn
    cases hn
    exact hlt
  · have := inHand.isWriting
    simp [isWriting, hp, hs] at this

end Tracks

/-- A replica that commits has passed what is below its position. -/
theorem KeepsTrack.move {watched : RealTimePosition → Prop} {f g : Feed}
    (kept : f.KeepsTrack watched) (below : f.Kept) (flow : f.phase.isOver = false → f.Flow)
    (tracks : f.phase.isOver = false → f.Tracks watched) (regional : f.Regional watched)
    (m : f.Move g) : g.KeepsTrack watched := by
  intro c hc i p hs hw hi
  have old : i < f.versionRecords.length → stampAt? f.versionRecords i = some p := by
    intro hlt
    rw [versionRecords, m.id_eq] at hs
    exact (m.extends_log.stampAt? hlt).symm.trans hs
  rcases m.checkpoint_cases with same | ⟨b, phase, committed⟩
  · have hc := same.symm.trans hc
    exact kept c hc i p (old (Nat.lt_of_lt_of_le hi (below c hc))) hw hi
  · cases committed.symm.trans hc
    have live : f.phase.isOver = false := by rw [phase]; rfl
    have hs := old (Nat.lt_of_lt_of_le hi (flow live).reached)
    exact passed_checkpoint ((tracks live).seen i p hs hw hi) (regional i p hs hw)

end Feed

end StoreFeed
