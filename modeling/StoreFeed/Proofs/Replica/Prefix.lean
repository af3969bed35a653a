import StoreFeed.Proofs.Replica.Progress

/-!
# What a replica took from its version topic

A replica takes in its version topic record by record: data is stored, control messages are marked
and stamps are passed (`Digested`). A checkpoint says the same of the records below it, and what
goes on from it is never behind it (`Checkpoint.Behind`).

Only a leader can come past records that it did not take in. It goes on behind what it publishes, so
it leaps over what others appended since it sampled the end of the version topic
(`Feed.Clears.not_leaps`).
-/

namespace StoreFeed

/-- A key holds what stems from an offset, or from a later one. -/
def ReplicaData.Reaches (d : ReplicaData) (key : ByteArray) (offset : Nat) : Prop :=
  ∃ stored, d.values.find? key = some stored ∧ offset ≤ stored.offset

namespace ReplicaData

variable {d : ReplicaData}

theorem reaches_write (d : ReplicaData) (key : ByteArray) (stored : Stored) :
    (d.write key stored).Reaches key stored.offset := by
  unfold Reaches
  rw [find?_write_self]
  split
  · split
    · rename_i existing _ later
      exact ⟨existing, rfl, Nat.le_of_lt later⟩
    · exact ⟨stored, rfl, Nat.le_refl _⟩
  · exact ⟨stored, rfl, Nat.le_refl _⟩

theorem Reaches.write {key : ByteArray} {offset : Nat} (h : d.Reaches key offset) (key' : ByteArray)
    (stored : Stored) : (d.write key' stored).Reaches key offset := by
  obtain ⟨existing, he, hle⟩ := h
  by_cases hkey : key = key'
  · subst hkey
    unfold Reaches
    rw [find?_write_self, he]
    dsimp only
    split
    · exact ⟨existing, rfl, hle⟩
    · rename_i newer
      exact ⟨stored, rfl, Nat.le_trans hle (Nat.not_lt.mp newer)⟩
  · exact ⟨existing, (d.find?_write_of_ne hkey stored).trans he, hle⟩

end ReplicaData

/-- The first records of a version topic were taken in: what they write is stored, or something
later, exactly their control messages were seen, and their stamps are passed. -/
structure Digested (records : List ChangeRecord) (n : Nat) (d : ReplicaData)
    (saw : ControlMessage → Prop) (passed : RealTimePosition → Prop) : Prop where
  stored : ∀ i r, i < n → records[i]? = some r → r.control? = none → d.Reaches r.key i
  saw_iff : ∀ m, m ≠ .startOfPush →
    (saw m ↔ ∃ i r, i < n ∧ records[i]? = some r ∧ r.control? = some m)
  passed : ∀ i p, i < n → stampAt? records i = some p → passed p

namespace Digested

variable {records records' : List ChangeRecord} {n : Nat} {d d' : ReplicaData}
  {saw saw' : ControlMessage → Prop} {passed passed' : RealTimePosition → Prop}

/-- Before the first record nothing was seen. -/
theorem zero (unseen : ∀ m, ¬ saw m) : Digested records 0 d saw passed where
  stored i r hi := by cases hi
  saw_iff m _ := by simp [unseen]
  passed i p hi := by cases hi

/-- Later values, and more stamps passed, change nothing. -/
theorem mono (h : Digested records n d saw passed)
    (reaches : ∀ key offset, d.Reaches key offset → d'.Reaches key offset)
    (saw_iff : ∀ m, m ≠ .startOfPush → (saw' m ↔ saw m)) (passes : ∀ p, passed p → passed' p) :
    Digested records n d' saw' passed' where
  stored i r hi hr hc := reaches _ _ (h.stored i r hi hr hc)
  saw_iff m hm := (saw_iff m hm).trans (h.saw_iff m hm)
  passed i p hi hp := passes p (h.passed i p hi hp)

/-- Nor do more records. -/
theorem extend (h : Digested records n d saw passed) (grown : records <+: records')
    (hn : n ≤ records.length) : Digested records' n d saw passed := by
  have same : ∀ i, i < n → records'[i]? = records[i]? := fun i hi =>
    (List.prefix_iff_getElem?.mp grown i (Nat.lt_of_lt_of_le hi hn)).trans
      (List.getElem?_eq_getElem _).symm
  exact {
    stored := fun i r hi hr => h.stored i r hi (same i hi ▸ hr)
    saw_iff := fun m hm => by
      rw [h.saw_iff m hm]
      refine exists_congr fun i => exists_congr fun r => and_congr_right fun hi => ?_
      rw [same i hi]
    passed := fun i p hi hp => h.passed i p hi (by rw [stampAt?, ← same i hi]; exact hp) }

/-- One more record is taken in. -/
theorem succ (h : Digested records n d saw passed) {r : ChangeRecord} (hr : records[n]? = some r)
    (reaches : ∀ key offset, d.Reaches key offset → d'.Reaches key offset)
    (stored : r.control? = none → d'.Reaches r.key n)
    (saw_iff : ∀ m, m ≠ .startOfPush → (saw' m ↔ saw m ∨ r.control? = some m))
    (passes : ∀ p, passed p → passed' p) (passed : ∀ p, r.origin = some p → passed' p) :
    Digested records (n + 1) d' saw' passed' where
  stored i r' hi hr' hc := by
    rcases Nat.lt_or_eq_of_le (Nat.le_of_lt_succ hi) with hi | rfl
    · exact reaches _ _ (h.stored i r' hi hr' hc)
    · cases hr.symm.trans hr'
      exact stored hc
  saw_iff m hm := by
    rw [saw_iff m hm, h.saw_iff m hm]
    constructor
    · rintro (⟨i, r', hi, hr', hc⟩ | hc)
      · exact ⟨i, r', Nat.lt_succ_of_lt hi, hr', hc⟩
      · exact ⟨n, r, Nat.lt_succ_self n, hr, hc⟩
    · rintro ⟨i, r', hi, hr', hc⟩
      rcases Nat.lt_or_eq_of_le (Nat.le_of_lt_succ hi) with hi | rfl
      · exact .inl ⟨i, r', hi, hr', hc⟩
      · cases hr.symm.trans hr'
        exact .inr hc
  passed i p hi hp := by
    rcases Nat.lt_or_eq_of_le (Nat.le_of_lt_succ hi) with hi | rfl
    · exact passes p (h.passed i p hi hp)
    · rw [stampAt?, hr] at hp
      exact passed p hp

end Digested

/-! ## Checkpoints -/

namespace Checkpoint

/-- A tracker is nowhere behind a checkpoint. -/
structure Behind (c : Checkpoint) (t : LagTracker) : Prop where
  version : c.versionOffset ≤ t.versionPosition
  saw : ∀ m, c.Saw m → t.Saw m
  reaches : ∀ q ∈ c.realTime, t.Reaches q.region q.offset

/-- No component of a checkpoint is ahead of a later one. -/
structure Precedes (c c' : Checkpoint) : Prop where
  version : c.versionOffset ≤ c'.versionOffset
  endOfPush : c.endOfPush → c'.endOfPush
  startOfBufferReplay : c.startOfBufferReplay → c'.startOfBufferReplay
  realTime : ∀ q ∈ c.realTime, ∃ q' ∈ c'.realTime, q'.region = q.region ∧ q.offset ≤ q'.offset

theorem Precedes.refl (c : Checkpoint) : c.Precedes c :=
  ⟨Nat.le_refl _, id, id, fun q hq => ⟨q, hq, rfl, Nat.le_refl _⟩⟩

theorem Precedes.trans {c₁ c₂ c₃ : Checkpoint} (h₁ : c₁.Precedes c₂) (h₂ : c₂.Precedes c₃) :
    c₁.Precedes c₃ where
  version := Nat.le_trans h₁.version h₂.version
  endOfPush h := h₂.endOfPush (h₁.endOfPush h)
  startOfBufferReplay h := h₂.startOfBufferReplay (h₁.startOfBufferReplay h)
  realTime q hq := by
    obtain ⟨q', hq', hregion, hle⟩ := h₁.realTime q hq
    obtain ⟨q'', hq'', hregion', hle'⟩ := h₂.realTime q' hq'
    exact ⟨q'', hq'', hregion'.trans hregion, Nat.le_trans hle hle'⟩

/-- What is restored from a checkpoint is not behind it. -/
theorem behind_restored (c : Checkpoint) (t : LagTracker) : c.Behind (t.restored c) where
  version := Nat.le_of_eq (t.versionPosition_restored c).symm
  saw m h := (LagTracker.saw_restored c m).mpr (.inr h)
  reaches _ hq := t.reaches_restored hq

end Checkpoint

namespace Feed

variable {f g : Feed} {c : Checkpoint}

theorem saw_checkpoint (f : Feed) (m : ControlMessage) : f.checkpoint.Saw m ↔ f.tracker.Saw m := by
  cases m <;> rfl

/-- A replica is not behind a checkpoint that it takes now. -/
theorem behind_checkpoint (f : Feed) : f.checkpoint.Behind f.tracker where
  version := Nat.le_refl _
  saw m := (f.saw_checkpoint m).mp
  reaches _ hq := by
    obtain ⟨region, _, hregion⟩ := List.mem_filterMap.mp hq
    obtain ⟨offset, hoffset, rfl⟩ := Option.map_eq_some_iff.mp hregion
    exact ⟨offset, hoffset, Nat.le_refl _⟩

/-- A checkpoint that is taken now is nowhere behind one that the tracker is not behind. -/
theorem precedes_checkpoint (behind : c.Behind f.tracker)
    (regional : ∀ q ∈ c.realTime, q.region ∈ f.settings.realTimeRegions) :
    c.Precedes f.checkpoint where
  version := behind.version
  endOfPush := behind.saw .endOfPush
  startOfBufferReplay := behind.saw .startOfBufferReplay
  realTime q hq := by
    obtain ⟨next, hnext, hle⟩ := behind.reaches q hq
    refine ⟨⟨q.region, next⟩, ?_, rfl, hle⟩
    exact List.mem_filterMap.mpr ⟨q.region, regional q hq, by rw [hnext]; rfl⟩

/-- A replica that restored its checkpoint is not behind the last one. -/
def Ahead (f : Feed) : Prop :=
  f.phase.isUnrestored = false → ∀ c, f.data.checkpoint = some c → c.Behind f.tracker

/-- Within one life a tracker is never behind what it was not behind. -/
theorem Progress.behind (h : f.Progress g) (prepared : f.Prepared) (hi : f.log.Indexed)
    (restored : f.phase.isUnrestored = false) (behind : c.Behind f.tracker) :
    c.Behind g.tracker where
  version := Nat.le_trans behind.version (h.position_le prepared hi restored)
  saw m hm := h.saw restored (behind.saw m hm)
  reaches q hq := h.reaches restored (behind.reaches q hq)

/-- A replica that goes on is not behind its last checkpoint. -/
theorem Ahead.move (h : f.Ahead) (prepared : f.Prepared) (flow : f.Flow) (hi : f.log.Indexed)
    (m : f.Move g) (ended : g.phase.isOver = false) : g.Ahead := by
  intro restored' c hc
  have progress := m.progress prepared flow hi ended
  rcases m.checkpoint_cases with same | ⟨b, phase, committed⟩
  · have hc := same.symm.trans hc
    have goesOn : f.phase.isUnrestored = false → c.Behind g.tracker := fun restored =>
      progress.behind prepared hi restored (h restored c hc)
    cases progress with
    | stays _ _ _ _ unrestored => exact goesOn (unrestored.symm.trans restored')
    | resumes _ _ tracker =>
      rw [tracker, hc]
      exact c.behind_restored f.tracker
    | applies _ _ _ restored => exact goesOn restored
    | stores w _ _ phase => exact goesOn (by rw [phase]; rfl)
  · cases committed.symm.trans hc
    exact progress.behind prepared hi (by rw [phase]; rfl) f.behind_checkpoint

/-! ## What is taken in -/

/-- What a replica stores, a move stores or something later. -/
theorem Move.reaches (m : f.Move g) {key : ByteArray} {offset : Nat}
    (h : f.data.Reaches key offset) : g.data.Reaches key offset := by
  cases m with
  | retire _ _ books => exact books.data ▸ h
  | breakOff w value offset' _ _ _ _ _ books =>
    rw [books.data]
    exact h.write _ _
  | storeVersion => exact h.write _ _
  | storeRealTime => exact h.write _ _
  | turn => unfold aimedAt; split <;> exact h
  | _ => exact h

/-- A stamp of a region of the version is passed. -/
def Passes (f : Feed) (p : RealTimePosition) : Prop :=
  p.region ∈ f.settings.realTimeRegions → f.tracker.Passed p

/-- The records below the position were taken in. -/
structure Digests (f : Feed) : Prop where
  blank : f.phase.isUnrestored → f.tracker.versionPosition = 0
  digested : Digested f.versionRecords f.tracker.versionPosition f.data f.tracker.Saw f.Passes

/-- The records below the last checkpoint were taken in. -/
def KeepsDigested (f : Feed) : Prop :=
  ∀ c, f.data.checkpoint = some c → Digested f.versionRecords c.versionOffset f.data c.Saw
    fun p => p.region ∈ f.settings.realTimeRegions → c.Passed p

theorem Move.prefix_versionRecords (m : f.Move g) : f.versionRecords <+: g.versionRecords := by
  rw [versionRecords, versionRecords, m.id_eq]
  exact m.extends_log _

theorem Move.getElem?_versionRecords (m : f.Move g) {i : Nat} {r : ChangeRecord}
    (h : f.versionRecords[i]? = some r) : g.versionRecords[i]? = some r := by
  obtain ⟨hi, rfl⟩ := List.getElem?_eq_some_iff.mp h
  exact List.prefix_iff_getElem?.mp m.prefix_versionRecords i hi

/-- What a move passes of the regions it read, it passes of the regions it will read. -/
theorem Move.passes (m : f.Move g) {p : RealTimePosition}
    (h : p.region ∈ f.settings.realTimeRegions → g.tracker.Passed p) : g.Passes p := by
  intro hregion
  rw [m.settings_eq] at hregion
  exact h hregion

namespace Digests

/-- A replica that starts took in nothing. -/
theorem of_created (position : f.tracker.versionPosition = 0) (unseen : ∀ m, ¬ f.tracker.Saw m) :
    f.Digests where
  blank _ := position
  digested := by
    rw [position]
    exact .zero unseen

/-- Growth of the log changes nothing. -/
theorem withLog (h : f.Digests) (flow : f.Flow) {log : Log} (hx : f.log.Extends log) :
    Digests { f with log } :=
  ⟨h.blank, h.digested.extend (hx _) flow.reached⟩

/-- A replica goes on from what its checkpoint took in. Nothing was seen before it is restored. -/
theorem resumes (h : f.Digests) (kept : f.Kept) (keeps : f.KeepsDigested)
    (flow : f.Flow) (m : f.Move g)
    (phase : f.phase.isUnrestored) (phase' : g.phase.isUnrestored = false)
    (tracker : g.tracker = f.tracker.resumed f.data.checkpoint) : g.Digests := by
  refine ⟨fun hp => (by rw [phase'] at hp; cases hp), ?_⟩
  have grown := m.prefix_versionRecords
  have unseen : ∀ m, m ≠ .startOfPush → ¬ f.tracker.Saw m := by
    intro m hm hs
    obtain ⟨i, _, hi, _⟩ := (h.digested.saw_iff m hm).mp hs
    rw [h.blank phase] at hi
    cases hi
  cases hc : f.data.checkpoint with
  | none =>
    rw [hc, LagTracker.resumed] at tracker
    rw [tracker]
    refine (h.digested.extend grown flow.reached).mono (fun _ _ => m.reaches)
      (fun _ _ => Iff.rfl) ?_
    exact fun p hp => m.passes fun hregion => tracker ▸ hp hregion
  | some c =>
    rw [hc, LagTracker.resumed] at tracker
    rw [tracker, LagTracker.versionPosition_restored]
    refine ((keeps c hc).extend grown (kept c hc)).mono (fun _ _ => m.reaches) (fun m hm => ?_) ?_
    · rw [LagTracker.saw_restored]
      exact or_iff_right (unseen m hm)
    · exact fun p hp => m.passes fun hregion => tracker ▸ (hp hregion).restored _

/-- A record of the version topic that is applied is taken in. -/
theorem applies (h : f.Digests) (flow : f.Flow) (hi : f.log.Indexed)
    (m : f.Move g) {r : ChangeRecord}
    (record : f.versionRecords[f.tracker.versionPosition]? = some r) (applies : f.Applies g r)
    (phase' : g.phase.isUnrestored = false) : g.Digests := by
  refine ⟨fun hp => (by rw [phase'] at hp; cases hp), ?_⟩
  have hoffset := hi _ _ _ record
  rw [applies.versionPosition, hoffset]
  refine (h.digested.extend m.prefix_versionRecords flow.reached).succ
    (m.getElem?_versionRecords record)
    (fun _ _ => m.reaches) (fun hc => ?_) (fun _ hm => applies.saw_iff hm)
    (fun p hp => m.passes fun hregion => applies.reaches (hp hregion))
    fun p hp => m.passes fun _ => applies.passed hp
  cases applies with
  | mark m' payload => simp [ChangeRecord.control?, payload] at hc
  | store value makes tracker data =>
    rw [data, ← hoffset]
    exact f.data.reaches_write _ _

/-- A record of a real-time topic that was published right at the position is taken in. -/
theorem stores (h : f.Digests) (flow : f.Flow) (m : f.Move g) {w : Work} {value : Option ByteArray}
    (record : f.versionRecords[f.tracker.versionPosition]? =
      some { Act.republished w.topic w.record value with offset := f.tracker.versionPosition })
    (tracker : g.tracker = (f.tracker.pastRealTimeRecord w.topic w.record).atVersionPosition
      (f.tracker.versionPosition + 1))
    (data : g.data = f.data.write w.record.key ⟨value, f.tracker.versionPosition⟩)
    (phase' : g.phase.isUnrestored = false) : g.Digests := by
  refine ⟨fun hp => (by rw [phase'] at hp; cases hp), ?_⟩
  rw [show g.tracker.versionPosition = f.tracker.versionPosition + 1 by rw [tracker]; rfl]
  refine (h.digested.extend m.prefix_versionRecords flow.reached).succ
    (m.getElem?_versionRecords record) (fun _ _ => m.reaches) (fun _ => ?_) (fun m' _ => ?_)
    (fun p hp => m.passes fun hregion => ?_) fun p hp => m.passes fun _ => ?_
  · rw [data]
    exact f.data.reaches_write _ _
  · rw [tracker, LagTracker.saw_atVersionPosition, LagTracker.saw_pastRealTimeRecord]
    cases value <;> simp [ChangeRecord.control?, Act.republished]
  · rw [tracker]
    exact (hp hregion).atRealTimePosition _ _
  · cases hp
    rw [tracker]
    exact f.tracker.reaches_atRealTimePosition w.topic.region (w.record.offset + 1)

/-- A move that leaps over no record takes in what it comes past. -/
theorem move (h : f.Digests) (kept : f.Kept) (keeps : f.KeepsDigested) (prepared : f.Prepared)
    (flow : f.Flow) (hi : f.log.Indexed) (m : f.Move g) (ended : g.phase.isOver = false)
    (straight : f.isWriting → g.tracker.versionPosition ≤ f.tracker.versionPosition + 1) :
    g.Digests := by
  cases m.progress prepared flow hi ended with
  | stays position saw reaches values unrestored =>
    refine ⟨fun hp => position.trans (h.blank (unrestored ▸ hp)), ?_⟩
    rw [position]
    refine (h.digested.extend m.prefix_versionRecords flow.reached).mono (fun _ _ => m.reaches)
      (fun m _ => saw m) ?_
    exact fun p hp => m.passes fun hregion => reaches _ _ (hp hregion)
  | resumes phase phase' tracker => exact h.resumes kept keeps flow m phase phase' tracker
  | applies r record applies phase phase' => exact h.applies flow hi m record applies phase'
  | stores w value offset phase stage realTime tracker data phase' =>
    obtain ⟨reached, record⟩ := prepared.published w value offset phase stage realTime
    have straight := straight (by simp [isWriting, phase, stage])
    rw [tracker] at straight
    have hposition : offset = f.tracker.versionPosition :=
      Nat.le_antisymm (Nat.le_of_succ_le_succ straight) reached
    subst hposition
    exact h.stores flow m record tracker data phase'

end Digests

/-- What is below the last checkpoint was taken in before and after a move. -/
theorem KeepsDigested.move (h : f.KeepsDigested) (kept : f.Kept)
    (flow : f.phase.isOver = false → f.Flow) (digests : f.phase.isOver = false → f.Digests)
    (m : f.Move g) : g.KeepsDigested := by
  intro c hc
  have grown := m.prefix_versionRecords
  rw [m.settings_eq]
  rcases m.checkpoint_cases with same | ⟨b, phase, committed⟩
  · have hc := same.symm.trans hc
    exact ((h c hc).extend grown (kept c hc)).mono (fun _ _ => m.reaches) (fun _ _ => Iff.rfl)
      fun _ hp => hp
  · cases committed.symm.trans hc
    have live : f.phase.isOver = false := by rw [phase]; rfl
    refine ((digests live).digested.extend grown (flow live).reached).mono (fun _ _ => m.reaches)
      (fun m' _ => f.saw_checkpoint m') fun p hp hregion => ?_
    exact passed_checkpoint (hp hregion) hregion

/-! ## Leaps -/

/-- A record was written and the position went past another one. -/
def Leaps (f g : Feed) : Prop :=
  f.isWriting ∧ f.tracker.versionPosition + 1 < g.tracker.versionPosition

instance (f g : Feed) : Decidable (f.Leaps g) := inferInstanceAs (Decidable (_ ∧ _))

/-- A leap is the end of a publication. -/
theorem Progress.of_leaps (h : f.Progress g) (hi : f.log.Indexed) (leaps : f.Leaps g) :
    ∃ w value offset, f.phase = .working w ∧ w.stage = .write value offset ∧ ¬ f.readsVersion w ∧
      g.tracker.versionPosition = offset + 1 := by
  obtain ⟨writing, leaps⟩ := leaps
  cases h with
  | stays position => omega
  | resumes phase =>
    unfold isWriting at writing
    split at writing
    · rename_i hp
      rw [hp] at phase
      cases phase
    · cases writing
  | applies r record applies =>
    rw [applies.versionPosition, hi _ _ _ record] at leaps
    exact absurd leaps (Nat.lt_irrefl _)
  | stores w value offset phase stage realTime tracker =>
    exact ⟨w, value, offset, phase, stage, realTime, by rw [tracker]; rfl⟩

/-- Without a leap the position goes only past what was behind it, a record that is applied, one
that was published and is stored, or what the last checkpoint is past. -/
theorem Move.below_cases (m : f.Move g) (prepared : f.Prepared)
    (flow : f.phase.isOver = false → f.Flow) (hi : f.log.Indexed) (straight : ¬ f.Leaps g) {i : Nat}
    (hlt : i < g.tracker.versionPosition) : i < f.tracker.versionPosition ∨
      (∃ r, f.tracker.versionPosition = i ∧ f.versionRecords[i]? = some r ∧ f.Applies g r) ∨
      (∃ p, f.InHand i p) ∨ ∃ c, f.data.checkpoint = some c ∧ i < c.versionOffset := by
  cases ended : g.phase.isOver with
  | true =>
    rcases m.of_over ended with rfl | books | ⟨_, _, _, _, _, _, books⟩
    · exact .inl hlt
    · exact .inl (books.versionPosition ▸ hlt)
    · rw [books.versionPosition] at hlt
      exact .inl hlt
  | false =>
    cases m.progress prepared (flow (m.live ended)) hi ended with
    | stays position => exact .inl (position ▸ hlt)
    | resumes _ _ tracker =>
      rw [tracker] at hlt
      cases hc : f.data.checkpoint with
      | none =>
        rw [hc] at hlt
        exact .inl hlt
      | some c =>
        rw [hc, LagTracker.resumed, LagTracker.versionPosition_restored] at hlt
        exact .inr (.inr (.inr ⟨c, rfl, hlt⟩))
    | applies r record applies =>
      rw [applies.versionPosition, hi _ _ _ record] at hlt
      rcases Nat.lt_or_eq_of_le (Nat.le_of_lt_succ hlt) with hlt | rfl
      · exact .inl hlt
      · exact .inr (.inl ⟨r, rfl, record, applies⟩)
    | stores w value offset phase stage realTime tracker =>
      have hle : offset ≤ f.tracker.versionPosition := Nat.le_of_not_lt fun leapt => by
        refine straight ⟨by simp [isWriting, phase, stage], ?_⟩
        rw [tracker]
        exact Nat.succ_lt_succ leapt
      rw [tracker] at hlt
      rcases Nat.lt_or_eq_of_le (Nat.le_of_lt_succ hlt) with hlt | rfl
      · exact .inl (Nat.lt_of_lt_of_le hlt hle)
      · exact .inr (.inr (.inl ⟨_, w, value, phase, stage, realTime, rfl⟩))

/-- Some offsets of the version topic are below the target of a leader, or its position. Once it
reads the real-time topics, they are below its position but for what it published and did not store
yet. -/
structure Clears (S : Nat → Prop) (f : Feed) : Prop where
  aimed : ∀ target, f.catchUpTarget = some target → ∀ i, S i →
    i < target ∨ i < f.tracker.versionPosition
  turned : f.consumesRealTime → ∀ i, S i → i < f.tracker.versionPosition ∨ ∃ p, f.InHand i p

namespace Clears

variable {S S' : Nat → Prop}

/-- A replica that does not hold the end of its version topic has nothing to clear. -/
theorem of_not_holds (waits : f.consumesRealTime = false) (target : f.catchUpTarget = none) :
    f.Clears S where
  aimed t ht := by rw [target] at ht; cases ht
  turned hc := by rw [waits] at hc; cases hc

/-- More offsets are cleared if they are below the position or in hand. -/
theorem add (h : f.Clears S) (flow : f.Flow) (hi : f.log.Indexed)
    (new : ∀ i, S' i → S i ∨ i < f.tracker.versionPosition ∨ ∃ p, f.InHand i p) : f.Clears S' where
  aimed target ht i hi' := by
    rcases new i hi' with old | below | ⟨p, w, value, phase, stage, realTime, _⟩
    · exact h.aimed target ht i old
    · exact .inr below
    -- Who has something in hand has turned already.
    · rw [flow.turned (flow.realTime hi phase realTime).2.1] at ht
      cases ht
  turned hc i hi' := by
    rcases new i hi' with old | below | inHand
    · exact h.turned hc i old
    · exact .inl below
    · exact .inr inHand

/-- A move keeps clear of what the version topic holds. -/
theorem move (h : f.Clears S) (prepared : f.Prepared) (flow : f.Flow) (hi : f.log.Indexed)
    (below : ∀ i, S i → i < f.versionRecords.length) (m : f.Move g)
    (ended : g.phase.isOver = false) : g.Clears S := by
  have progress := m.progress prepared flow hi ended
  have reached : ∀ target, f.catchUpTarget = some target ∨ target = f.versionRecords.length →
      ∀ i, S i → i < target ∨ i < f.tracker.versionPosition := by
    rintro target (ht | rfl) i hi'
    · exact h.aimed target ht i hi'
    · exact .inl (below i hi')
  cases m.hold ended with
  | stays target turned =>
    cases unrestored : f.phase.isUnrestored with
    | true =>
      have early : f.phase.isEarly := by
        generalize f.phase = p at unrestored
        cases p <;> first | rfl | cases unrestored
      obtain ⟨_, waits, none⟩ := flow.early early
      exact of_not_holds (turned.trans waits) (target.trans none)
    | false =>
      have hle := progress.position_le prepared hi unrestored
      refine ⟨fun t ht i hi' => ?_, fun hc i hi' => ?_⟩
      · exact (h.aimed t (target.symm.trans ht) i hi').imp_right (Nat.lt_of_lt_of_le · hle)
      · rcases h.turned (turned.symm.trans hc) i hi' with hlt | ⟨p, inHand⟩
        · exact .inl (Nat.lt_of_lt_of_le hlt hle)
        · rcases m.of_inHand flow hi inHand ended with inHand | hposition
          · exact .inr ⟨p, inHand⟩
          · exact .inl (by omega)
  | drops target waits => exact of_not_holds waits target
  | aims target sampled position aimed waits =>
    refine ⟨fun t ht i hi' => ?_, fun hc => by rw [waits] at hc; cases hc⟩
    cases aimed.symm.trans ht
    rw [position]
    exact reached target sampled i hi'
  | turns target sampled position hle done =>
    refine ⟨fun t ht => (by rw [done] at ht; cases ht), fun _ i hi' => .inl ?_⟩
    rw [position]
    rcases reached target sampled i hi' with hlt | hlt
    · exact Nat.lt_of_lt_of_le hlt hle
    · exact hlt

/-- A leap goes only over what is not cleared. -/
theorem not_of_leaps (h : f.Clears S) (progress : f.Progress g) (flow : f.Flow)
    (hi : f.log.Indexed) (leaps : f.Leaps g) {i : Nat} (hle : f.tracker.versionPosition ≤ i)
    (hlt : i + 1 < g.tracker.versionPosition) : ¬ S i := by
  intro hs
  obtain ⟨w, value, offset, phase, stage, realTime, hposition⟩ := progress.of_leaps hi leaps
  have hc := (flow.realTime hi phase realTime).2.1
  rcases h.turned hc i hs with below | ⟨p, w', value', phase', stage', _⟩
  · exact absurd below (Nat.not_lt.mpr hle)
  · cases phase.symm.trans phase'
    cases stage.symm.trans stage'
    omega

/-- A replica leaps over nothing that it has cleared everything of. -/
theorem not_leaps (h : f.Clears (· < f.versionRecords.length))
    (prepared : f.Prepared) (flow : f.Flow)
    (hi : f.log.Indexed) (progress : f.Progress g) : ¬ f.Leaps g := by
  intro leaps
  obtain ⟨w, value, offset, phase, stage, realTime, hposition⟩ := progress.of_leaps hi leaps
  have record := (prepared.published w value offset phase stage realTime).2
  have hend := (List.getElem?_eq_some_iff.mp record).1
  refine h.not_of_leaps progress flow hi leaps (Nat.le_refl _) leaps.2 ?_
  have := leaps.2
  omega

end Clears

end Feed

end StoreFeed
