import StoreFeed.Proofs.Replica.Flow
import StoreFeed.Proofs.Storage.Replayable

/-!
# Going on from a checkpoint

A standby that was restarted applies records again that it has stored already, up to where it was
furthest. If its version topic can be replayed again, it stores throughout what replaying the topic
up to there gives (`Feed.Resumes`), and no merge fails that does not fail in a first replay.
-/

namespace StoreFeed

namespace Feed

/-- How a standby stands to the furthest position that it reached. -/
structure Resumes (reached : Nat) (f : Feed) : Prop where
  contents : replay f.settings.schema (f.versionRecords.take reached) = .ok f.data.values
  within : reached ≤ f.versionRecords.length
  position : f.tracker.versionPosition ≤ reached
  kept : ∀ c, f.data.checkpoint = some c → c.versionOffset ≤ reached
  merging : ∀ w u, f.phase = .working w → w.stage = .merge u → w.record.payload = .update u
  writing : ∀ w value offset, f.phase = .working w → w.stage = .write value offset →
    offset = w.record.offset ∧ w.record.Makes f.settings.schema (f.get? w.record.key) value

namespace Resumes

variable {reached : Nat} {f g : Feed}

/-- Growth of the log changes nothing. -/
theorem withLog (h : f.Resumes reached) {log : Log} (hx : f.log.Extends log) :
    Resumes reached { f with log } where
  contents := by
    show replay f.settings.schema ((log.records f.id.versionTopic).take _) = _
    rw [hx.take h.within]
    exact h.contents
  within := Nat.le_trans h.within (hx.length_le _)
  position := h.position
  kept := h.kept
  merging := h.merging
  writing := h.writing

/-- Without a new position the furthest one stays. -/
theorem stay (h : g.Resumes reached) : g.Resumes (max reached g.tracker.versionPosition) := by
  rw [Nat.max_eq_left h.position]
  exact h

/-- A change to a phase that neither merges nor writes, not further than the furthest position. -/
theorem plain (h : f.Resumes reached) (id : g.id = f.id) (settings : g.settings = f.settings)
    (data : g.data = f.data) (log : g.log = f.log) (position : g.tracker.versionPosition ≤ reached)
    (phase : g.phase.IsPlain) :
    g.Resumes reached where
  contents := by
    rw [settings, versionRecords, id, log, data]
    exact h.contents
  within := by
    rw [versionRecords, id, log]
    exact h.within
  position := position
  kept c hc := h.kept c (data ▸ hc)
  merging w u hp hs := absurd hs ((phase w hp).1 u)
  writing w value offset hp hs := absurd hs ((phase w hp).2 value offset)

/-- The value of a record of the version topic is known. -/
theorem settle (h : f.Resumes reached) {w : Work} {value : Option ByteArray}
    (hv : f.readsVersion w) (makes : w.record.Makes f.settings.schema (f.get? w.record.key) value) :
    Resumes reached { f with phase := f.settled w value } := by
  rw [settled_of_readsVersion hv]
  exact {
    contents := h.contents
    within := h.within
    position := h.position
    kept := h.kept
    merging := fun w' u hp hs => by
      cases hp
      cases hs
    writing := fun w' value' offset hp hs => by
      cases hp
      cases hs
      exact ⟨rfl, makes⟩ }

/-- A record is done. -/
theorem finished (h : f.Resumes reached) {t : LagTracker} (data : ReplicaData) (b : Backoff)
    (w : Work) (checkpoint : data.checkpoint = f.data.checkpoint)
    (within : t.versionPosition ≤ f.versionRecords.length)
    (contents : replay f.settings.schema (f.versionRecords.take (max reached t.versionPosition)) =
      .ok data.values) :
    Resumes (max reached t.versionPosition) (Feed.finished { f with data } t b w) where
  contents := contents
  within := Nat.max_le.mpr ⟨h.within, within⟩
  position := Nat.le_max_right _ _
  kept c hc := Nat.le_trans (h.kept c (checkpoint ▸ hc)) (Nat.le_max_left _ _)
  merging w' u hp hs := absurd hs ((isPlain_nextPhase _ _ _ _ w' hp).1 u)
  writing w' value offset hp hs := absurd hs ((isPlain_nextPhase _ _ _ _ w' hp).2 value offset)

/-- The merge of an update fails only if it fails in a first replay. -/
theorem merges (h : f.Resumes reached) (again : Replayable f.settings.schema f.versionRecords)
    {o : Nat} {r : ChangeRecord} {u : PartialUpdate} (ho : o ≤ reached)
    (hr : f.versionRecords[o]? = some r) (hu : r.payload = .update u) {contents : Contents}
    (first : replay f.settings.schema (f.versionRecords.take (o + 1)) = .ok contents) :
    ∃ value, mergeBytes f.settings.schema (f.get? r.key) u = .ok value := by
  rcases Nat.lt_or_eq_of_le ho with hlt | rfl
  · obtain ⟨value, merged, _⟩ := again reached f.data.values h.contents o r u hlt hr hu
    exact ⟨value, merged⟩
  · rw [replay_take_succ hr, h.contents] at first
    have happly : r.applyTo f.settings.schema f.data.values = .ok contents := first
    exact ChangeRecord.merges_of_applyTo happly hu

/-- A write under the next offset leaves what replaying one record more gives, or what was there if
it was written before. -/
theorem stored_write (h : f.Resumes reached) (hi : f.log.Indexed)
    (again : Replayable f.settings.schema f.versionRecords) {o : Nat} {r : ChangeRecord}
    (ho : o ≤ reached) (hr : f.versionRecords[o]? = some r) {value : Option ByteArray}
    (makes : r.Makes f.settings.schema (f.get? r.key) value) :
    replay f.settings.schema (f.versionRecords.take (max reached (o + 1))) =
      .ok (f.data.write r.key ⟨value, o⟩).values := by
  rcases Nat.lt_or_eq_of_le ho with hlt | rfl
  · rw [Nat.max_eq_left hlt, again.write_again (hi _) h.within h.contents hlt hr
      makes]
    exact h.contents
  · have older : ∀ existing, f.data.values.find? r.key = some existing → existing.offset ≤ o := by
      intro existing hs
      have := made_of_replay (hi _) h.within h.contents hs
      exact Nat.le_of_lt this.1
    have happly : r.applyTo f.settings.schema f.data.values =
        .ok (f.data.values.insert r.key ⟨value, r.offset⟩) := ChangeRecord.Makes.applyTo makes
    rw [hi _ _ _ hr] at happly
    rw [Nat.max_eq_right (Nat.le_succ _), replay_take_succ hr, h.contents,
      ReplicaData.values_write older]
    exact happly

/-- An update is merged next. -/
theorem lookAtUpdate (h : f.Resumes reached) {w : Work} {u : PartialUpdate}
    (payload : w.record.payload = .update u) :
    Resumes reached { f with phase := .working { w with stage := .merge u } } where
  contents := h.contents
  within := h.within
  position := h.position
  kept := h.kept
  merging w' u' hp hs := by
    cases hp
    cases hs
    exact payload
  writing w' value offset hp hs := by
    cases hp
    cases hs

/-- The checkpoint may be behind what was stored: the position goes back, what was reached stays. -/
theorem position_resumed (h : f.Resumes reached) :
    (f.tracker.resumed f.data.checkpoint).versionPosition ≤ reached := by
  cases hc : f.data.checkpoint with
  | none => exact h.position
  | some c =>
    rw [LagTracker.resumed, LagTracker.versionPosition_restored]
    exact h.kept c hc

/-- A control record below what was reached was passed before; at it the replay grows by the
record. -/
theorem passVersionControl (h : f.Resumes reached) (flow : f.Flow) (hi : f.log.Indexed) {w : Work}
    {m : ControlMessage} (hp : f.phase = .working w) (payload : w.record.payload = .control m)
    (version : f.readsVersion w) (b : Backoff) :
    (f.finished ((f.tracker.marked m).pastVersionRecord w.record) b w).Resumes
      (max reached (w.record.offset + 1)) := by
  obtain ⟨_, _, hrecord, hoffset⟩ := flow.version hi hp version
  refine h.finished (t := (f.tracker.marked m).pastVersionRecord w.record) f.data b w rfl
    (flow.offset_lt hi hp version) ?_
  show replay _ (f.versionRecords.take (max reached (w.record.offset + 1))) = _
  rcases Nat.lt_or_eq_of_le h.position with hbelow | heq
  · rw [Nat.max_eq_left (by omega)]
    exact h.contents
  · rw [hoffset, heq, Nat.max_eq_right (Nat.le_succ _), replay_take_succ (heq ▸ hrecord),
      h.contents]
    exact ChangeRecord.applyTo_of_control payload

theorem storeVersion (h : f.Resumes reached) (flow : f.Flow) (hi : f.log.Indexed)
    (again : Replayable f.settings.schema f.versionRecords) {w : Work} {value : Option ByteArray}
    {offset : Nat} (hp : f.phase = .working w) (hs : w.stage = .write value offset)
    (version : f.readsVersion w) (b : Backoff) :
    (Feed.finished { f with data := f.data.write w.record.key ⟨value, offset⟩ }
      (f.tracker.pastVersionRecord w.record) b w).Resumes (max reached (w.record.offset + 1)) := by
  obtain ⟨_, _, hrecord, hoffset⟩ := flow.version hi hp version
  obtain ⟨rfl, makes⟩ := h.writing w value offset hp hs
  refine h.finished (t := f.tracker.pastVersionRecord w.record) _ b w (f.data.checkpoint_write _ _)
    (flow.offset_lt hi hp version) ?_
  exact h.stored_write hi again (by rw [hoffset]; exact h.position) (hoffset ▸ hrecord) makes

/-- A checkpoint is not further than what was reached. -/
theorem commit (h : f.Resumes reached) {p : Phase} (plain : p.IsPlain) :
    Resumes reached { f with
      data := { f.data with checkpoint := some f.checkpoint }, phase := p } where
  contents := h.contents
  within := h.within
  position := h.position
  kept c hc := by
    cases hc
    exact h.position
  merging w u hp hs := absurd hs ((plain w hp).1 u)
  writing w value offset hp hs := absurd hs ((plain w hp).2 value offset)

/-- A standby goes on from its checkpoint through every move. -/
theorem move (h : f.Resumes reached) (flow : f.phase.isOver = false → f.Flow) (hi : f.log.Indexed)
    (standby : f.role = .standby) (again : Replayable f.settings.schema f.versionRecords)
    (inRange : ∀ r ∈ f.versionRecords, r.InRange) (m : f.Move g) :
    g.Resumes (max reached g.tracker.versionPosition) := by
  -- A standby reads nothing but the version topic, so it neither publishes nor turns.
  have version : ∀ w, f.phase = .working w → f.readsVersion w := fun w hp =>
    (flow (by rw [hp]; rfl)).readsVersion_of_standby hi hp standby
  cases m with
  | rest => exact h.stay
  | retire _ ended books =>
    refine stay (h.plain books.id books.settings books.data books.log ?_ fun w hp => ?_)
    · rw [books.versionPosition]
      exact h.position
    · rw [hp] at ended
      cases ended
  | breakOff w _ _ _ phase _ overflow =>
    obtain ⟨_, _, hrecord, _⟩ := (flow (by rw [phase]; rfl)).version hi phase (version w phase)
    exact absurd (inRange _ (List.mem_of_getElem? hrecord)) (overflow (version w phase))
  | lead p leads =>
    exact stay (h.plain rfl rfl rfl rfl h.position fun w hp => absurd hp (leads.ne_working.2 w))
  | restore since next phase =>
    exact stay (h.plain rfl rfl rfl rfl h.position_resumed fun w hp => by cases hp)
  | acquire since phase => exact stay (h.plain rfl rfl rfl rfl h.position fun w hp => by cases hp)
  | detach first c tp phase =>
    exact stay (h.plain rfl rfl rfl rfl h.position fun w hp => by simp [phase] at hp)
  | aim first tp offset phase =>
    exact stay (h.plain rfl rfl rfl rfl h.position fun w hp => by cases hp)
  | attach first c tp offset phase =>
    refine stay (h.plain rfl rfl rfl rfl ?_ fun w hp => by cases hp)
    dsimp only
    split <;> exact h.position
  | align first phase => exact stay (h.plain rfl rfl rfl rfl h.position fun w hp => by cases hp)
  | poll c c' limit batch b phase =>
    exact stay (h.plain rfl rfl rfl rfl h.position (isPlain_nextPhase _ _ _ _))
  | startOver w b phase =>
    refine stay (h.plain rfl rfl rfl rfl h.position fun w' hp => ?_)
    cases hp
    exact ⟨fun _ => Stage.noConfusion, fun _ _ => Stage.noConfusion⟩
  | lookAtPut w value phase stage payload =>
    exact stay (h.settle (version w phase) (.put value payload))
  | lookAtDelete w phase stage payload => exact stay (h.settle (version w phase) (.delete payload))
  | lookAtUpdate w u phase stage payload => exact stay (h.lookAtUpdate payload)
  | passVersionControl w m b phase stage payload reads =>
    exact h.passVersionControl (flow (by rw [phase]; rfl)) hi phase payload reads b
  | passRealTimeControl w m b phase stage payload realTime =>
    exact absurd (version w phase) realTime
  | merge w u value phase stage merged =>
    exact stay (h.settle (version w phase) (.update u value (h.merging w u phase stage) merged))
  | openTopic w value phase stage =>
    refine stay (h.plain rfl rfl rfl rfl h.position fun w' hp => ?_)
    cases hp
    exact ⟨fun _ => Stage.noConfusion, fun _ _ => Stage.noConfusion⟩
  | publish w value phase stage =>
    exact absurd (version w phase) ((flow (by rw [phase]; rfl)).not_readsVersion phase stage)
  | storeVersion w value offset b phase stage reads =>
    exact h.storeVersion (flow (by rw [phase]; rfl)) hi again phase stage reads b
  | storeRealTime w value offset b phase stage realTime => exact absurd (version w phase) realTime
  | commit b phase => exact stay (h.commit fun w hp => by cases hp)
  | takeRole processed role phase =>
    exact stay (h.plain rfl rfl rfl rfl h.position fun w hp => by cases hp)
  | turn processed target phase leader =>
    rw [standby] at leader
    cases leader
  | sampleVersion processed p phase next =>
    rcases next with rfl | rfl
    · exact stay (h.plain rfl rfl rfl rfl h.position fun w hp => by cases hp)
    · exact stay (h.plain rfl rfl rfl rfl h.position fun w hp => by cases hp)
  | sampleRegion processed region rest phase =>
    exact stay (h.plain rfl rfl rfl rfl h.position fun w hp => by cases hp)

end Resumes

end Feed

end StoreFeed
