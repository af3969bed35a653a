import StoreFeed.Proofs.Cluster.Publication
import StoreFeed.Proofs.Replica.Coverage

/-!
# What one leader publishes again

As long as one host alone publishes again, what it publishes of a region is in order, and without a
gap: between two stamps that follow each other there are only control records. This holds through
any changes of roles, outages, failed writes, halts and restarts of the host
(`exactly_republished`). What is published is the record that was read, with its value in place of
an update.
-/

namespace StoreFeed

namespace Log

/-- A record is what the real-time record at a position is published as: with its key and timestamp,
and no update. -/
def Republishes (log : Log) (id : ReplicaId) (p : RealTimePosition) (r : ChangeRecord) : Prop :=
  (∃ source, (log.records (id.realTimeTopic p.region))[p.offset]? = some source ∧
    r.key = source.key ∧ r.timestamp = source.timestamp) ∧
  (r.payload = .delete ∨ ∃ value, r.payload = .put value)

/-- Every record is what it is stamped as. -/
def Sourced (log : Log) (id : ReplicaId) : Prop :=
  ∀ (i : Nat) (r : ChangeRecord) (p : RealTimePosition),
    (log.records id.versionTopic)[i]? = some r → r.origin = some p → log.Republishes id p r

/-- What the version topic holds of the real-time topics. -/
structure ExactlyRepublished (log : Log) (id : ReplicaId) : Prop where
  ascending : ∀ i j p q, i < j → stampAt? (log.records id.versionTopic) i = some p →
    stampAt? (log.records id.versionTopic) j = some q → p.region = q.region → p.offset < q.offset
  /-- What is passed over between two stamps of a region that follow each other is control. -/
  gapless : ∀ i j p q, i < j → stampAt? (log.records id.versionTopic) i = some p →
    stampAt? (log.records id.versionTopic) j = some q → p.region = q.region →
    (∀ k s, i < k → k < j → stampAt? (log.records id.versionTopic) k = some s →
      s.region ≠ p.region) →
    ∀ offset, p.offset < offset → offset < q.offset →
      ∃ r m, (log.records (id.realTimeTopic p.region))[offset]? = some r ∧ r.payload = .control m
  sourced : log.Sourced id

variable {log : Log} {id : ReplicaId}

theorem sourced_of_nil (h : log.records id.versionTopic = []) : log.Sourced id := by
  intro i r p hr
  rw [h] at hr
  cases hr

/-- A new record that is what it is stamped as keeps the log sourced. -/
theorem Sourced.extends {log' : Log} (h : log.Sourced id) (hx : log.Extends log')
    (new : ∀ (i : Nat) (r : ChangeRecord) (p : RealTimePosition),
      (log'.records id.versionTopic)[i]? = some r → r.origin = some p →
        (log.records id.versionTopic)[i]? = some r ∨ log.Republishes id p r) : log'.Sourced id := by
  intro i r p hr ho
  have republishes : log.Republishes id p r := by
    rcases new i r p hr ho with hr | hnew
    · exact h i r p hr ho
    · exact hnew
  obtain ⟨⟨source, hs, hkeep⟩, hpayload⟩ := republishes
  exact ⟨⟨source, hx.getElem? hs, hkeep⟩, hpayload⟩

end Log

namespace Cluster

variable (id : ReplicaId) (settings : VersionSettings)

/-- Nobody but one host puts stamps into the version topic. -/
def OnlyBy (name : String) (c : Cluster) (e : Event) : Prop :=
  (c.newStamp? id settings e).isSome → e.actor? = some name

instance (name : String) (c : Cluster) (e : Event) : Decidable (c.OnlyBy id settings name e) :=
  inferInstanceAs (Decidable (_ → _))

/-- How far the log is covered for the host that publishes. -/
structure Covered (name : String) (c : Cluster) : Prop where
  stamps : ∀ i p, stampAt? (c.versionRecords id) i = some p →
    c.commons.log.Covers id p.region (p.offset + 1)
  kept : ∀ checkpoint q, (c.data id name).checkpoint = some checkpoint → q ∈ checkpoint.realTime →
    c.commons.log.Covers id q.region q.offset
  covered : ∀ f, c.feed? id name = some f → f.phase.isOver = false → f.Covered

variable {id settings} {c : Cluster} {name : String}

/-- A host that alone publishes is in nobody's way. -/
theorem OnlyBy.fenced {e : Event} (h : c.OnlyBy id settings name e) :
    c.Fenced id settings (fun _ => True) (· = name) e := by
  intro p hs _
  refine ⟨name, Event.actor?_eq_some (h (by rw [hs]; rfl)), rfl, fun other f hother hne => ?_⟩
  exact absurd hother hne

/-- Where no stamp is put, there are the old ones. -/
theorem Sound.stampAt?_of_none (h : c.Sound id settings) {e : Event}
    (hnone : c.newStamp? id settings e = none) {i : Nat} {p : RealTimePosition}
    (hs : stampAt? ((c.happen id settings e).versionRecords id) i = some p) :
    stampAt? (c.versionRecords id) i = some p := by
  rcases h.stampAt?_happen hs with ⟨_, hs⟩ | ⟨_, hs⟩
  · exact hs
  · rw [hnone] at hs
    cases hs

namespace Covered

/-- Nothing is stamped at the start. -/
theorem of_created {hosts : SortedMap String HostSettings}
    (created : Cluster.create hosts = .ok c) : c.Covered id name where
  stamps i p hs := by simp [versionRecords, records_of_create created, stampAt?] at hs
  kept checkpoint q hc := by
    rw [data_of_create created] at hc
    cases hc
  covered f hf := by simp [feed?_of_create created] at hf

/-- An event that stamps nothing, and leaves the checkpoint of the host as it is. -/
theorem unstamped (h : c.Covered id name) (sound : c.Sound id settings) {e : Event}
    (hnone : c.newStamp? id settings e = none)
    (data : (c.happen id settings e).data id name = c.data id name)
    (covered : ∀ f, (c.happen id settings e).feed? id name = some f → f.phase.isOver = false →
      f.Covered) : (c.happen id settings e).Covered id name where
  stamps i p hs := (h.stamps i p (sound.stampAt?_of_none hnone hs)).extends (sound.extends_log e)
    fun _ _ hs _ => .inl (sound.stampAt?_of_none hnone hs)
  kept checkpoint q hc hq := (h.kept checkpoint q (data ▸ hc) hq).extends (sound.extends_log e)
    fun _ _ hs _ => .inl (sound.stampAt?_of_none hnone hs)
  covered := covered

/-- Every event keeps the log covered. -/
theorem happen (h : c.Covered id name) (sound : c.Sound id settings)
    (stamped : c.Stamped id settings (fun _ => True) (· = name)) {e : Event}
    (only : c.OnlyBy id settings name e) : (c.happen id settings e).Covered id name := by
  -- A stamp comes with a move of the host.
  have none_of : (e = .step name → (c.happen id settings e).commons.log = c.commons.log) →
      c.newStamp? id settings e = none := by
    intro log
    cases hs : c.newStamp? id settings e with
    | none => rfl
    | some p =>
      have he := Event.actor?_eq_some (only (by rw [hs]; rfl))
      rw [newStamp?_of_eq (by rw [versionRecords, log he, versionRecords])] at hs
      cases hs
  cases sound.fate e name with
  | stays feed data log =>
    refine h.unstamped sound (none_of log) data fun g hg ended => ?_
    rw [feed, Option.map_eq_some_iff] at hg
    obtain ⟨f, hf, rfl⟩ := hg
    refine (h.covered f hf ended).withLog (log_of_feed? hf ▸ sound.extends_log e) fun i p hs => ?_
    rw [(sound.identity name f hf).1] at hs
    rw [sound.versionRecords_feed hf]
    exact sound.stampAt?_of_none (none_of log) hs
  | starts role event feed data log =>
    refine h.unstamped sound (none_of fun _ => log) data fun g hg _ => ?_
    rw [feed, Option.some.injEq] at hg
    subst hg
    exact .of_created rfl fun _ => rfl
  | moves f g _ before after _ move data log =>
    have hid := (sound.identity name f before).1
    have hlog := log_of_feed? before
    have hrecords := sound.versionRecords_feed before
    have hi := sound.indexed_feed before
    have flow := sound.flow name f before
    -- The move takes all that is known of the log before it: what the host has passed, what its
    -- checkpoint keeps, and that the stamps are in order.
    have tracks := stamped.tracks name f rfl before
    have covered := h.covered f before
    have stamps : f.StampsCovered := by
      intro i p hs
      rw [hlog, hid]
      exact h.stamps i p (hrecords ▸ hs)
    have kept : f.KeepsCovered := by
      intro checkpoint q hc hq
      rw [hlog, hid]
      rw [data_of_feed? before hid] at hc
      exact h.kept checkpoint q hc hq
    refine ⟨fun i p hs => ?_, fun checkpoint q hc hq => ?_, fun g' hg ended => ?_⟩
    · have hs : stampAt? g.versionRecords i = some p :=
        (sound.happen e).versionRecords_feed after ▸ hs
      rw [log, ← hid, ← move.id_eq]
      exact stamps.move covered flow (fun _ => trivial) tracks hi move i p hs
    · rw [log, ← hid, ← move.id_eq]
      exact kept.move covered flow hi move checkpoint q (data ▸ hc) hq
    · rw [after, Option.some.injEq] at hg
      subst hg
      have live := move.live ended
      exact (covered live).move stamps kept (flow live) (fun _ => trivial)
        (tracks live) hi move ended

end Covered

/-- What a replica publishes is sourced. -/
theorem Sound.sourced_happen (h : c.Sound id settings) (sourced : c.commons.log.Sourced id)
    {e : Event} (only : c.OnlyBy id settings name e) :
    (c.happen id settings e).commons.log.Sourced id := by
  refine sourced.extends (h.extends_log e) fun i r p hr ho => ?_
  have hs : stampAt? ((c.happen id settings e).versionRecords id) i = some p := by
    rw [stampAt?, versionRecords, hr]
    exact ho
  rcases h.stampAt?_happen hs with ⟨hlt, _⟩ | ⟨hend, hs⟩
  · exact .inl (((h.extends_log e).getElem?_of_lt hlt).symm.trans hr)
  · cases Event.actor?_eq_some (only (by rw [hs]; rfl))
    obtain ⟨f, w, value, hf, phase, stage, hlog, rfl⟩ := h.of_newStamp? hs
    have flow := h.flow name f hf (by rw [phase]; rfl)
    have hsource := (flow.realTime (h.indexed_feed hf) phase
      (flow.not_readsVersion phase stage)).2.2.2
    rw [(h.identity name f hf).1, log_of_feed? hf] at hsource
    have hr : r = { Act.republished w.topic w.record value with
        offset := (c.versionRecords id).length } := by
      rw [hlog, Log.records_append_self, hend] at hr
      simpa [versionRecords] using hr.symm
    rw [hr]
    refine .inr ⟨⟨w.record, hsource.1 ▸ hsource.2.2, rfl, rfl⟩, ?_⟩
    cases value with
    | none => exact .inl rfl
    | some value => exact .inr ⟨value, rfl⟩

/-- Whatever a host goes through that alone publishes again, it publishes the records of each region
in order, passes over nothing but control records, and publishes them as they are, with a value in
place of an update. -/
theorem exactly_republished {hosts : SortedMap String HostSettings}
    (created : Cluster.create hosts = .ok c) (name : String) {events : List Event}
    (only : c.Along id settings (OnlyBy id settings name) events) :
    (c.run id settings events).commons.log.ExactlyRepublished id := by
  have invariant := run_induction
    (I := fun c => c.Sound id settings ∧ c.Stamped id settings (fun _ => True) (· = name) ∧
      c.Covered id name ∧ c.commons.log.Sourced id)
    (fun c e h only => ⟨h.1.happen e, h.2.1.happen h.1 only.fenced, h.2.2.1.happen h.1 h.2.1 only,
      h.1.sourced_happen h.2.2.2 only⟩)
    ⟨.of_create created id settings, .of_created created, .of_created created,
      Log.sourced_of_nil (records_of_create created _)⟩ only
  obtain ⟨_, stamped, covered, sourced⟩ := invariant
  refine ⟨fun i j p q hij hp hq => stamped.ascending i j p q hij hp hq trivial trivial, ?_, sourced⟩
  intro i j p q hij hp hq hregion between offset hlt hgt
  have done := covered.stamps j q hq i p hp hregion offset hlt (Nat.lt_succ_of_lt hgt)
  rcases done with ⟨k, hk⟩ | hcontrol
  · -- A stamp in between would stand between the two.
    have ascending := stamped.ascending
    rcases Nat.lt_trichotomy i k with hik | rfl | hik
    · rcases Nat.lt_trichotomy k j with hkj | rfl | hkj
      · exact absurd hregion.symm (between k ⟨q.region, offset⟩ hik hkj hk)
      · have := congrArg RealTimePosition.offset (Option.some.inj (hq.symm.trans hk))
        exact absurd this (Nat.ne_of_gt hgt)
      · have := ascending j k q _ hkj hq hk trivial trivial rfl
        exact absurd hgt (Nat.lt_asymm this)
    · have := congrArg RealTimePosition.offset (Option.some.inj (hp.symm.trans hk))
      exact absurd this (Nat.ne_of_lt hlt)
    · have := ascending k i _ p hik hk hp trivial trivial hregion.symm
      exact absurd hlt (Nat.lt_asymm this)
  · rw [hregion]
    exact hcontrol

/-- The host `a` publishes a record, is halted before it has stored it, and starts again: it reads
its own stamp, and goes on behind a control record. -/
def haltedLeader : List Event :=
  .append sampleId.versionTopic (sampleRecord "k" (.control .endOfPush)) ::
    .append (sampleId.realTimeTopic none) (sampleRecord "k" (.put "1".toUTF8)) ::
    .append (sampleId.realTimeTopic none) (sampleRecord "k" (.control .startOfBufferReplay)) ::
    .append (sampleId.realTimeTopic none) (sampleRecord "k" .delete) ::
    .failWrites "a" 1 1 :: .start "a" .leader :: steps "a" 24 ++ .start "a" .leader :: steps "a" 26

theorem exactly_republished_haltedLeader :
    ((twoHosts.run sampleId hybridSettings haltedLeader).versionRecords sampleId).map (·.origin) =
        [none, some ⟨none, 0⟩, some ⟨none, 2⟩] ∧
      (twoHosts.run sampleId hybridSettings haltedLeader).commons.log.ExactlyRepublished sampleId :=
  ⟨by decide +kernel,
    exactly_republished create_twoHosts "a" (by decide +kernel)⟩

end Cluster

end StoreFeed
