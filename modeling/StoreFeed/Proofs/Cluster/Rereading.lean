import StoreFeed.Proofs.Cluster.Restarts
import StoreFeed.Proofs.Replica.Calm

/-!
# Reading a version topic twice

A standby polls the whole version topic at once and works through it; before it commits it is
started again, and works through it a second time. If no restart does harm (`Cluster.Harmless`),
every update is merged then with contents that are ahead of it, and changes nothing: the topic can
be replayed again.
-/

namespace StoreFeed

namespace Feed

/-- A standby that polled its whole version topic has worked through some of it. -/
structure Halfway (o : Nat) (f : Feed) : Prop where
  position : f.tracker.versionPosition = o
  ahead : f.position? f.id.versionTopic = some f.versionRecords.length
  subscribed : f.subscriptions.contains f.id.versionTopic
  unkept : f.data.checkpoint = none
  phase : f.phase.isOver = false ∧ f.pending = [] ∨ ∃ w, f.phase = .working w ∧ w.stage = .fresh

/-- What is next in a batch is its end, or a record that is taken up afresh. -/
theorem phase_nextPhase (f g : Feed) (b : Backoff) (batch : List (TopicPartition × ChangeRecord))
    (processed : Bool) (hp : f.phase = g.nextPhase b batch processed) :
    f.phase.isOver = false ∧ f.pending = [] ∨ ∃ w, f.phase = .working w ∧ w.stage = .fresh := by
  unfold pending
  rcases g.nextPhase_cases b batch processed with h | h | ⟨topic, record, rest, h⟩ <;>
    rw [hp, h]
  · exact .inl ⟨rfl, rfl⟩
  · exact .inl ⟨rfl, rfl⟩
  · exact .inr ⟨_, rfl, rfl⟩

namespace Halfway

variable {f : Feed} {o : Nat}

theorem live (h : f.Halfway o) : f.phase.isOver = false := by
  rcases h.phase with ⟨ended, _⟩ | ⟨w, hp, _⟩
  · exact ended
  · rw [hp]
    rfl

/-- Before the end of its version topic a standby takes up the record at its position. -/
theorem working (h : f.Halfway o) (flow : f.Flow) (hi : f.log.Indexed) (standby : f.role = .standby)
    (ho : o < f.versionRecords.length) : ∃ w, f.phase = .working w ∧ w.stage = .fresh ∧
      f.readsVersion w ∧ f.versionRecords[o]? = some w.record ∧ w.record.offset = o := by
  rcases h.phase with ⟨_, pending⟩ | ⟨w, hp, fresh⟩
  · obtain ⟨next, hn, _, ahead⟩ := flow.reads _ h.subscribed
    rw [next?, if_pos rfl, h.position, Option.some.injEq] at hn
    rw [pending, h.ahead] at ahead
    simp at ahead
    omega
  · have version := flow.readsVersion_of_standby hi hp standby
    obtain ⟨_, _, hrecord, hoffset⟩ := flow.version hi hp version
    rw [h.position] at hrecord hoffset
    exact ⟨w, hp, fresh, version, hrecord, hoffset⟩

/-- With a record done it is one record further. -/
theorem finished (h : f.Halfway o) {w : Work} (hoffset : w.record.offset = o) (p : Phase)
    {data : ReplicaData} (checkpoint : data.checkpoint = f.data.checkpoint) (t : LagTracker)
    (b : Backoff) :
    (Feed.finished { f with phase := p, data } (t.pastVersionRecord w.record) b w).Halfway
      (o + 1) where
  position := congrArg (· + 1) hoffset
  ahead := h.ahead
  subscribed := h.subscribed
  unkept := checkpoint.trans h.unkept
  phase := phase_nextPhase _ _ b w.rest true rfl

end Halfway

end Feed

namespace Cluster

variable (id : ReplicaId) (settings : VersionSettings)

/-- From here on no restart does harm to a host that only stands by. -/
def Harmless (records : List ChangeRecord) (reached : Nat) (name : String) (c : Cluster) : Prop :=
  ∀ events, c.Always id settings (StandsBy id name) events →
    (c.run id settings events).versionRecords id <+: records →
    (c.run id settings events).Unharmed id settings
    (c.furthest id settings name reached events) name

/-- No call of a host fails. -/
def Fair (limit : Nat) (name : String) (c : Cluster) : Prop :=
  ∃ host, c.hosts.find? name = some host ∧
    ∀ r : Replica, r.wakeAt = none → Run.weather ⟨r, host.site, c.commons⟩ = .calm limit

/-- A cluster in which no restart does harm has a standby with a given feed, in calm weather. -/
structure Shows (records : List ChangeRecord) (name : String) (reached : Nat) (f : Feed)
    (c : Cluster) : Prop where
  sound : c.Sound id settings
  harmless : c.Harmless id settings records reached name
  calm : ∃ run, c.replica? id name = some run ∧ run.Calm records.length f
  standby : f.role = .standby
  records : f.versionRecords = records
  within : f.tracker.versionPosition ≤ reached

/-- Where no restart does harm a standby can come to a feed. -/
def Comes (records : List ChangeRecord) (name : String) (reached : Nat) (f : Feed) : Prop :=
  ∃ c : Cluster, c.Shows id settings records name reached f

variable {id settings} {c : Cluster} {name : String} {reached limit : Nat}
  {records : List ChangeRecord} {f g : Feed}

namespace Harmless

theorem unharmed (h : c.Harmless id settings records reached name)
    (stands : c.StandsBy id name) (log : c.versionRecords id <+: records) :
    c.Unharmed id settings (max reached (c.position id name)) name := h [] stands log

/-- The position of a host counts as one that it reached. -/
theorem reach (h : c.Harmless id settings records reached name) :
    c.Harmless id settings records (max reached (c.position id name)) name := by
  intro events stands log
  rw [furthest_max]
  exact h events stands log

theorem happen (h : c.Harmless id settings records reached name)
    (stands : c.StandsBy id name) (e : Event) :
    (c.happen id settings e).Harmless id settings records (max reached (c.position id name)) name :=
  fun events along log => h (e :: events) ⟨stands, along⟩ log

end Harmless

variable (id) in
/-- Started where no call fails, a standby is in calm weather. -/
theorem Fair.start (h : c.Fair limit name) (plain : settings.hybrid = none) :
    ∃ run, (c.happen id settings (.start name .standby)).replica? id name = some run ∧
      run.Calm limit (Feed.create id settings .standby (c.data id name) c.commons.log) := by
  obtain ⟨host, hh, weather⟩ := h
  have happens : c.happen id settings (.start name .standby) =
      c.putBack name (HostRun.launch ⟨host, c.commons⟩ id settings .standby) := by
    simp only [Cluster.happen, hh]
  refine ⟨⟨Replica.create id settings .standby host.site.settings c.commons.now,
    (HostRun.launch ⟨host, c.commons⟩ id settings .standby).host.site,
    (HostRun.launch ⟨host, c.commons⟩ id settings .standby).commons⟩, ?_, ?_, ?_, ?_⟩
  · rw [happens, replica?_putBack_self]
    simp [HostRun.launch, HostRun.modifyTable, HostRun.countActive, HostRun.modifyStats]
  · simp only [data, hh, Run.feed, Feed.create, Replica.create, HostRun.launch, HostRun.countActive,
      HostRun.modifyStats, HostRun.modifyTable]
  · have calm := weather (Replica.create id settings .standby host.site.settings c.commons.now) rfl
    rw [← calm]
    simp only [Run.weather, HostRun.launch, HostRun.countActive, HostRun.modifyStats,
      HostRun.modifyTable]
  · simp [Feed.create, LagTracker.create, VersionSettings.lagThreshold?, plain]

namespace Shows

theorem feed? (h : c.Shows id settings records name reached f) : c.feed? id name = some f := by
  obtain ⟨run, hrun, calm⟩ := h.calm
  rw [Cluster.feed?, hrun, ← calm.feed]
  rfl

theorem stands (h : c.Shows id settings records name reached f) : c.StandsBy id name := by
  unfold StandsBy
  rw [h.feed?]
  exact decide_eq_true h.standby

theorem topic (h : c.Shows id settings records name reached f) : c.versionRecords id = records :=
  (h.sound.versionRecords_feed h.feed?).symm.trans h.records

theorem log (h : c.Shows id settings records name reached f) : c.versionRecords id <+: records :=
  h.topic ▸ List.prefix_rfl

/-- What follows a standby that an event left standing by. -/
theorem happen (h : c.Shows id settings records name reached f) (e : Event)
    (calm : ∃ run, (c.happen id settings e).replica? id name = some run ∧
      run.Calm records.length g)
    (standby : g.role = .standby) (topic : g.versionRecords = records) :
    (c.happen id settings e).Shows id settings records name (max reached g.tracker.versionPosition)
      g := by
  have position : c.position id name ≤ reached := by
    rw [position_of_feed? h.feed?]
    exact h.within
  have harmless := (h.harmless.happen h.stands e).reach
  rw [Nat.max_eq_left position] at harmless
  obtain ⟨run, hrun, hcalm⟩ := calm
  have feed : (c.happen id settings e).feed? id name = some g := by
    rw [Cluster.feed?, hrun, ← hcalm.feed]
    rfl
  rw [position_of_feed? feed] at harmless
  exact ⟨h.sound.happen e, harmless, ⟨run, hrun, hcalm⟩, standby, topic, Nat.le_max_right _ _⟩

end Shows

namespace Comes

section Facts

variable (h : Comes id settings records name reached f)
include h

theorem standby : f.role = .standby := by
  obtain ⟨c, h⟩ := h
  exact h.standby

theorem topic : f.versionRecords = records := by
  obtain ⟨c, h⟩ := h
  exact h.records

theorem within : f.tracker.versionPosition ≤ reached := by
  obtain ⟨c, h⟩ := h
  exact h.within

theorem indexed : f.log.Indexed := by
  obtain ⟨c, h⟩ := h
  exact h.sound.indexed_feed h.feed?

theorem flow (ended : f.phase.isOver = false) : f.Flow := by
  obtain ⟨c, h⟩ := h
  exact h.sound.flow name f h.feed? ended

theorem available : f.log.available := by
  obtain ⟨c, h⟩ := h
  obtain ⟨run, _, calm⟩ := h.calm
  rw [← calm.feed]
  exact congrArg Weather.available calm.weather

theorem identity : f.settings = settings := by
  obtain ⟨c, h⟩ := h
  exact (h.sound.identity name f h.feed?).2

theorem contents : replay settings.schema (records.take reached) = .ok f.data.values := by
  obtain ⟨c, h⟩ := h
  obtain ⟨hid, _⟩ := h.sound.identity name f h.feed?
  have unharmed := (h.harmless.unharmed h.stands h.log).contents
  rw [position_of_feed? h.feed?, Nat.max_eq_left h.within, ← data_of_feed? h.feed? hid, h.topic]
    at unharmed
  exact unharmed

theorem merges {w : Work} {u : PartialUpdate} (hp : f.phase = .working w)
    (stage : w.stage = .merge u) {first : Contents}
    (replayed : replay settings.schema (records.take (w.record.offset + 1)) = .ok first) :
    ∃ value, mergeBytes f.settings.schema (f.get? w.record.key) u = .ok value := by
  obtain ⟨c, h⟩ := h
  rw [(h.sound.identity name f h.feed?).2]
  have merging : f.merging? = some (w.record, u) := by simp only [Feed.merging?, hp, stage]
  refine (h.harmless.unharmed h.stands h.log).merges f w.record u h.feed? merging ⟨first, ?_⟩
  rw [h.topic, replayed]

/-- The replica is started again. -/
theorem restart (plain : settings.hybrid = none) :
    Comes id settings records name reached (Feed.create id settings .standby f.data f.log) := by
  obtain ⟨c, h⟩ := h
  have hid := (h.sound.identity name f h.feed?).1
  have fair : c.Fair records.length name := by
    obtain ⟨run, hrun, calm⟩ := h.calm
    obtain ⟨host, hh, _, heq⟩ := find?_of_replica? hrun
    refine ⟨host, hh, fun r awake => ?_⟩
    have awake' : run.replica.wakeAt = none := congrArg Weather.wakeAt calm.weather
    rw [← calm.weather, heq, Run.weather, Run.weather, awake, awake']
  have calm := fair.start id plain
  rw [← data_of_feed? h.feed? hid, ← log_of_feed? h.feed?] at calm
  have topic : (Feed.create id settings .standby f.data f.log).versionRecords = records := by
    rw [← h.records, Feed.versionRecords, Feed.versionRecords, hid]
    rfl
  have := h.happen (.start name .standby) calm rfl topic
  exact ⟨_, by simpa [Feed.create, LagTracker.create] using this⟩

/-- A step in calm weather. -/
theorem step {ι : Type} {g : ι → Feed}
    (goes : ∀ run : Run, run.Calm records.length f → ∃ i, run.step.Calm records.length (g i))
    (same : ∀ i, (g i).role = f.role ∧ (g i).versionRecords = f.versionRecords) :
    ∃ i, Comes id settings records name (max reached (g i).tracker.versionPosition) (g i) := by
  obtain ⟨c, h⟩ := h
  obtain ⟨run, hrun, calm⟩ := h.calm
  obtain ⟨i, calm⟩ := goes run calm
  refine ⟨i, _, h.happen (.step name) ⟨run.step, replica?_onReplica_self hrun _, calm⟩ ?_ ?_⟩
  · rw [(same i).1, h.standby]
  · rw [(same i).2, h.records]

/-- A step that leaves the position as it is. -/
theorem stay {ι : Type} {g : ι → Feed}
    (goes : ∀ run : Run, run.Calm records.length f → ∃ i, run.step.Calm records.length (g i))
    (same : ∀ i, (g i).role = f.role ∧ (g i).versionRecords = f.versionRecords ∧
      (g i).tracker.versionPosition = f.tracker.versionPosition) :
    ∃ i, Comes id settings records name reached (g i) := by
  obtain ⟨i, next⟩ := h.step goes fun i => ⟨(same i).1, (same i).2.1⟩
  rw [(same i).2.2, Nat.max_eq_left h.within] at next
  exact ⟨i, next⟩

/-- A step with one outcome that leaves the position as it is. -/
theorem goes {g : Feed}
    (goes : ∀ run : Run, run.Calm records.length f → run.step.Calm records.length g)
    (same : g.role = f.role ∧ g.versionRecords = f.versionRecords ∧
      g.tracker.versionPosition = f.tracker.versionPosition) :
    Comes id settings records name reached g := by
  obtain ⟨_, next⟩ := h.stay (ι := Unit) (fun run calm => ⟨(), goes run calm⟩) fun _ => same
  exact next

end Facts

/-- A standby without a checkpoint polls the whole version topic. -/
theorem polled {data : ReplicaData} {log : Log}
    (h : Comes id settings records name reached (Feed.create id settings .standby data log))
    (unkept : data.checkpoint = none) :
    ∃ f, Comes id settings records name reached f ∧ f.Halfway 0 ∧ f.data = data := by
  have topic : log.records id.versionTopic = records := h.topic
  obtain ⟨since, h⟩ := h.stay (fun run calm => calm.created rfl) fun _ => ⟨rfl, rfl, rfl⟩
  obtain ⟨next, h⟩ := h.stay (fun run calm => calm.restoring rfl unkept) fun _ => ⟨rfl, rfl, rfl⟩
  have h := h.goes (fun run calm => calm.acquiring rfl) ⟨rfl, rfl, rfl⟩
  have h := h.goes (fun run calm => calm.aiming rfl rfl rfl rfl) ⟨rfl, rfl, rfl⟩
  have h := h.goes (fun run calm => calm.attaching rfl rfl) ⟨rfl, rfl, rfl⟩
  have complete : SortedSet.diff (SortedSet.add SortedMap.empty id.versionTopic)
      (SortedSet.ofMembers [id.versionTopic]) = [] := by
    rw [List.eq_nil_iff_forall_not_mem]
    intro tp htp
    obtain ⟨member, missing⟩ := SortedSet.mem_diff.1 htp
    rw [show SortedSet.add SortedMap.empty id.versionTopic =
      SortedSet.ofMembers [id.versionTopic] from rfl, missing] at member
    cases member
  have h := h.goes (fun run calm => calm.aligning rfl rfl complete complete) ⟨rfl, rfl, rfl⟩
  obtain ⟨batch, c', polled, ahead⟩ :=
    Consumer.poll_alone h.available id.versionTopic 0 records.length
  obtain ⟨b, h⟩ := h.stay (fun run calm => calm.polling rfl rfl polled) fun _ => ⟨rfl, rfl, rfl⟩
  refine ⟨_, h, ⟨rfl, ?_, SortedSet.contains_add_self _ _, unkept,
    Feed.phase_nextPhase _ _ b batch false rfl⟩, rfl⟩
  show c'.positions.find? id.versionTopic = some (log.records id.versionTopic).length
  rw [ahead]
  simp [topic, Feed.create]

variable {o : Nat} {w : Work}

/-- A value is written. -/
theorem stored (half : f.Halfway o) (hoffset : w.record.offset = o) (version : f.readsVersion w)
    (inRange : w.record.InRange) {value : Option ByteArray}
    (h : Comes id settings records name reached
      { f with phase := .working { w with stage := .write value w.record.offset } }) :
    ∃ g, Comes id settings records name (max reached (o + 1)) g ∧ g.Halfway (o + 1) ∧
      g.data = f.data.write w.record.key ⟨value, o⟩ := by
  subst hoffset
  obtain ⟨b, h⟩ := h.step (fun run calm => calm.writing rfl version rfl inRange) fun _ => ⟨rfl, rfl⟩
  exact ⟨_, h, half.finished rfl _ (f.data.checkpoint_write _ _) f.tracker b, rfl⟩

variable {contents : Contents} (replayed : replay settings.schema records = .ok contents)
include replayed

/-- An update that a replay merges is merged and written. -/
theorem updated (h : Comes id settings records name reached f) (half : f.Halfway o)
    {r : ChangeRecord} {u : PartialUpdate} (hr : records[o]? = some r)
    (payload : r.payload = .update u)
    (inRange : r.InRange) : ∃ value g,
      mergeBytes settings.schema (f.get? r.key) u = .ok value ∧
        Comes id settings records name (max reached (o + 1)) g ∧ g.Halfway (o + 1) ∧
        g.data = f.data.write r.key ⟨some value, o⟩ := by
  obtain ⟨w, hp, fresh, version, hrecord, hoffset⟩ := half.working (h.flow half.live) h.indexed
    h.standby (h.topic ▸ (List.getElem?_eq_some_iff.mp hr).1)
  rw [h.topic, hr, Option.some.injEq] at hrecord
  subst hrecord
  have next := h.goes (fun run calm => calm.looksAtUpdate hp fresh payload) ⟨rfl, rfl, rfl⟩
  obtain ⟨first, hfirst⟩ := replay_take_of_le (n := records.length) (m := w.record.offset + 1)
    (by rw [List.take_length]; exact replayed)
    (by rw [hoffset]; exact (List.getElem?_eq_some_iff.mp hr).1)
  obtain ⟨value, merged⟩ := next.merges rfl rfl hfirst
  have next := next.goes (fun run calm => calm.merging rfl version rfl merged) ⟨rfl, rfl, rfl⟩
  obtain ⟨g, hg, half, data⟩ := stored half hoffset version inRange next
  exact ⟨value, g, h.identity ▸ merged, hg, half, data⟩

/-- A record is done. -/
theorem advance (h : Comes id settings records name reached f) (half : f.Halfway o)
    (inRange : ∀ r ∈ records, r.InRange) (ho : o < records.length) :
    ∃ g, Comes id settings records name (max reached (o + 1)) g ∧ g.Halfway (o + 1) := by
  obtain ⟨w, hp, fresh, version, hrecord, hoffset⟩ := half.working (h.flow half.live) h.indexed
    h.standby (h.topic ▸ ho)
  rw [h.topic] at hrecord
  have range := inRange _ (List.mem_of_getElem? hrecord)
  -- A value that the record makes by itself is written at once.
  have settle : ∀ value, w.record.Makes f.settings.schema none value →
      (∀ u, w.record.payload ≠ .update u) →
      ∃ g, Comes id settings records name (max reached (o + 1)) g ∧ g.Halfway (o + 1) := by
    intro value makes plain
    have next := h.goes (fun run calm => calm.looksAt hp version fresh makes plain) ⟨rfl, rfl, rfl⟩
    obtain ⟨g, hg, half, _⟩ := stored half hoffset version range next
    exact ⟨g, hg, half⟩
  cases payload : w.record.payload with
  | put value => exact settle _ (.put value payload) fun u => by simp [payload]
  | delete => exact settle _ (.delete payload) fun u => by simp [payload]
  | update u =>
    obtain ⟨_, g, _, hg, half, _⟩ := h.updated replayed half hrecord payload range
    exact ⟨g, hg, half⟩
  | control m =>
    obtain ⟨b, next⟩ := h.step (fun run calm => calm.passesControl hp version fresh range payload)
      fun _ => ⟨rfl, rfl⟩
    subst hoffset
    exact ⟨_, next, half.finished rfl f.phase rfl (f.tracker.marked m) b⟩

/-- The whole version topic can be worked through. -/
theorem workedThrough (h : Comes id settings records name reached f) (half : f.Halfway 0)
    (inRange : ∀ r ∈ records, r.InRange) (within : reached ≤ records.length)
    (ho : o ≤ records.length) : ∃ reached' g, reached ≤ reached' ∧ reached' ≤ records.length ∧
      Comes id settings records name reached' g ∧ g.Halfway o := by
  induction o with
  | zero => exact ⟨reached, f, Nat.le_refl _, within, h, half⟩
  | succ o ih =>
    obtain ⟨reached', g, hle, hwithin, hg, hhalf⟩ := ih (Nat.le_of_succ_le ho)
    obtain ⟨g', hg', hhalf'⟩ := hg.advance replayed hhalf inRange ho
    exact ⟨_, g', by omega, by omega, hg', hhalf'⟩

/-- Read a second time, an update is merged and makes the same. -/
theorem merges_again {log : Log}
    (h : Comes id settings records name 0 (Feed.create id settings .standby ReplicaData.empty log))
    (plain : settings.hybrid = none) (inRange : ∀ r ∈ records, r.InRange) {r : ChangeRecord}
    {u : PartialUpdate} (hr : records[o]? = some r) (payload : r.payload = .update u) :
    ∃ value, mergeBytes settings.schema (contents.get? r.key) u = .ok value ∧
      ∀ stored, contents.find? r.key = some stored → stored.offset = o →
        stored.value = some value := by
  have ho : o < records.length := (List.getElem?_eq_some_iff.mp hr).1
  -- The first pass ends before the commit, the second one before the update.
  obtain ⟨f, hf, half, _⟩ := h.polled rfl
  obtain ⟨reached, f, _, hle, hf, half⟩ :=
    hf.workedThrough replayed half inRange (Nat.zero_le _) (Nat.le_refl records.length)
  have hreached : reached = records.length := by
    have := hf.within
    rw [half.position] at this
    omega
  subst hreached
  obtain ⟨f, hf, half, _⟩ := (hf.restart plain).polled half.unkept
  obtain ⟨reached, f, hge, hle, hf, half⟩ :=
    hf.workedThrough replayed half inRange (Nat.le_refl _) (Nat.le_of_lt ho)
  have hreached : reached = records.length := Nat.le_antisymm hle hge
  subst hreached
  obtain ⟨value, g, merged, hg, _, data⟩ :=
    hf.updated replayed half hr payload (inRange r (List.mem_of_getElem? hr))
  have before := hf.contents
  have after := hg.contents
  rw [Nat.max_eq_left ho] at after
  rw [List.take_length, replayed] at before after
  have before : contents = f.data.values := Except.ok.inj before
  have after : contents = (f.data.write r.key ⟨some value, o⟩).values := data ▸ Except.ok.inj after
  refine ⟨value, before ▸ merged, fun stored hs offset => ?_⟩
  have written := f.data.find?_write_self r.key ⟨some value, o⟩
  rw [← after, ← before, hs] at written
  simp only [offset, Nat.lt_irrefl, if_false, Option.some.injEq] at written
  rw [written]

end Comes

end Cluster

end StoreFeed
