import StoreFeed.Proofs.Cluster.Skipping

/-!
# What a checkpoint says

A checkpoint says how far a replica has come. All data records below it are stored, or something
later of their keys; it has seen exactly the control messages below it, and is behind every stamp
below it (`Checkpoint.Describes`). A replica goes on from its checkpoint, so the next one is nowhere
behind it, in this life or a later one.

For the first part nobody else may append to the version topic while the replica holds its end, from
the sample of its target on. It does not suffice that nobody does so once it reads the real-time
topics (`Cluster.misdescribed_lateReplay`).
-/

namespace StoreFeed

/-- What a checkpoint says of the records of its version topic, and of what is kept. -/
structure Checkpoint.Describes (c : Checkpoint) (records : List ChangeRecord) (d : ReplicaData)
    (regions : List (Option RegionId)) : Prop where
  within : c.versionOffset ≤ records.length
  stored : ∀ i r, i < c.versionOffset → records[i]? = some r → r.control? = none → d.Reaches r.key i
  endOfPush : c.endOfPush ↔
    ∃ i r, i < c.versionOffset ∧ records[i]? = some r ∧ r.control? = some .endOfPush
  startOfBufferReplay : c.startOfBufferReplay ↔
    ∃ i r, i < c.versionOffset ∧ records[i]? = some r ∧ r.control? = some .startOfBufferReplay
  passed : ∀ i p, i < c.versionOffset → stampAt? records i = some p →
    p.region ∈ regions → c.Passed p

/-- What a move commits is nowhere behind the last checkpoint. -/
theorem Feed.Move.precedes {f g : Feed} (m : f.Move g) (ahead : f.phase.isOver = false → f.Ahead)
    {c : Checkpoint} (hc : f.data.checkpoint = some c)
    (regional : ∀ q ∈ c.realTime, q.region ∈ f.settings.realTimeRegions) :
    ∃ c', g.data.checkpoint = some c' ∧ c.Precedes c' := by
  rcases m.checkpoint_cases with same | ⟨b, phase, committed⟩
  · exact ⟨c, same.trans hc, .refl c⟩
  · exact ⟨f.checkpoint, committed,
      precedes_checkpoint (ahead (by rw [phase]; rfl) (by rw [phase]; rfl) c hc) regional⟩

namespace Cluster

variable (id : ReplicaId) (settings : VersionSettings)

/-- How a host stands to its last checkpoint. -/
structure Advancing (name : String) (c : Cluster) : Prop where
  prepared : ∀ f, c.feed? id name = some f → f.Prepared
  ahead : ∀ f, c.feed? id name = some f → f.phase.isOver = false → f.Ahead
  regional : ∀ k, (c.data id name).checkpoint = some k → ∀ q ∈ k.realTime,
    q.region ∈ settings.realTimeRegions

/-- What a host took in of the version topic. -/
structure Digesting (name : String) (c : Cluster) : Prop where
  digests : ∀ f, c.feed? id name = some f → f.phase.isOver = false → f.Digests
  keeps : ∀ k, (c.data id name).checkpoint = some k →
    Digested (c.versionRecords id) k.versionOffset (c.data id name) k.Saw
      fun p => p.region ∈ settings.realTimeRegions → k.Passed p

variable {id settings} {c : Cluster} {name : String}

/-! ## Checkpoints never go backwards -/

/-- After an event the checkpoint is nowhere behind the one before. -/
theorem Advancing.precedes (h : c.Advancing id settings name) (sound : c.Sound id settings)
    (e : Event) {k : Checkpoint} (hk : (c.data id name).checkpoint = some k) :
    ∃ k', ((c.happen id settings e).data id name).checkpoint = some k' ∧ k.Precedes k' := by
  cases sound.fate e name with
  | stays _ data => exact ⟨k, by rw [data, hk], .refl k⟩
  | starts _ _ _ data => exact ⟨k, by rw [data, hk], .refl k⟩
  | moves f g _ before _ _ move data =>
    obtain ⟨hid, hsettings⟩ := sound.identity name f before
    rw [← data_of_feed? before hid] at hk
    rw [data]
    refine move.precedes (h.ahead f before) hk ?_
    rw [hsettings]
    exact h.regional k (data_of_feed? before hid ▸ hk)

theorem Advancing.happen (h : c.Advancing id settings name) (sound : c.Sound id settings)
    (e : Event) :
    (c.happen id settings e).Advancing id settings name where
  prepared := sound.prepared_happen h.prepared e
  ahead := by
    refine sound.feed_induction e (fun f hf _ ended => h.ahead f hf ended)
      (fun f g _ before _ move ended => ?_) fun _ _ restored => by cases restored
    have live := move.live ended
    exact (h.ahead f before live).move (h.prepared f before) (sound.flow name f before live)
      (sound.indexed_feed before) move ended
  regional k hk := by
    cases sound.fate e name with
    | stays _ data => exact h.regional k (data ▸ hk)
    | starts _ _ _ data => exact h.regional k (data ▸ hk)
    | moves f g _ before _ _ move data =>
      obtain ⟨hid, hsettings⟩ := sound.identity name f before
      rw [data] at hk
      rcases move.checkpoint_cases with same | ⟨_, _, committed⟩
      · exact h.regional k (data_of_feed? before hid ▸ same ▸ hk)
      · cases committed.symm.trans hk
        intro q hq
        obtain ⟨region, hregion, hq⟩ := List.mem_filterMap.mp hq
        obtain ⟨_, _, rfl⟩ := Option.map_eq_some_iff.mp hq
        exact hsettings ▸ hregion

section Runs

variable {hosts : SortedMap String HostSettings} (created : Cluster.create hosts = .ok c)
  {events : List Event}
include created

theorem Advancing.of_run (events : List Event) (name : String) :
    (c.run id settings events).Advancing id settings name := by
  refine (Sound.of_create created id settings).invariant (P := fun _ _ => True)
    (fun c e sound advancing _ => advancing.happen sound e)
    (along_of_forall fun _ _ _ => trivial) ?_
  exact ⟨fun f hf => by simp [feed?_of_create created] at hf,
    fun f hf => by simp [feed?_of_create created] at hf,
    fun k hk => by simp [data_of_create created, ReplicaData.empty] at hk⟩

/-- From one event of a run to another the checkpoint never goes backwards. -/
theorem precedes_of_le (events : List Event) {n m : Nat} (hle : n ≤ m) {k : Checkpoint}
    (hk : ((c.run id settings (events.take n)).data id name).checkpoint = some k) :
    ∃ k', ((c.run id settings (events.take m)).data id name).checkpoint = some k' ∧
      k.Precedes k' := by
  induction hle with
  | refl => exact ⟨k, hk, .refl k⟩
  | @step m _ ih =>
    obtain ⟨k', hk', precedes⟩ := ih
    cases he : events[m]? with
    | none =>
      rw [run_take_succ_of_none he]
      exact ⟨k', hk', precedes⟩
    | some e =>
      rw [run_take_succ he]
      obtain ⟨k'', hk'', precedes'⟩ := (Advancing.of_run created (events.take m) name).precedes
        (Sound.of_run created id settings _) e hk'
      exact ⟨k'', hk'', precedes.trans precedes'⟩

end Runs

/-! ## Checkpoints describe what was taken in -/

theorem Digesting.keeps_feed (h : c.Digesting id settings name) (sound : c.Sound id settings)
    {f : Feed} (hf : c.feed? id name = some f) : f.KeepsDigested := by
  obtain ⟨hid, hsettings⟩ := sound.identity name f hf
  intro k hk
  rw [sound.versionRecords_feed hf, hsettings, data_of_feed? hf hid]
  exact h.keeps k (data_of_feed? hf hid ▸ hk)

/-- An event in which the replica does not leap keeps taken in what is below its position and its
checkpoint. -/
theorem Digesting.happen (h : c.Digesting id settings name) (sound : c.Sound id settings)
    (prepared : ∀ f, c.feed? id name = some f → f.Prepared) {e : Event}
    (straight : ¬ c.Leaps id settings name e) :
    (c.happen id settings e).Digesting id settings name where
  digests := by
    refine sound.feed_induction e (fun f hf _ ended => ?_) (fun f g _ before after move ended => ?_)
      fun role _ => .of_created rfl fun m => ?_
    · exact (h.digests f hf ended).withLog (sound.flow name f hf ended)
        (log_of_feed? hf ▸ sound.extends_log e)
    · have live := move.live ended
      refine (h.digests f before live).move (sound.kept_feed before) (h.keeps_feed sound before)
        (prepared f before) (sound.flow name f before live) (sound.indexed_feed before) move ended
        fun writing => ?_
      exact Nat.le_of_not_lt fun leapt => straight (leaps_of_feeds before after ⟨writing, leapt⟩)
    · cases m <;> simp [LagTracker.Saw, Feed.create, LagTracker.create]
  keeps k hk := by
    have same : (c.happen id settings e).data id name = c.data id name →
        Digested ((c.happen id settings e).versionRecords id) k.versionOffset
          ((c.happen id settings e).data id name) k.Saw
          fun p => p.region ∈ settings.realTimeRegions → k.Passed p := by
      intro data
      rw [data] at hk ⊢
      exact (h.keeps k hk).extend (sound.extends_log e id.versionTopic) (sound.kept name k hk)
    cases sound.fate e name with
    | stays _ data => exact same data
    | starts _ _ _ data => exact same data
    | moves f g _ before after _ move data =>
      have kept := (h.keeps_feed sound before).move (sound.kept_feed before)
        (sound.flow name f before) (h.digests f before) move k (data ▸ hk)
      rw [(sound.happen e).versionRecords_feed after, move.settings_eq,
        (sound.identity name f before).2, ← data] at kept
      exact kept

section Runs

variable {hosts : SortedMap String HostSettings} (created : Cluster.create hosts = .ok c)
  {events : List Event}
include created

theorem Digesting.of_run
    (straight : c.Along id settings (fun c e => ¬ c.Leaps id settings name e) events) :
    (c.run id settings events).Digesting id settings name := by
  refine ((Sound.of_create created id settings).invariant
    (I := fun c => (∀ f, c.feed? id name = some f → f.Prepared) ∧ c.Digesting id settings name)
    (fun c e sound h straight =>
      ⟨sound.prepared_happen h.1 e, h.2.happen sound h.1 straight⟩) straight ?_).2
  exact ⟨fun f hf => by simp [feed?_of_create created] at hf,
    fun f hf => by simp [feed?_of_create created] at hf,
    fun k hk => by simp [data_of_create created, ReplicaData.empty] at hk⟩

/-- A checkpoint describes the records below it, in every state of a run, if nobody else appends to
the version topic while the replica holds its end. And it never goes backwards, whatever happens. -/
theorem checkpoint_describes :
    (c.Along id settings (Spared id settings Feed.holds name) events →
      ∀ n k, ((c.run id settings (events.take n)).data id name).checkpoint = some k →
        k.Describes ((c.run id settings (events.take n)).versionRecords id)
          ((c.run id settings (events.take n)).data id name) settings.realTimeRegions) ∧
      ∀ n m k, n ≤ m → ((c.run id settings (events.take n)).data id name).checkpoint = some k →
        ∃ k', ((c.run id settings (events.take m)).data id name).checkpoint = some k' ∧
          k.Precedes k' := by
  refine ⟨fun spared n k hk => ?_, fun n m k hle hk => precedes_of_le created events hle hk⟩
  have digesting := Digesting.of_run created (not_leaps_of_spared created (spared.take n))
  have digested := digesting.keeps k hk
  exact {
    within := (Sound.of_run created id settings _).kept name k hk
    stored := digested.stored
    endOfPush := digested.saw_iff .endOfPush (by decide)
    startOfBufferReplay := digested.saw_iff .startOfBufferReplay (by decide)
    passed := digested.passed }

end Runs

/-- The host `a` commits after it published a record. -/
def committed : List Event := ownRecord ++ steps "a" 1

theorem checkpoint_describes_committed : ∃ k,
    ((twoHosts.run sampleId hybridSettings (committed.take 28)).data sampleId "a").checkpoint =
        some k ∧
      k.versionOffset = 2 ∧
      k.Describes
        ((twoHosts.run sampleId hybridSettings (committed.take 28)).versionRecords sampleId)
        ((twoHosts.run sampleId hybridSettings (committed.take 28)).data sampleId "a")
        hybridSettings.realTimeRegions := by
  have hk :
      ((twoHosts.run sampleId hybridSettings (committed.take 28)).data sampleId "a").checkpoint =
      some ⟨2, true, false, [⟨none, 1⟩]⟩ := by decide +kernel
  exact ⟨_, hk, rfl, (checkpoint_describes create_twoHosts).1 (by decide +kernel) 28 _ hk⟩

/-- The host `a` has sampled its target when the start of the buffer replay is appended, and turns
to the real-time topic without having read it. Then nobody else appends. -/
def lateReplay : List Event :=
  .append sampleId.versionTopic (sampleRecord "k" (.control .endOfPush)) ::
    .append (sampleId.realTimeTopic none) (sampleRecord "k" (.put "1".toUTF8)) ::
    .start "a" .leader :: steps "a" 9 ++
    .append sampleId.versionTopic (sampleRecord "l" (.put "2".toUTF8)) :: steps "a" 10 ++
    .append sampleId.versionTopic (sampleRecord "l" (.control .startOfBufferReplay)) :: steps "a" 17

/-- It does not suffice that nobody else appends while the replica reads the real-time topics. -/
theorem misdescribed_lateReplay : ¬ ∀ events,
    twoHosts.Along sampleId hybridSettings
      (Spared sampleId hybridSettings (fun f => !f.phase.isOver && f.consumesRealTime) "a") events →
    ∀ k, ((twoHosts.run sampleId hybridSettings events).data sampleId "a").checkpoint = some k →
      k.Describes ((twoHosts.run sampleId hybridSettings events).versionRecords sampleId)
        ((twoHosts.run sampleId hybridSettings events).data sampleId "a")
        hybridSettings.realTimeRegions := by
  intro describes
  have hk : ((twoHosts.run sampleId hybridSettings lateReplay).data sampleId "a").checkpoint =
      some ⟨4, true, false, [⟨none, 1⟩]⟩ := by decide +kernel
  have replay :
      (((twoHosts.run sampleId hybridSettings lateReplay).versionRecords sampleId)[2]?.bind
      (·.control?)) = some .startOfBufferReplay := by decide +kernel
  obtain ⟨r, hr, hc⟩ := Option.bind_eq_some_iff.mp replay
  have := (describes lateReplay (by decide +kernel) _ hk).startOfBufferReplay.mpr
    ⟨2, r, by decide, hr, hc⟩
  cases this

end Cluster

end StoreFeed
