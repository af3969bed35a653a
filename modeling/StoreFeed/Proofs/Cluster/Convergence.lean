import StoreFeed.Proofs.Cluster.Events
import StoreFeed.Proofs.Replica.Contents

/-!
# Convergence

Whatever roles a host goes through, it stores what the version topic says up to its position, so
hosts at one position store the same. Nobody else may append to the version topic while a leader
holds it, from the sample of its target to its demotion or end; a host that was restarted may be
ahead of its position.
-/

namespace StoreFeed

namespace Cluster

variable (id : ReplicaId) (settings : VersionSettings)

/-- An event appends nothing to the version topic while another host than the one that acts holds
it. -/
def Undisturbed (c : Cluster) (e : Event) : Prop :=
  ∀ name ∈ c.hosts.keys, e.actor? ≠ some name → (c.feed? id name).any Feed.holds →
    ((c.happen id settings e).versionRecords id).length = (c.versionRecords id).length

instance (c : Cluster) (e : Event) : Decidable (c.Undisturbed id settings e) :=
  inferInstanceAs (Decidable (∀ name ∈ c.hosts.keys, _ → _ → _))

/-- How a host stands that started the replica `n` times. -/
structure Converging (n : Nat) (name : String) (c : Cluster) : Prop where
  unstarted : n = 0 → c.feed? id name = none ∧ c.data id name = ReplicaData.empty
  stores : n ≤ 1 → ∀ f, c.feed? id name = some f → f.Stores

variable {id settings} {c : Cluster} {name : String}

/-- An undisturbed event keeps a host converging. -/
theorem Converging.happen {n : Nat} (h : c.Converging id n name) (sound : c.Sound id settings)
    {e : Event} (undisturbed : c.Undisturbed id settings e) :
    (c.happen id settings e).Converging id (n + if e.starts name then 1 else 0) name := by
  cases sound.fate e name with
  | stays feed data log =>
    refine ⟨fun hn => ?_, fun hn g hg => ?_⟩
    · obtain ⟨hfeed, hdata⟩ := h.unstarted (by omega)
      exact ⟨by rw [feed, hfeed]; rfl, data.trans hdata⟩
    · rw [feed, Option.map_eq_some_iff] at hg
      obtain ⟨f, hf, rfl⟩ := hg
      have hlog := log_of_feed? hf
      -- A step of its own that leaves it as it is appends nothing, and no other event appends to
      -- the version topic while it holds it.
      refine (h.stores (by omega) f hf).withLog (sound.flow name f hf) (sound.indexed_feed hf)
        (hlog ▸ sound.extends_log e) fun holds => ?_
      rw [Feed.versionRecords, hlog, (sound.identity name f hf).1]
      by_cases hactor : e.actor? = some name
      · rw [log (Event.actor?_eq_some hactor)]
      · refine sound.versionRecords_eq (undisturbed name (mem_keys_of_feed? hf) hactor ?_)
        rw [hf]
        exact holds
  | moves f g event before after alive move =>
    have hstarts : e.starts name = false := by rw [event]; rfl
    rw [hstarts]
    refine ⟨fun hn => ?_, fun hn g' hg => ?_⟩
    · have := (h.unstarted hn).1
      rw [before] at this
      cases this
    · rw [after, Option.some.injEq] at hg
      subst hg
      exact (h.stores hn f before).move (sound.flow name f before) (sound.kept_feed before)
        (sound.indexed_feed before) alive move
  | starts role event feed data =>
    have hstarts : e.starts name = true := by rw [event]; simp [Event.starts]
    rw [hstarts]
    refine ⟨fun hn => by simp at hn, fun hn g hg => ?_⟩
    -- The first start finds nothing stored, so the new feed agrees with the empty replay.
    have hempty := (h.unstarted (by simpa using hn)).2
    rw [feed, Option.some.injEq, hempty] at hg
    subst hg
    exact .of_faithful (.of_created rfl rfl rfl rfl rfl rfl) (.of_created rfl rfl rfl rfl rfl rfl)

/-- An undisturbed run keeps a host converging. -/
theorem Converging.run {n : Nat} (h : c.Converging id n name) (sound : c.Sound id settings)
    {events : List Event} (undisturbed : c.Along id settings (Undisturbed id settings) events) :
    (c.run id settings events).Converging id (n + events.countP (Event.starts name)) name := by
  induction events generalizing c n with
  | nil => exact h
  | cons e rest ih =>
    have := ih (h.happen sound undisturbed.1) (sound.happen e) undisturbed.2
    rw [List.countP_cons, ← Nat.add_assoc, Nat.add_right_comm]
    exact this

/-- The replica of a host in a run that did not restart it. -/
structure Unbroken (c : Cluster) (id : ReplicaId) (events : List Event)
    (name : String) (run : Run) :
    Prop where
  replica : c.replica? id name = some run
  once : events.countP (Event.starts name) ≤ 1

/-- A host that was not restarted stores what the version topic says up to its position, in whatever
roles it wrote it and even if it was halted by an error; an overflow may have ended its task right
after one more record was written. So hosts at one position store the same. -/
theorem contents_eq_replay {hosts : SortedMap String HostSettings}
    (created : Cluster.create hosts = .ok c) (events : List Event)
    (undisturbed : c.Along id settings (Undisturbed id settings) events) :
    (∀ name run, Unbroken (c.run id settings events) id events name run →
      ∃ n ≤ ((c.run id settings events).versionRecords id).length,
        (n = run.replica.tracker.versionPosition ∨
          run.replica.phase = .killed ∧ n = run.replica.tracker.versionPosition + 1) ∧
        replay settings.schema (((c.run id settings events).versionRecords id).take n) =
          .ok (run.site.storage.data id).values) ∧
      ∀ name name' run run', Unbroken (c.run id settings events) id events name run →
        Unbroken (c.run id settings events) id events name' run' →
        run.replica.phase ≠ .killed → run'.replica.phase ≠ .killed →
        run.replica.tracker.versionPosition = run'.replica.tracker.versionPosition →
          (run.site.storage.data id).values = (run'.site.storage.data id).values := by
  have contents : ∀ name run, Unbroken (c.run id settings events) id events name run →
      ∃ n ≤ ((c.run id settings events).versionRecords id).length,
        (n = run.replica.tracker.versionPosition ∨
          run.replica.phase = .killed ∧ n = run.replica.tracker.versionPosition + 1) ∧
        replay settings.schema (((c.run id settings events).versionRecords id).take n) =
          .ok (run.site.storage.data id).values := by
    rintro name run ⟨hrun, once⟩
    have converging : c.Converging id 0 name :=
      ⟨fun _ => ⟨feed?_of_create created id name, data_of_create created id name⟩,
        fun _ f hf => by simp [feed?_of_create created] at hf⟩
    have sound := Sound.of_run created id settings events
    have hf : (c.run id settings events).feed? id name = some run.feed := by simp [feed?, hrun]
    obtain ⟨hid, hsettings⟩ := sound.identity name _ hf
    have stores := (converging.run (.of_create created id settings) undisturbed).stores
      (by simpa using once) run.feed hf
    obtain ⟨n, hle, hn, hreplay⟩ := stores.contents
    have hdata : run.site.storage.data id = run.feed.data := by
      rw [← hid]
      rfl
    rw [sound.versionRecords_feed hf] at hle hreplay
    rw [hsettings] at hreplay
    exact ⟨n, hle, hn, hdata ▸ hreplay⟩
  refine ⟨contents, fun name name' run run' hrun hrun' alive alive' heq => ?_⟩
  obtain ⟨n, _, rfl | ⟨killed, _⟩, h⟩ := contents name run hrun
  -- Neither task was killed, so both positions are the replayed lengths.
  · obtain ⟨n', _, rfl | ⟨killed', _⟩, h'⟩ := contents name' run' hrun'
    · rw [heq] at h
      exact Except.ok.inj (h.symm.trans h')
    · exact absurd killed' alive'
  · exact absurd killed alive

/-- The host `a` leads and publishes a record again, the host `b` reads what it published. -/
def leaderAndStandby : List Event :=
  .append sampleId.versionTopic (sampleRecord "k" (.control .endOfPush)) ::
    .append (sampleId.realTimeTopic none) (sampleRecord "k" (.put "1".toUTF8)) ::
    .start "a" .leader :: steps "a" 36 ++ .start "b" .standby :: steps "b" 10

theorem contents_eq_replay_leaderAndStandby :
    ∃ run run', (twoHosts.run sampleId hybridSettings leaderAndStandby).replica? sampleId "a" =
        some run ∧
      (twoHosts.run sampleId hybridSettings leaderAndStandby).replica? sampleId "b" = some run' ∧
      run.replica.role = .leader ∧ run'.replica.role = .standby ∧
      run.replica.tracker.versionPosition = 2 ∧
      (run.site.storage.data sampleId).values = (run'.site.storage.data sampleId).values := by
  have alive : ∀ run : Run, run.replica.phase.isOver = false → run.replica.phase ≠ .killed := by
    intro run ended killed
    rw [killed] at ended
    cases ended
  refine ⟨((twoHosts.run sampleId hybridSettings leaderAndStandby).replica? sampleId "a").get
      (by decide +kernel),
    ((twoHosts.run sampleId hybridSettings leaderAndStandby).replica? sampleId "b").get
      (by decide +kernel), (Option.some_get _).symm, (Option.some_get _).symm, by decide +kernel,
    by decide +kernel, by decide +kernel, ?_⟩
  refine (contents_eq_replay create_twoHosts leaderAndStandby (by decide +kernel)).2 "a" "b" _ _
    ⟨(Option.some_get _).symm, by decide⟩ ⟨(Option.some_get _).symm, by decide⟩
    (alive _ (by decide +kernel)) (alive _ (by decide +kernel)) (by decide +kernel)

end Cluster

end StoreFeed
