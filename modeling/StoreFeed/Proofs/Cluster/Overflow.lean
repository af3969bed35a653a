import StoreFeed.Proofs.Cluster.Skipping
import StoreFeed.Proofs.Replica.Overflow
import StoreFeed.Proofs.Replica.Backoff

/-!
# Arithmetic in a run

In a run of a cluster, whose hosts keep their settings, no replica samples an end behind its topic,
no pause is longer than the settings of its host say, and no record lies behind the end of its topic
(`Cluster.Measured`). So as long as the log holds no more records than can be counted, a step is
broken off by an overflow for one of two reasons only, both of them numbers that nobody else checks:
how far back a leader goes, and the offset that a record of the version topic was stamped with.
-/

namespace StoreFeed

open Decimal (maxWord64)

theorem Backoff.Of.double_le {host : HostSettings} {b : Backoff} (h : b.Of host)
    (initial : host.initialBackoff ≤ maxWord64) (limit : host.maxBackoff ≤ maxWord64) :
    2 * b.current ≤ Backoff.longest := by
  have current : b.current ≤ maxWord64 := Nat.le_trans h.current (Nat.max_le.mpr ⟨initial, limit⟩)
  unfold Backoff.longest
  omega

/-- A host has the settings that it was put together with; its replica pauses as they say, and
sampled no end behind a real-time topic. -/
structure Host.Measured (id : ReplicaId) (log : Log) (s : HostSettings) (host : Host) : Prop where
  settings : host.site.settings = s
  paced : ∀ r, host.replicas.find? id = some r → r.Paced s
  sampled : ∀ r, host.replicas.find? id = some r → ∀ region n,
    r.tracker.realTimeEnds.find? region = some n →
      n ≤ (log.records (id.realTimeTopic region)).length

theorem Host.Measured.mono {id : ReplicaId} {log log' : Log} {s : HostSettings} {host : Host}
    (h : host.Measured id log s) (grown : log.Extends log') : host.Measured id log' s :=
  ⟨h.settings, h.paced, fun r hr region n known =>
    Nat.le_trans (h.sampled r hr region n known) (grown _).length_le⟩

namespace Cluster

variable (id : ReplicaId) (hosts : SortedMap String HostSettings) in
/-- All hosts are as their settings say. -/
def Measured (c : Cluster) : Prop := ∀ name host, c.hosts.find? name = some host →
  ∃ settings, hosts.find? name = some settings ∧ host.Measured id c.commons.log settings

/-- No step is taken that exceeds what can be counted. -/
def Within (id : ReplicaId) (c : Cluster) (e : Event) : Prop :=
  ∀ name run, e.actor? = some name → c.replica? id name = some run → ¬ run.Exceeds

variable {id : ReplicaId} {settings : VersionSettings} {hosts : SortedMap String HostSettings}
  {c : Cluster} {name : String} {run : Run}

namespace Measured

theorem withLog (h : c.Measured id hosts) {commons : Commons}
    (grown : c.commons.log.Extends commons.log) :
    Measured id hosts { c with commons } := by
  intro name host hh
  obtain ⟨settings, hs, measured⟩ := h name host hh
  exact ⟨settings, hs, measured.mono grown⟩

theorem putBack (h : c.Measured id hosts) {s : HostRun}
    (grown : c.commons.log.Extends s.commons.log)
    (back : ∃ settings, hosts.find? name = some settings ∧
      s.host.Measured id s.commons.log settings) :
    (c.putBack name s).Measured id hosts := by
  intro other host hh
  by_cases same : other = name
  · subst same
    rw [Cluster.putBack, SortedMap.find?_insert_self] at hh
    cases hh
    exact back
  · rw [Cluster.putBack, SortedMap.find?_insert_of_ne _ same] at hh
    obtain ⟨settings, hs, measured⟩ := h other host hh
    exact ⟨settings, hs, measured.mono grown⟩

/-- What the next step of a replica reckons with is in range. -/
theorem ranges (h : c.Measured id hosts) (sound : c.Sound id settings)
    (held : c.commons.log.size ≤ maxWord64) (hr : c.replica? id name = some run) :
    ∃ settings, hosts.find? name = some settings ∧ run.Ranges settings := by
  obtain ⟨host, hh, hreplica, hrun⟩ := find?_of_replica? hr
  obtain ⟨settings, hs, measured⟩ := h name host hh
  have hf := feed?_of_replica? hr
  have hid := (sound.identity name _ hf).1
  have indexed := sound.indexed_feed hf
  have hlog := log_of_feed? hf
  have within : ∀ {tp : TopicPartition} {n : Nat}, n < (run.feed.log.records tp).length →
      n < maxWord64 := by
    intro tp n hn
    rw [hlog] at hn
    exact Nat.lt_of_lt_of_le hn (Nat.le_trans (c.commons.log.length_le_size tp) held)
  have flow : ∀ w, run.replica.phase = .working w → run.feed.Flow := fun w hp =>
    sound.flow name _ hf (by rw [show run.feed.phase = .working w from hp]; rfl)
  refine ⟨settings, hs, ?_, ?_, measured.paced _ hreplica, fun w hp => ?_,
    fun w value offset hp hw realTime => ?_⟩
  · exact Nat.le_trans (id.total_ends_le (measured.sampled _ hreplica)) held
  · rw [hrun]
    exact measured.settings
  · by_cases version : run.feed.readsVersion w
    · obtain ⟨_, _, record, position⟩ := (flow w hp).version indexed hp version
      rw [position]
      exact within (List.getElem?_eq_some_iff.mp record).1
    · obtain ⟨_, _, _, _, _, record⟩ := (flow w hp).realTime indexed hp version
      exact within (List.getElem?_eq_some_iff.mp record).1
  · have fits := (flow w hp).fits w hp
    unfold Feed.Fits at fits
    rw [hw] at fits
    exact within (fits realTime)

/-- A replica acts, and leaves its pauses and ends in range. -/
theorem onReplica (h : c.Measured id hosts) (sound : c.Sound id settings) {f : Run → Run}
    (grown : c.commons.log.Extends (c.onReplica id name f).commons.log)
    (leaves : ∀ run settings, c.replica? id name = some run → hosts.find? name = some settings →
      run.site.settings = settings → run.replica.Paced settings → run.Leaves settings (f run)) :
    (c.onReplica id name f).Measured id hosts := by
  cases hr : c.replica? id name with
  | none => rw [onReplica_of_none f hr]; exact h
  | some run =>
    obtain ⟨host, hh, hreplica, hrun⟩ := find?_of_replica? hr
    obtain ⟨settings, hs, measured⟩ := h name host hh
    have left := leaves run settings hr hs (by rw [hrun]; exact measured.settings)
      (measured.paced _ hreplica)
    have hid : run.replica.id = id := (sound.identity name run.feed (feed?_of_replica? hr)).1
    have hcommons : run.commons = c.commons := by rw [hrun]
    rw [commons_onReplica hr] at grown
    rw [onReplica_of_some f hh hreplica, ← hrun]
    refine h.putBack grown ⟨settings, hs, left.settings, fun r hr' => ?_,
      fun r hr' region n known => ?_⟩
    · simp only [HostRun.modifyTable, SortedMap.find?_insert_self, Option.some.injEq] at hr'
      exact hr' ▸ left.paced
    · simp only [HostRun.modifyTable, SortedMap.find?_insert_self, Option.some.injEq] at hr'
      subst hr'
      rcases left.ends region n known with before | rfl
      · exact Nat.le_trans (measured.sampled _ hreplica region n before) (grown _).length_le
      · rw [hid, hcommons]
        exact (grown _).length_le

theorem onSite (h : c.Measured id hosts) {f : Site → Site}
    (same : ∀ s, (f s).settings = s.settings) :
    (c.onSite name f).Measured id hosts := by
  unfold Cluster.onSite
  split
  · exact h
  · rename_i host hh
    obtain ⟨settings, hs, measured⟩ := h name host hh
    exact h.putBack (.refl _)
      ⟨settings, hs, (same _).trans measured.settings, measured.paced, measured.sampled⟩

/-- Every event leaves all hosts as their settings say. -/
theorem happen (h : c.Measured id hosts) (sound : c.Sound id settings)
    (held : c.commons.log.size ≤ maxWord64) (e : Event) :
    (c.happen id settings e).Measured id hosts := by
  have grown := sound.extends_log e
  cases e with
  | step target =>
    refine h.onReplica sound grown fun run host hr hs _ _ => ?_
    obtain ⟨host', hs', ranges⟩ := h.ranges sound held hr
    cases hs.symm.trans hs'
    exact Run.leaves_step ranges
  | start target role =>
    simp only [Cluster.happen]
    split
    · exact h
    · rename_i host hh
      obtain ⟨settings', hs, measured⟩ := h target host hh
      have created : ∀ r,
          (HostRun.launch ⟨host, c.commons⟩ id settings role).host.replicas.find? id = some r →
            r = Replica.create id settings role host.site.settings c.commons.now := by
        intro r hr
        simpa [HostRun.launch, HostRun.modifyTable, HostRun.countActive, HostRun.modifyStats,
          eq_comm] using hr
      refine h.putBack (.refl _)
        ⟨settings', hs, measured.settings, fun r hr => ?_, fun r hr region n known => ?_⟩
      · rw [created r hr, measured.settings]
        exact ⟨Backoff.of_ofSettings _, fun b hb => by cases hb⟩
      · rw [created r hr] at known
        cases known
  | tell target command =>
    exact h.onReplica sound grown fun run host _ _ hs paced => ⟨hs, paced, fun _ _ => .inl⟩
  | release target =>
    exact h.onReplica sound grown fun run host _ _ hs paced => ⟨hs, paced, fun _ _ => .inl⟩
  | append tp record => exact h.withLog grown
  | setAvailable available => exact h.withLog grown
  | setTime now => exact h.withLog grown
  | failWrites target offset times => exact h.onSite fun _ => rfl
  | plan target op fault => exact h.onSite fun _ => rfl

end Measured

/-- A step that stays in range ends no task by an overflow, and no other event does. -/
theorem alive_happen (h : c.Measured id hosts) (sound : c.Sound id settings)
    (held : c.commons.log.size ≤ maxWord64) {e : Event} (within : c.Within id e) {name : String}
    (alive : ∀ f, c.feed? id name = some f → f.phase ≠ .killed) :
    ∀ f, (c.happen id settings e).feed? id name = some f → f.phase ≠ .killed := by
  refine sound.feed_induction e (fun f hf _ => alive f hf) (fun f g event before after _ => ?_)
    fun _ => Phase.noConfusion
  subst event
  obtain ⟨run, hr, rfl⟩ := exists_run_of_feed? before
  cases after.symm.trans (feed?_step hr)
  obtain ⟨_, _, ranges⟩ := h.ranges sound held hr
  exact Run.ne_killed_step ranges (alive _ before) (within name run rfl hr)

section Runs

variable (created : Cluster.create hosts = .ok c)
include created

theorem Measured.of_create (id : ReplicaId) : c.Measured id hosts := by
  intro name host hh
  obtain ⟨s, hs, hbuild⟩ := build_of_create created hh
  obtain ⟨_, rfl⟩ := eq_of_build hbuild
  exact ⟨s, hs, rfl, fun r hr => by simp at hr, fun r hr => by simp at hr⟩

/-- In a run whose log can be counted all hosts are as their settings say. -/
theorem measured (events : List Event)
    (held : (c.run id settings events).commons.log.size ≤ maxWord64) :
    (c.run id settings events).Measured id hosts := by
  refine (Sound.of_create created id settings).invariant (P := fun _ _ => True)
    (I := fun c => c.commons.log.size ≤ maxWord64 → c.Measured id hosts)
    (fun c e sound measured _ held => ?_) (along_of_forall fun _ _ _ => trivial)
    (fun _ => .of_create created id) held
  have before := Nat.le_trans (sound.extends_log e).size_le held
  exact (measured before).happen sound before e

/-- In a run in which no step exceeds what can be counted, no task is ended by an overflow. -/
theorem alive_of_within (events : List Event)
    (held : (c.run id settings events).commons.log.size ≤ maxWord64)
    (within : c.Along id settings (Within id) events) (name : String) :
    ∀ f, (c.run id settings events).feed? id name = some f → f.phase ≠ .killed := by
  refine ((Sound.of_create created id settings).invariant (P := Within id)
    (I := fun c => c.commons.log.size ≤ maxWord64 →
      c.Measured id hosts ∧ ∀ f, c.feed? id name = some f → f.phase ≠ .killed)
    (fun c e sound kept within held => ?_) within
    (fun _ => ⟨.of_create created id, fun f hf => ?_⟩) held).2
  · have before := Nat.le_trans (sound.extends_log e).size_le held
    obtain ⟨measured, alive⟩ := kept before
    exact ⟨measured.happen sound before e, alive_happen measured sound before within alive⟩
  · rw [feed?_of_create created] at hf
    cases hf

/-- What a step needs of arithmetic, in every run whose log can be counted, on hosts with pauses of
64 bits. It is broken off by an overflow if and only if it exceeds what can be counted. One that
seeks the start of a partition asks for it as far back as the settings say, or is broken off, and no
other step asks. Twice a pause is a time span. And in a run in which no step exceeds what can be
counted, no task is ended by an overflow. -/
theorem overflows_iff_exceeds (wide : ∀ name host, hosts.find? name = some host →
      host.initialBackoff ≤ maxWord64 ∧ host.maxBackoff ≤ maxWord64)
    (id : ReplicaId) (settings : VersionSettings) (events : List Event)
    (held : (c.run id settings events).commons.log.size ≤ maxWord64) :
    (c.Along id settings (Within id) events → ∀ name run,
      (c.run id settings events).replica? id name = some run → run.replica.phase ≠ .killed) ∧
    ∀ name run, (c.run id settings events).replica? id name = some run →
      (run.Overflows ↔ run.Exceeds) ∧
      (∀ tp, run.Seeks tp → run.Overflows ∨ run.step.asked =
        (tp, run.commons.now - settings.rewindSeconds * 1000) :: run.asked) ∧
      ((∀ tp, ¬ run.Seeks tp) → run.step.asked = run.asked) ∧
      ∀ b, b = run.replica.backoff ∨ run.replica.phase.backoff? = some b →
        2 * b.current ≤ Backoff.longest := by
  refine ⟨fun within name run hr => ?_, fun name run hr => ?_⟩
  · exact alive_of_within created events held within name run.feed (feed?_of_replica? hr)
  · have sound := Sound.of_run created id settings events
    obtain ⟨host, hh, ranges⟩ := (measured created events held).ranges sound held hr
    have same : run.replica.settings = settings :=
      (sound.identity name run.feed (feed?_of_replica? hr)).2
    obtain ⟨initial, limit⟩ := wide name host hh
    refine ⟨Run.overflows_iff ranges, fun tp seeks => ?_, Run.asked_step_of_not_seeks ranges, ?_⟩
    · rw [← same]
      rcases Nat.lt_or_ge maxWord64 (run.replica.settings.rewindSeconds * 1000) with far | near
      · exact .inl ((Run.overflows_iff ranges).mpr (.rewind tp seeks far))
      · exact .inr (Run.asked_step_of_seeks ranges seeks near)
    · rintro b (rfl | hb)
      · exact ranges.paced.1.double_le initial limit
      · exact (ranges.paced.2 b hb).double_le initial limit

end Runs

/-! ## How far back

A leader that has caught up seeks the start of the real-time topic. An hour back is in range;
seconds that settings may ask for are not, once they are milliseconds. -/

/-- A leader is past the end of the push, and about to turn to the real-time topic. -/
def turns : List Event :=
  .append sampleId.versionTopic (sampleRecord "k" (.control .endOfPush)) ::
    .start "a" .leader :: steps "a" 16

/-- An hour back is in range, and no step of the leader exceeds what can be counted. -/
theorem overflows_iff_exceeds_turns :
    (∀ name host, (SortedMap.ofList [("a", HostSettings.standard), ("b", .standard)]).find? name =
      some host →
      host.initialBackoff ≤ maxWord64 ∧ host.maxBackoff ≤ maxWord64) ∧
    twoHosts.Along sampleId hybridSettings (Within sampleId) turns ∧
    ∃ run, (twoHosts.run sampleId hybridSettings turns).replica? sampleId "a" = some run ∧
      run.replica.phase ≠ .killed ∧ ¬ run.Exceeds ∧ run.Seeks (sampleId.realTimeTopic none) ∧
      run.step.asked = (sampleId.realTimeTopic none, startTime - 3600000) :: run.asked ∧
      2 * run.replica.backoff.current ≤ Backoff.longest := by
  have wide : ∀ name host,
      (SortedMap.ofList [("a", HostSettings.standard), ("b", .standard)]).find? name = some host →
      host.initialBackoff ≤ maxWord64 ∧ host.maxBackoff ≤ maxWord64 := by
    intro name host hh
    have among := SortedMap.mem_of_find?_ofList hh
    simp only [List.mem_cons, Prod.mk.injEq, List.not_mem_nil, or_false] at among
    rcases among with ⟨_, rfl⟩ | ⟨_, rfl⟩ <;> decide
  have counts : ∀ n ≤ 18,
      (twoHosts.run sampleId hybridSettings (turns.take n)).commons.log.size ≤ maxWord64 := by
    decide +kernel
  have unbroken : ∀ n < 18,
      ((twoHosts.run sampleId hybridSettings (turns.take n)).replica? sampleId "a").all
      (fun run => !decide run.Overflows) = true := by decide +kernel
  -- What exceeds would overflow, and that is decided for each of the steps.
  have within : twoHosts.Along sampleId hybridSettings (Within sampleId) turns := by
    refine along_of_forall fun n e he name run acts hr exceeds => ?_
    have hn : n < 18 := (List.getElem?_eq_some_iff.mp he).1
    have overflows :=
      ((overflows_iff_exceeds create_twoHosts wide sampleId hybridSettings (turns.take n)
      (counts n (Nat.le_of_lt hn))).2 name run hr).1.mpr exceeds
    obtain rfl := Event.actor?_eq_some acts
    have host : name = "a" := by simpa [turns, Cluster.steps] using List.mem_of_getElem? he
    have fine := unbroken n hn
    rw [← host, hr] at fine
    simp [overflows] at fine
  have reached :
      ((twoHosts.run sampleId hybridSettings turns).replica? sampleId "a").map (fun run =>
      (decide run.Overflows, decide (run.Seeks (sampleId.realTimeTopic none)), run.commons.now)) =
        some (false, true, startTime) := by decide +kernel
  obtain ⟨run, hr, h⟩ := Option.map_eq_some_iff.mp reached
  obtain ⟨fine, seeks, now⟩ : decide run.Overflows = false ∧
      decide (run.Seeks (sampleId.realTimeTopic none)) = true ∧ run.commons.now = startTime := by
    simpa only [Prod.mk.injEq] using h
  obtain ⟨alive, reckoned⟩ :=
    overflows_iff_exceeds create_twoHosts wide sampleId hybridSettings turns
      (counts 18 (Nat.le_refl _))
  obtain ⟨iff, sought, _, pauses⟩ := reckoned "a" run hr
  have fine := of_decide_eq_false fine
  have seeks := of_decide_eq_true seeks
  refine ⟨wide, within, run, hr, alive within "a" run hr, fun exceeds =>
    fine (iff.mpr exceeds), seeks, ?_, pauses _ (.inl rfl)⟩
  rw [(sought _ seeks).resolve_left fine, now]
  rfl

/-- A leader without a position goes back further than milliseconds can be counted. -/
def farSettings : VersionSettings :=
  { VersionSettings.standard with hybrid := some ⟨18446744073709552, 100⟩ }

/-- A standby is about to finish a record that is stamped with the last offset. -/
def stamps : List Event :=
  .append sampleId.versionTopic
      { sampleRecord "k" (.put "1".toUTF8) with origin := some ⟨none, maxWord64⟩ } ::
    .start "a" .standby :: steps "a" 8

/-- Settings that are valid, and a record, end a task. -/
theorem overflows_unchecked :
    (farSettings.validate = .ok () ∧
      ∃ run, (twoHosts.run sampleId farSettings turns).replica? sampleId "a" = some run ∧
        run.replica.phase ≠ .killed ∧ run.Overflows ∧ run.step.replica.phase = .killed) ∧
    ∃ run, (twoHosts.run sampleId hybridSettings stamps).replica? sampleId "a" = some run ∧
      run.replica.phase ≠ .killed ∧ run.Overflows ∧ run.step.replica.phase = .killed := by
  have breaks : ∀ {settings : VersionSettings} {events : List Event},
      ((twoHosts.run sampleId settings events).replica? sampleId "a").map
        (fun run => (run.replica.isFinished, decide run.Overflows)) = some (false, true) →
      ∃ run, (twoHosts.run sampleId settings events).replica? sampleId "a" = some run ∧
        run.replica.phase ≠ .killed ∧ run.Overflows ∧ run.step.replica.phase = .killed := by
    intro settings events reached
    obtain ⟨run, hr, h⟩ := Option.map_eq_some_iff.mp reached
    obtain ⟨alive, breaks⟩ := Prod.mk.inj h
    have overflows := of_decide_eq_true breaks
    refine ⟨run, hr, fun killed => ?_, overflows, Run.phase_step_of_overflows overflows⟩
    rw [Replica.isFinished, killed] at alive
    cases alive
  exact ⟨⟨rfl, breaks (by decide +kernel)⟩, breaks (by decide +kernel)⟩

end Cluster

end StoreFeed
