import StoreFeed.Proofs.Host.Bookkeeping

/-!
# Shutting down

A shutdown empties the table, tells one replica after the other to stop, and waits for it. The first
one whose task did not end by itself is the last one that it waits for: those behind it are let go
without being told to stop, and are counted on (`shutdown_until_failure`). So no shutdown is
complete but one in which nobody fails to stop, or only the last.
-/

namespace StoreFeed

/-- No replica is started or given up while one runs until it waits. -/
theorem Run.settle_active {run : Run} (sound : run.site.stats.Sound) :
    run.settle.site.stats.Sound ∧
      run.settle.commons.metrics.active = run.commons.metrics.active := by
  obtain ⟨n, hn⟩ := Hosting.settle_eq_iterate run
  rw [hn]
  clear hn
  induction n generalizing run with
  | zero => exact ⟨sound, rfl⟩
  | succ n ih =>
    have settles := Run.step_settles sound
    obtain ⟨sound', active⟩ := ih settles.sound
    exact ⟨sound', active.trans settles.active⟩

namespace Hosting

/-- A host once its table was emptied. -/
def emptied (s : HostRun) : HostRun := s.modifyTable fun _ => SortedMap.empty

/-- A host once some replicas were told to stop and waited for, whatever came of it. -/
def joinEach (s : HostRun) : List Replica → HostRun
  | [] => s
  | r :: rest => joinEach (s.join r).2 rest

/-- Some replicas end by themselves when they are told to stop one after the other. -/
def AllEnd (s : HostRun) : List Replica → Prop
  | [] => True
  | r :: rest => (s.join r).1 = .ok () ∧ AllEnd (s.join r).2 rest

/-! ## Waiting -/

theorem withRoom_active (run : Run) (sound : run.site.stats.Sound) :
    (withRoom run).site.stats.Sound ∧
    (withRoom run).commons.metrics.active = run.commons.metrics.active := by
  unfold withRoom
  split
  · exact Run.settle_active sound
  · exact ⟨sound, rfl⟩

theorem delivered_active (c : Command) (run : Run) : (delivered c run).site = run.site ∧
    (delivered c run).commons = run.commons := by
  unfold delivered
  split <;> exact ⟨rfl, rfl⟩

/-- Who is waited for is counted no more. -/
theorem join_active {s : HostRun} (sound : s.host.site.stats.Sound) (r : Replica) :
    (s.join r).2.host.site.stats.Sound ∧
      (s.join r).2.commons.metrics.active = s.commons.metrics.active - 1 := by
  obtain ⟨sound, active⟩ := withRoom_active ⟨r, s.host.site, s.commons⟩ sound
  obtain ⟨site, commons⟩ := delivered_active .stop (withRoom ⟨r, s.host.site, s.commons⟩)
  rw [← site] at sound
  rw [← commons] at active
  obtain ⟨sound, active'⟩ := Run.settle_active sound
  unfold HostRun.join
  rw [deliver_eq]
  exact ⟨sound, congrArg (· - 1) (active'.trans active)⟩

theorem detached_join (s : HostRun) (r : Replica) :
    (s.join r).2.host.detached = s.host.detached := by
  unfold HostRun.join
  rw [deliver_eq]
  rfl

theorem joinEach_active {s : HostRun} (sound : s.host.site.stats.Sound) (rs : List Replica) :
    (joinEach s rs).commons.metrics.active = s.commons.metrics.active - rs.length := by
  induction rs generalizing s with
  | nil => exact (Int.sub_zero _).symm
  | cons r rest ih =>
    obtain ⟨sound', active⟩ := join_active sound r
    rw [joinEach, ih sound', active, List.length_cons]
    omega

theorem detached_joinEach (s : HostRun) (rs : List Replica) :
    (joinEach s rs).host.detached = s.host.detached := by
  induction rs generalizing s with
  | nil => rfl
  | cons r rest ih => exact (ih _).trans (detached_join s r)

theorem replicas_joinEach (s : HostRun) (rs : List Replica) :
    (joinEach s rs).host.replicas = s.host.replicas := by
  induction rs generalizing s with
  | nil => rfl
  | cons r rest ih => exact (ih _).trans (join_cases s r).2

/-- Replicas are waited for one after the other, up to the first that does not end by itself. -/
theorem joinAll_split (s : HostRun) (rs : List Replica) : ∃ awaited left, rs = awaited ++ left ∧
    (s.joinAll rs).2 = letGo (joinEach s awaited) left ∧
    ((s.joinAll rs).1 = .ok () ↔ AllEnd s rs) ∧ (left = [] ↔ AllEnd s rs.dropLast) := by
  induction rs generalizing s with
  | nil =>
    refine ⟨[], [], rfl, ?_, iff_of_true rfl trivial, iff_of_true rfl trivial⟩
    simp [HostRun.joinAll, letGo, joinEach]
  | cons r rest ih =>
    rcases (join_cases s r).1 with joined | failed
    · obtain ⟨awaited, left, rfl, run, answer, complete⟩ := ih (s.join r).2
      refine ⟨r :: awaited, left, rfl, ?_, ?_, ?_⟩
      · rw [joinAll_of_ok _ joined]
        exact run
      · rw [joinAll_of_ok _ joined, answer]
        exact ⟨fun ends => ⟨joined, ends⟩, And.right⟩
      · rw [complete]
        cases awaited ++ left with
        | nil => exact Iff.rfl
        | cons r' rest => exact ⟨fun ends => ⟨joined, ends⟩, And.right⟩
    · have unended : ∀ later, ¬ AllEnd s (r :: later) := by
        rintro later ⟨ends, -⟩
        rw [failed] at ends
        cases ends
      rw [joinAll_of_error rest failed]
      refine ⟨[r], rest, rfl, rfl, iff_of_false (fun ok => by cases ok) (unended rest), ?_⟩
      cases rest with
      | nil => exact iff_of_true rfl trivial
      | cons r' rest => exact iff_of_false (List.cons_ne_nil r' rest) (unended _)

/-! ## The whole table -/

/-- What a shutdown does that waits for some replicas, in the order in which they come, and leaves
others. -/
structure ShutDown (s : HostRun) (order awaited left : List Replica) : Prop where
  split : order = awaited ++ left
  run : (s.shutdownIn order).2 = letGo (joinEach (emptied s) awaited) left
  answer : (s.shutdownIn order).1 = .ok () ↔ AllEnd (emptied s) order
  table : (s.shutdownIn order).2.host.replicas = SortedMap.empty
  /-- Who is left was not told to stop, only that nobody can tell it any more. -/
  detached : (s.shutdownIn order).2.host.detached =
    s.host.detached ++ left.map fun r => { r with connected := false }
  active : (s.shutdownIn order).2.commons.metrics.active =
    s.commons.metrics.active - s.host.replicas.size + left.length
  complete : left = [] ↔ AllEnd (emptied s) order.dropLast

/-- In whatever order the table is emptied, and whatever becomes of the tasks: a shutdown tells the
replicas to stop and waits for them up to the first that does not end by itself. All behind it are
left, and counted on. So it is complete exactly if all but the last replica end by themselves. -/
theorem shutdown_until_failure (s : HostRun) (sound : s.host.site.stats.Sound)
    (order : List Replica) (drained : order.Perm s.host.replicas.values) :
    ∃ awaited left, ShutDown s order awaited left := by
  obtain ⟨awaited, left, split, run, answer, complete⟩ := joinAll_split (emptied s) order
  refine ⟨awaited, left, split, run, answer, ?_, ?_, ?_, complete⟩
  · show ((emptied s).joinAll order).2.host.replicas = _
    rw [run]
    exact replicas_joinEach (emptied s) awaited
  · show ((emptied s).joinAll order).2.host.detached = _
    rw [run]
    exact congrArg (· ++ _) (detached_joinEach (emptied s) awaited)
  · show ((emptied s).joinAll order).2.commons.metrics.active = _
    rw [run]
    have counted : (joinEach (emptied s) awaited).commons.metrics.active =
        s.commons.metrics.active - awaited.length := joinEach_active (s := emptied s) sound awaited
    have size : s.host.replicas.size = awaited.length + left.length := by
      rw [← List.length_append, ← split, drained.length_eq]
      exact (List.length_map _).symm
    show (joinEach (emptied s) awaited).commons.metrics.active = _
    rw [counted, size]
    omega

/-- The second partition of the sample. -/
def secondId : ReplicaId := { Cluster.sampleId with partition := 1 }

/-- A record whose origin has no offset behind it. -/
def lastRecord : ChangeRecord :=
  { Cluster.sampleRecord "k" (.put "1".toUTF8) with origin := some ⟨none, Decimal.maxWord64⟩ }

/-- Two replicas run into an overflow, which ends their tasks. -/
def twoKilled : Hosting :=
  after (opened .standard Cluster.twoHosts.commons) <|
    .around (Site.create .standard) Cluster.startTime
      ((Log.empty.append Cluster.sampleId.versionTopic lastRecord).2.append secondId.versionTopic
        lastRecord).2 ::
    .launch Cluster.sampleId .standard .standby ::
    .launch secondId .standard .standby ::
    (List.replicate 12 (.step (.table Cluster.sampleId)) ++
      List.replicate 12 (.step (.table secondId)))

theorem shutdown_until_failure_twoKilled : ∃ awaited left,
    ShutDown twoKilled.run twoKilled.table.values awaited left ∧ awaited.length = 1 ∧
      left.length = 1 := by
  have watched : twoKilled.Watched := watched_after _ _ _
  obtain ⟨awaited, left, shut⟩ := shutdown_until_failure twoKilled.run watched.sound
    twoKilled.table.values (List.Perm.refl _)
  have two : twoKilled.table.values.length = 2 := by decide +kernel
  have before : twoKilled.run.commons.metrics.active = 2 := by decide +kernel
  have size : twoKilled.run.host.replicas.size = 2 := by decide +kernel
  have after : (twoKilled.run.shutdownIn twoKilled.table.values).2.commons.metrics.active = 1 := by
    decide +kernel
  have active := shut.active
  rw [after, before, size] at active
  rw [shut.split, List.length_append] at two
  exact ⟨awaited, left, shut, by omega, by omega⟩

/-- After the shutdown one of the two is counted on, as nobody waited for it. -/
theorem uncounted_twoKilled : twoKilled.table.size = 2 ∧ twoKilled.metrics.active = 2 ∧
    twoKilled.run.shutdown.2.commons.metrics.active = 1 ∧
    twoKilled.run.shutdown.2.host.detached.length = 1 := by decide +kernel

end Hosting

end StoreFeed
