import StoreFeed.Proofs.Cluster.Skipping
import StoreFeed.Proofs.Replica.ErrorPolicy

/-!
# Before the end of the push

Until its replica has received the end of the push a host applies the records of the version topic
one after the other: whatever fails on the way, through outages and restarts, the position passes an
offset only once the record there was applied. After it a leader may go on behind what it publishes,
but a checkpoint from before knows of no such thing.
-/

namespace StoreFeed

/-- The end of the push stays received. -/
theorem Run.Effect.endOfPush {a : Run} {g : Course} (h : a.Effect g)
    (push : a.feed.tracker.endOfPush = true) : g.feed.tracker.endOfPush = true := by
  cases h with
  | spares _ _ same => exact same.trans push
  | restores _ _ _ tracker =>
    rw [tracker]
    unfold LagTracker.resumed
    split
    · exact (LagTracker.saw_restored _ .endOfPush).mpr (.inl push)
    · exact push
  | marks _ _ _ _ _ _ kept => exact kept push
  | writes _ _ _ _ _ _ _ same => exact same.trans push

namespace Cluster

variable (id : ReplicaId) (settings : VersionSettings)

/-- Before the `n`th event of a run the replica of a host applied the record at an offset of the
version topic, and stood there when it did. -/
def Applied (c : Cluster) (events : List Event) (name : String) (n i : Nat) : Prop :=
  ∃ k < n, events[k]? = some (.step name) ∧ ∃ f g r,
    (c.run id settings (events.take k)).feed? id name = some f ∧
    (c.run id settings (events.take (k + 1))).feed? id name = some g ∧
    f.tracker.versionPosition = i ∧
    ((c.run id settings (events.take k)).versionRecords id)[i]? = some r ∧ f.Applies g r

/-- Up to the end of the push a host applied all that is behind its replica, or behind the
checkpoint that it keeps. -/
structure InOrder (applied : Nat → Prop) (name : String) (c : Cluster) : Prop where
  below : ∀ f, c.feed? id name = some f → f.tracker.endOfPush = false →
    ∀ i < f.tracker.versionPosition, applied i
  kept : ∀ k, (c.data id name).checkpoint = some k → k.endOfPush = false →
    ∀ i < k.versionOffset, applied i

variable {id settings} {c : Cluster} {name : String} {events : List Event}

/-- A step never takes back that the end of the push was received. -/
theorem endOfPush_step {f g : Feed} (before : c.feed? id name = some f)
    (after : (c.happen id settings (.step name)).feed? id name = some g)
    (push : f.tracker.endOfPush = true) : g.tracker.endOfPush = true := by
  obtain ⟨run, hr, rfl⟩ := exists_run_of_feed? before
  cases after.symm.trans (feed?_step hr)
  exact run.step_goes.effect.endOfPush push

namespace InOrder

/-- A record that is passed before the end of the push is applied right now, or was applied
before. -/
theorem move {applied : Nat → Prop} (h : c.InOrder id applied name) (sound : c.Sound id settings)
    {f g : Feed} (before : c.feed? id name = some f) (prepared : f.Prepared) (m : f.Move g)
    (keeps : f.tracker.endOfPush = true → g.tracker.endOfPush = true)
    (early : g.tracker.endOfPush = false) {i : Nat} (hi : i < g.tracker.versionPosition) :
    applied i ∨ f.tracker.versionPosition = i ∧
      ∃ r, (c.versionRecords id)[i]? = some r ∧ f.Applies g r := by
  have was : f.tracker.endOfPush = false := by
    cases hp : f.tracker.endOfPush with
    | false => rfl
    | true =>
      rw [keeps hp] at early
      cases early
  have stays : g.tracker.versionPosition = f.tracker.versionPosition → applied i := fun same =>
    h.below f before was i (same ▸ hi)
  cases ended : g.phase.isOver with
  | true =>
    rcases m.of_over ended with rfl | books | ⟨_, _, _, _, _, _, books⟩
    · exact .inl (stays rfl)
    · exact .inl (stays books.versionPosition)
    · exact .inl (stays books.versionPosition)
  | false =>
    have flow := sound.flow name f before (m.live ended)
    have indexed := sound.indexed_feed before
    cases m.progress prepared flow indexed ended with
    | stays position => exact .inl (stays position)
    | resumes _ _ tracker =>
      have hdata := data_of_feed? before (sound.identity name f before).1
      cases hc : f.data.checkpoint with
      | none =>
        rw [hc] at tracker
        exact .inl (stays (congrArg LagTracker.versionPosition tracker))
      | some k =>
        rw [hc] at tracker
        have position := congrArg LagTracker.versionPosition tracker
        rw [show (f.tracker.resumed (some k)).versionPosition = k.versionOffset from
          LagTracker.versionPosition_restored _ k] at position
        refine .inl (h.kept k (hdata ▸ hc) ?_ i (position ▸ hi))
        cases hk : k.endOfPush with
        | false => rfl
        | true =>
          have saw := (LagTracker.saw_restored (t := f.tracker) k .endOfPush).mpr (.inr hk)
          rw [← show g.tracker = f.tracker.restored k from tracker] at saw
          cases early.symm.trans saw
    | applies r record applies =>
      rw [applies.versionPosition, indexed _ _ _ record] at hi
      rcases Nat.lt_or_eq_of_le (Nat.le_of_lt_succ hi) with hlt | rfl
      · exact .inl (h.below f before was i hlt)
      · rw [sound.versionRecords_feed before] at record
        exact .inr ⟨rfl, r, record, applies⟩
    | stores w value offset phase stage realTime =>
      -- Nobody publishes before the end of the push.
      have push := (flow.leads (.inl (flow.realTime indexed phase realTime).2.1)).2.2
      cases was.symm.trans push

/-- Every event keeps that records are applied in order. -/
theorem happen {applied applied' : Nat → Prop} (h : c.InOrder id applied name)
    (sound : c.Sound id settings) (prepared : ∀ f, c.feed? id name = some f → f.Prepared)
    {e : Event}
    (old : ∀ i, applied i → applied' i)
    (new : ∀ f g r i, e = .step name → c.feed? id name = some f →
      (c.happen id settings e).feed? id name = some g → f.tracker.versionPosition = i →
      (c.versionRecords id)[i]? = some r → f.Applies g r → applied' i) :
    (c.happen id settings e).InOrder id applied' name where
  below := by
    refine sound.feed_induction e (fun f hf _ early i hi => old i (h.below f hf early i hi))
      (fun f g event before after m early i hi => ?_) fun _ _ i hi => by cases hi
    have keeps := endOfPush_step before (event ▸ after)
    rcases h.move sound before (prepared f before) m keeps early hi with
      applied | ⟨position, r, record, applies⟩
    · exact old i applied
    · exact new f g r i event before after position record applies
  kept k hk early i hi := by
    cases sound.fate e name with
    | stays _ data => exact old i (h.kept k (data ▸ hk) early i hi)
    | starts _ _ _ data => exact old i (h.kept k (data ▸ hk) early i hi)
    | moves f g _ before _ _ m data =>
      rw [data] at hk
      rcases m.checkpoint_cases with same | ⟨_, _, committed⟩
      · rw [same, data_of_feed? before (sound.identity name f before).1] at hk
        exact old i (h.kept k hk early i hi)
      · cases committed.symm.trans hk
        exact old i (h.below f before early i hi)

end InOrder

section Runs

variable {hosts : SortedMap String HostSettings} (created : Cluster.create hosts = .ok c)
include created

/-- In every run of a cluster records are applied in order before the end of the push. -/
theorem inOrder (name : String) (events : List Event) (n : Nat) :
    (c.run id settings (events.take n)).InOrder id (c.Applied id settings events name n) name := by
  induction n with
  | zero =>
    refine ⟨fun f hf => ?_, fun k hk => ?_⟩
    · simp [run, feed?_of_create created] at hf
    · simp [run, data_of_create created, ReplicaData.empty] at hk
  | succ n ih =>
    have old : ∀ i, c.Applied id settings events name n i →
        c.Applied id settings events name (n + 1) i := by
      rintro i ⟨k, hk, applied⟩
      exact ⟨k, Nat.lt_succ_of_lt hk, applied⟩
    cases he : events[n]? with
    | none =>
      rw [run_take_succ_of_none he]
      exact ⟨fun f hf early i hi => old i (ih.below f hf early i hi),
        fun k hk early i hi => old i (ih.kept k hk early i hi)⟩
    | some e =>
      rw [run_take_succ he]
      refine ih.happen (Sound.of_run created id settings _) (prepared_of_run created _ name) old ?_
      rintro f g r i rfl before after position record applies
      refine ⟨n, Nat.lt_succ_self n, he, f, g, r, before, ?_, position, record, applies⟩
      rw [run_take_succ he]
      exact after

end Runs

/-- What errors do, before the end of the push and after it. Whatever calls fail, if they fail as a
source, a storage or a merge does, a replica keeps to `Life.ErrorPolicy`. And in every run of a
cluster, where polls get what the log holds, the position of a replica that has not received the end
of the push is behind only those records that its host applied, each where the replica stood right
at it. -/
theorem errors_by_phase :
    (∀ l : Life, l.Candid → l.ErrorPolicy) ∧
    ∀ (hosts : SortedMap String HostSettings) (c : Cluster), Cluster.create hosts = .ok c →
      ∀ (id : ReplicaId) (settings : VersionSettings) (name : String) (events : List Event)
        (n : Nat) (f : Feed), (c.run id settings (events.take n)).feed? id name = some f →
          f.tracker.endOfPush = false →
            ∀ i < f.tracker.versionPosition, c.Applied id settings events name n i :=
  ⟨fun _ candid => Life.errorPolicy candid, fun _ _ created _ _ name events n f hf early =>
    (inOrder created name events n).below f hf early⟩

/-! ## A write that fails

After the end of the push it halts the replica. Before, it is tried again at the end of a pause, and
only then the next record is looked at. -/

/-- There is no space left for the record behind the end of the push. -/
def failsAfterPush : Life :=
  { id := sampleId
    settings := .standard
    role := .standby
    site := { Site.create .standard with
      faults := SortedMap.ofList [(.put, ⟨.storage "no space left", 0, none⟩)] }
    commons := { twoHosts.commons with
      log :=
        ((Log.empty.append sampleId.versionTopic (sampleRecord "k" (.control .endOfPush))).2.append
        sampleId.versionTopic (sampleRecord "l" (.put "1".toUTF8))).2 }
    happenings := List.replicate 12 .step }

theorem candid_failsAfterPush : failsAfterPush.Candid := by
  have plain : ∀ n < 12, ∀ op ∈ Operation.all, ((failsAfterPush.moment n).fault? op).all
      (fun e => e.kind ≠ "configuration" && e.kind ≠ "join") = true := by decide +kernel
  have kinds : ∀ n op e, failsAfterPush.Steps n → (failsAfterPush.moment n).fault? op = some e →
      e.kind ≠ "configuration" ∧ e.kind ≠ "join" := by
    intro n op e steps fault
    have hn : n < 12 := (List.getElem?_eq_some_iff.mp steps).1
    have kind := plain n hn op (by cases op <;> decide)
    rw [fault] at kind
    simpa using kind
  exact ⟨fun n op _ steps fault => (kinds n op _ steps fault).1 rfl,
    fun n op steps fault => (kinds n op _ steps fault).2 rfl⟩

/-- The first write of the first of two records fails. -/
def failsBeforePush : List Event :=
  .append sampleId.versionTopic (sampleRecord "k" (.put "1".toUTF8)) ::
    .append sampleId.versionTopic (sampleRecord "l" (.put "2".toUTF8)) ::
    .failWrites "a" 0 1 :: .start "a" .standby :: steps "a" 9 ++
    .setTime (startTime + 1000) :: steps "a" 3

theorem errors_by_phase_failedWrite :
    (failsAfterPush.Candid ∧ (failsAfterPush.moment 9).replica.errored = false ∧
      (failsAfterPush.moment 10).replica.errored = true ∧ failsAfterPush.ErrorPolicy) ∧
    ∃ f,
      (twoHosts.run sampleId hybridSettings (failsBeforePush.take 17)).feed? sampleId "a" = some f ∧
      f.tracker.versionPosition = 1 ∧ f.tracker.endOfPush = false ∧
      twoHosts.Applied sampleId hybridSettings failsBeforePush "a" 17 0 := by
  refine ⟨⟨candid_failsAfterPush, by decide +kernel, by decide +kernel,
    errors_by_phase.1 _ candid_failsAfterPush⟩, ?_⟩
  have reached :
      ((twoHosts.run sampleId hybridSettings (failsBeforePush.take 17)).feed? sampleId "a").map
      (fun f => (f.tracker.versionPosition, f.tracker.endOfPush)) = some (1, false) := by
    decide +kernel
  obtain ⟨f, hf, h⟩ := Option.map_eq_some_iff.mp reached
  obtain ⟨position, early⟩ := Prod.mk.inj h
  refine ⟨f, hf, position, early, ?_⟩
  exact errors_by_phase.2 _ _ create_twoHosts sampleId hybridSettings "a"
    failsBeforePush 17 f hf early 0 (position ▸ Nat.zero_lt_one)

/-! ## Calls that are answered in other ways

A call may be answered like a task that failed, which is neither a source that is away nor a failure
to process a record; and a poll may get other records than the log holds behind the consumer. -/

/-- The write behind the end of the push is answered like a task that failed. -/
def joinsAfterPush : Life :=
  { failsAfterPush with
    site := { failsAfterPush.site with faults := SortedMap.ofList [(.put, ⟨.join, 0, none⟩)] } }

/-- The first poll gets the second of two records first. -/
def skipsAhead : Life :=
  { id := sampleId
    settings := .standard
    role := .standby
    site := { Site.create .standard with
      injected :=
        [(sampleId.versionTopic, { sampleRecord "l" (.put "2".toUTF8) with offset := 1 })] }
    commons := { twoHosts.commons with
      log := ((Log.empty.append sampleId.versionTopic (sampleRecord "k" (.put "1".toUTF8))).2.append
        sampleId.versionTopic (sampleRecord "l" (.put "2".toUTF8))).2 }
    happenings := List.replicate 12 .step }

theorem configured_joinsAfterPush : joinsAfterPush.Configured := by
  have plain : ∀ n < 12, ∀ op ∈ Operation.all,
      ((joinsAfterPush.moment n).fault? op).all (·.kind ≠ "configuration") = true := by
    decide +kernel
  intro n op reason steps fault
  have kind := plain n (List.getElem?_eq_some_iff.mp steps).1 op (by cases op <;> decide)
  rw [fault] at kind
  cases kind

theorem configured_skipsAhead : skipsAhead.Configured := by
  have plain : ∀ n < 12, ∀ op ∈ Operation.all, (skipsAhead.moment n).fault? op = none := by
    decide +kernel
  intro n op reason steps fault
  cases fault.symm.trans (plain n (List.getElem?_eq_some_iff.mp steps).1 op
    (by cases op <;> decide))

/-- It is not enough that no call is answered that the settings are wrong. An error that is no
failure to process a record raises the flag, and the position passes the first record before the end
of the push though that record was never written. -/
theorem misled_otherAnswers :
    (joinsAfterPush.Configured ∧ (joinsAfterPush.moment 9).replica.errored = false ∧
      (joinsAfterPush.moment 10).replica.errored = true ∧
      (joinsAfterPush.moment 9).mishap? = some .join ∧ IngestionError.join.isProcessing = false) ∧
    (skipsAhead.Configured ∧ (skipsAhead.moment 9).replica.tracker.endOfPush = false ∧
      skipsAhead.position 9 = 2 ∧
      skipsAhead.start.feed.versionRecords[0]? = some (sampleRecord "k" (.put "1".toUTF8)) ∧
      (skipsAhead.contents 9).get? "k".toUTF8 = none) := by
  have joined : (joinsAfterPush.moment 9).mishap? = some .join := by
    have kind : (joinsAfterPush.moment 9).mishap?.map (·.kind) = some "join" := by decide +kernel
    obtain ⟨e, mishap, kind⟩ := Option.map_eq_some_iff.mp kind
    cases e with
    | join => exact mishap
    | _ => simp [IngestionError.kind] at kind
  refine ⟨⟨configured_joinsAfterPush, ?_, ?_, joined, rfl⟩,
    configured_skipsAhead, ?_, ?_, rfl, ?_⟩ <;>
    decide +kernel

end Cluster

end StoreFeed
