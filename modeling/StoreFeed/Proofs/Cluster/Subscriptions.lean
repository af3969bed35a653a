import StoreFeed.Proofs.Cluster.Skipping
import StoreFeed.Proofs.Replica.Reading

/-!
# What the replica of a host reads in a run

In every run of a cluster the subscriptions of a replica, its consumer and its tracker agree
(`Cluster.ReadsInStep`), at whatever call an outage stops the change of its subscriptions and
whatever role it is told to take meanwhile. So as long as it stays subscribed to a partition it
finishes the records of it one after the other, with none left out, and in one life it finishes none
twice.
-/

namespace StoreFeed

namespace Cluster

variable (id : ReplicaId) (settings : VersionSettings)

/-- The next offset of a partition, as far as the replica of a host knows it. -/
def next? (name : String) (tp : TopicPartition) (c : Cluster) : Option Nat :=
  (c.feed? id name).bind (·.next? tp)

/-- The record of a partition that the replica of a host finishes with an event. -/
def finishes? (name : String) (tp : TopicPartition) (c : Cluster) (e : Event) :
    Option ChangeRecord :=
  if e.actor? = some name then (c.replica? id name).bind (·.finishes? tp) else none

/-- The records of a partition that the replica of a host finishes in a run, one after the other. -/
def finished (name : String) (tp : TopicPartition) : Cluster → List Event → List ChangeRecord
  | _, [] => []
  | c, e :: rest =>
    (c.finishes? id name tp e).toList ++ finished name tp (c.happen id settings e) rest

/-- The replica of a host is about, and subscribed to a partition. -/
def Subscribes (name : String) (tp : TopicPartition) (c : Cluster) : Prop :=
  (c.feed? id name).any fun f => f.phase.isLive && f.subscriptions.contains tp

/-- A replica that is subscribed to a partition is not started afresh. -/
def Stays (name : String) (tp : TopicPartition) (c : Cluster) (e : Event) : Prop :=
  c.Subscribes id name tp ∧ e.starts name = false

/-- The replica of a host stands at an offset of a partition or behind it. -/
def Past (name : String) (tp : TopicPartition) (offset : Nat) (c : Cluster) : Prop :=
  ∀ f, c.feed? id name = some f → f.phase.isOver = false →
    f.phase.isUnrestored = false ∧ ∃ next, f.next? tp = some next ∧ offset ≤ next

/-- How the replica of a host reads. -/
structure ReadsInStep (name : String) (c : Cluster) : Prop where
  /-- Subscriptions, consumer and tracker agree as long as it is about. -/
  inStep : ∀ a, c.replica? id name = some a → a.replica.phase.isLive → a.InStep
  /-- Nothing of a batch is passed over. -/
  unfiltered : ∀ a batch, c.replica? id name = some a → a.TakesUp batch →
    a.step.replica.phase = .killed ∨ a.step.feed.pending = batch
  /-- As long as it stays subscribed to a partition it finishes all records of it from its next
  offset on, each of them once, in order. -/
  each : ∀ tp events, c.Along id settings (Stays id name tp) events →
    (c.run id settings events).Subscribes id name tp → ∃ next, c.next? id name tp = some next ∧
      (c.run id settings events).commons.log.Gives tp next (c.finished id settings name tp events) ∧
      (c.run id settings events).next? id name tp =
        some (next + (c.finished id settings name tp events).length)
  /-- In one life it finishes no record twice, whatever it is subscribed to meanwhile. -/
  once : ∀ tp events, (∀ e ∈ events, e.starts name = false) →
    (c.finished id settings name tp events).Pairwise (·.offset < ·.offset)

variable {id settings} {c : Cluster} {name : String} {tp : TopicPartition}

/-! ## The replica behind a feed -/

theorem next?_of_feed? {f : Feed} (h : c.feed? id name = some f) :
    c.next? id name tp = f.next? tp := by rw [next?, h, Option.bind_some]

theorem Sound.genuine_run (sound : c.Sound id settings) {a : Run}
    (h : c.replica? id name = some a) : a.site.Genuine := by
  obtain ⟨host, hh, _, ha⟩ := find?_of_replica? h
  rw [ha]
  exact sound.genuine name host hh

theorem Subscribes.feed (h : c.Subscribes id name tp) : ∃ f, c.feed? id name = some f ∧
    f.phase.isLive = true ∧ f.subscriptions.contains tp = true := by
  obtain ⟨f, hf, h⟩ := (Option.any_eq_true _ _).mp h
  exact ⟨f, hf, Bool.and_eq_true_iff.mp h⟩

/-- An event that is no step of the replica leaves it where it is, unless it starts it. -/
theorem Sound.feed?_of_aside (sound : c.Sound id settings) {e : Event} (aside : e ≠ .step name)
    (lives : e.starts name = false) : (c.happen id settings e).feed? id name =
      (c.feed? id name).map fun f => { f with log := (c.happen id settings e).commons.log } := by
  cases sound.fate e name with
  | stays feed => exact feed
  | moves _ _ event => exact absurd event aside
  | starts role event =>
    subst event
    simp [Event.starts] at lives

theorem finishes?_step {a : Run} (h : c.replica? id name = some a) :
    c.finishes? id name tp (.step name) = a.finishes? tp := by
  simp [finishes?, Event.actor?, h]

theorem finished_of_none {e : Event} (h : c.finishes? id name tp e = none) (rest : List Event) :
    c.finished id settings name tp (e :: rest) =
      (c.happen id settings e).finished id settings name tp rest := by
  rw [finished, h, Option.toList_none, List.nil_append]

theorem finished_of_some {e : Event} {r : ChangeRecord} (h : c.finishes? id name tp e = some r)
    (rest : List Event) : c.finished id settings name tp (e :: rest) =
      r :: (c.happen id settings e).finished id settings name tp rest := by
  rw [finished, h, Option.toList_some, List.singleton_append]

/-! ## Accounts that agree -/

theorem Sound.attuned_happen (sound : c.Sound id settings)
    (attuned : ∀ f, c.feed? id name = some f → f.phase.isLive → f.Attuned) (e : Event) :
    ∀ g, (c.happen id settings e).feed? id name = some g → g.phase.isLive → g.Attuned := by
  refine sound.feed_induction e (fun f hf _ live => ?_) (fun f g event before after _ live => ?_)
    fun role _ => ?_
  · exact ⟨(attuned f hf live).together, (attuned f hf live).known⟩
  · subst event
    obtain ⟨a, ha, rfl⟩ := exists_run_of_feed? before
    cases (feed?_step ha).symm.trans after
    exact Run.attuned_step (sound.genuine_run ha) (attuned _ before)
      ((sound.happen _).flow name _ after) live
  · exact (Feed.Flow.of_created rfl rfl rfl rfl rfl rfl).attuned

theorem attuned_of_run {hosts : SortedMap String HostSettings}
    (created : Cluster.create hosts = .ok c)
    (events : List Event) : ∀ f, (c.run id settings events).feed? id name = some f →
      f.phase.isLive → f.Attuned := by
  refine (Sound.of_create created id settings).invariant (P := fun _ _ => True)
    (I := fun c => ∀ f, c.feed? id name = some f → f.phase.isLive → f.Attuned)
    (fun c e sound attuned _ => sound.attuned_happen attuned e)
    (along_of_forall fun _ _ _ => trivial)
    fun f hf => ?_
  simp [feed?_of_create created] at hf

/-! ## Records that are finished -/

/-- A record that is finished is the next one of its partition. -/
theorem Sound.next?_of_finishes? (sound : c.Sound id settings) {e : Event} {r : ChangeRecord}
    (finished : c.finishes? id name tp e = some r) : ∃ a, e = .step name ∧
      c.replica? id name = some a ∧ a.feed.Flow ∧ a.finishes? tp = some r ∧
      a.feed.next? tp = some r.offset ∧ (c.commons.log.records tp)[r.offset]? = some r := by
  unfold finishes? at finished
  split at finished
  · rename_i actor
    obtain rfl := Event.actor?_eq_some actor
    obtain ⟨a, ha, finished⟩ := Option.bind_eq_some_iff.mp finished
    have hf := feed?_of_replica? ha
    have flow := sound.flow name _ hf (Run.live_of_finishes? finished)
    obtain ⟨hn, hr⟩ := Run.next?_of_finishes? flow (sound.indexed_feed hf) finished
    rw [log_of_feed? hf] at hr
    exact ⟨a, rfl, ha, flow, finished, hn, hr⟩
  · cases finished

/-- With a record finished the one after it is the next, as long as the replica is about. -/
theorem Sound.next?_happen_of_some (sound : c.Sound id settings) {e : Event} {r : ChangeRecord}
    (finished : c.finishes? id name tp e = some r) {g : Feed}
    (after : (c.happen id settings e).feed? id name = some g) (live : g.phase.isLive) :
    g.next? tp = some (r.offset + 1) := by
  obtain ⟨a, rfl, ha, flow, finished, _⟩ := sound.next?_of_finishes? finished
  cases (feed?_step ha).symm.trans after
  exact Run.next?_step_of_some (sound.genuine_run ha)
    (sound.indexed_feed (feed?_of_replica? ha)) flow live finished

/-- Where no record of a subscribed partition is finished, its next offset stays. -/
theorem Sound.next?_happen_of_none (sound : c.Sound id settings) {e : Event}
    (stays : c.Stays id name tp e) (after : (c.happen id settings e).Subscribes id name tp)
    (unfinished : c.finishes? id name tp e = none) :
    (c.happen id settings e).next? id name tp = c.next? id name tp := by
  obtain ⟨f, hf, _, contains⟩ := stays.1.feed
  by_cases event : e = .step name
  · subst event
    obtain ⟨a, ha, rfl⟩ := exists_run_of_feed? hf
    obtain ⟨g, hg, live, _⟩ := after.feed
    cases (feed?_step ha).symm.trans hg
    rw [finishes?_step ha] at unfinished
    rw [next?_of_feed? hg, next?_of_feed? hf]
    exact Run.next?_step_of_none (sound.genuine_run ha) (sound.indexed_feed hf)
      (sound.flow name _ hf) live contains unfinished
  · rw [next?, next?, sound.feed?_of_aside event stays.2, hf]
    rfl

/-! ## All records, one after the other -/

/-- A replica that stays subscribed along a run is subscribed at its start. -/
theorem Along.subscribes {events : List Event}
    (stays : c.Along id settings (Stays id name tp) events)
    (last : (c.run id settings events).Subscribes id name tp) : c.Subscribes id name tp := by
  cases events with
  | nil => exact last
  | cons e rest => exact stays.1.1

/-- As long as a replica stays subscribed, what it finishes is what the log has from its next offset
on, and its next offset is right behind it. -/
theorem Sound.finished_each (sound : c.Sound id settings)
    (attuned : ∀ f, c.feed? id name = some f → f.phase.isLive → f.Attuned) {events : List Event}
    (stays : c.Along id settings (Stays id name tp) events)
    (last : (c.run id settings events).Subscribes id name tp) :
    ∃ next, c.next? id name tp = some next ∧
      (c.run id settings events).commons.log.Gives tp next (c.finished id settings name tp events) ∧
      (c.run id settings events).next? id name tp =
        some (next + (c.finished id settings name tp events).length) := by
  induction events generalizing c with
  | nil =>
    obtain ⟨f, hf, live, contains⟩ := (stays.subscribes last).feed
    obtain ⟨next, hn⟩ := (attuned f hf live).known tp contains
    have hn : c.next? id name tp = some next := (next?_of_feed? hf).trans hn
    exact ⟨next, hn, Log.gives_nil _ _ _, hn⟩
  | cons e rest ih =>
    obtain ⟨stays, rest_stays⟩ := stays
    have after := rest_stays.subscribes last
    obtain ⟨next, hn, gives, hlast⟩ :=
      ih (sound.happen e) (sound.attuned_happen attuned e) rest_stays last
    cases hfinishes : c.finishes? id name tp e with
    | none =>
      rw [sound.next?_happen_of_none stays after hfinishes] at hn
      rw [finished_of_none hfinishes]
      exact ⟨next, hn, gives, hlast⟩
    | some r =>
      -- The first event finishes the record at the next offset, so the others start right behind
      -- it.
      obtain ⟨a, _, ha, _, _, hfirst, hr⟩ := sound.next?_of_finishes? hfinishes
      obtain ⟨g, hg, live, _⟩ := after.feed
      rw [next?_of_feed? hg, sound.next?_happen_of_some hfinishes hg live, Option.some.injEq] at hn
      subst hn
      rw [finished_of_some hfinishes]
      refine ⟨r.offset, (next?_of_feed? (feed?_of_replica? ha)).trans hfirst, ?_, ?_⟩
      · exact Log.gives_cons.mpr ⟨(sound.extends_run (e :: rest)).getElem? hr, gives⟩
      · rw [List.length_cons, Nat.add_comm _ 1, ← Nat.add_assoc]
        exact hlast

/-! ## No record twice -/

/-- Within one life a replica does not go back. -/
theorem Sound.past_happen (sound : c.Sound id settings)
    (prepared : ∀ f, c.feed? id name = some f → f.Prepared) {offset : Nat}
    (past : c.Past id name tp offset) {e : Event} (lives : e.starts name = false) :
    (c.happen id settings e).Past id name tp offset := by
  intro g hg ended
  cases sound.fate e name with
  | stays feed =>
    rw [feed, Option.map_eq_some_iff] at hg
    obtain ⟨f, hf, rfl⟩ := hg
    exact past f hf ended
  | starts role event =>
    subst event
    simp [Event.starts] at lives
  | moves f g' _ before after _ move =>
    cases after.symm.trans hg
    have live := move.live ended
    obtain ⟨restored, next, hn, reached⟩ := past f before live
    have hi := sound.indexed_feed before
    have progress := move.progress (prepared f before) (sound.flow name f before live) hi ended
    obtain ⟨next', hn', forward⟩ := progress.next?_le (prepared f before) hi restored move.id_eq hn
    exact ⟨progress.restored restored, next', hn', Nat.le_trans reached forward⟩

/-- What a replica finishes later is not before where it stands. -/
theorem Sound.le_offset_of_past (sound : c.Sound id settings)
    (prepared : ∀ f, c.feed? id name = some f → f.Prepared) {offset : Nat}
    (past : c.Past id name tp offset) {events : List Event}
    (lives : ∀ e ∈ events, e.starts name = false) :
    ∀ r ∈ c.finished id settings name tp events, offset ≤ r.offset := by
  induction events generalizing c with
  | nil => exact fun r hr => by cases hr
  | cons e rest ih =>
    intro r hr
    rcases List.mem_append.mp hr with hr | hr
    · rw [Option.mem_toList] at hr
      obtain ⟨a, _, ha, _, finished, hnext, _⟩ := sound.next?_of_finishes? hr
      obtain ⟨_, next, hn, reached⟩ :=
        past a.feed (feed?_of_replica? ha) (Run.live_of_finishes? finished)
      cases hn.symm.trans hnext
      exact reached
    · exact ih (sound.happen e) (sound.prepared_happen prepared e)
        (sound.past_happen prepared past (lives e List.mem_cons_self))
        (fun e' he' => lives e' (List.mem_cons_of_mem e he')) r hr

/-- Within one life the records that a replica finishes come in the order of their offsets. -/
theorem Sound.finished_once (sound : c.Sound id settings)
    (prepared : ∀ f, c.feed? id name = some f → f.Prepared) {events : List Event}
    (lives : ∀ e ∈ events, e.starts name = false) :
    (c.finished id settings name tp events).Pairwise (·.offset < ·.offset) := by
  induction events generalizing c with
  | nil => exact .nil
  | cons e rest ih =>
    have rest_lives : ∀ e' ∈ rest, e'.starts name = false :=
      fun e' he' => lives e' (List.mem_cons_of_mem e he')
    have ordered := ih (sound.happen e) (sound.prepared_happen prepared e) rest_lives
    cases hfinishes : c.finishes? id name tp e with
    | none =>
      rw [finished_of_none hfinishes]
      exact ordered
    | some r =>
      rw [finished_of_some hfinishes]
      refine List.pairwise_cons.mpr ⟨?_, ordered⟩
      refine (sound.happen e).le_offset_of_past (sound.prepared_happen prepared e) ?_ rest_lives
      intro g hg ended
      have hnext := sound.next?_happen_of_some hfinishes hg (Phase.isLive_of_live ended)
      obtain ⟨a, rfl, ha, flow, finished, _⟩ := sound.next?_of_finishes? hfinishes
      obtain ⟨w, finishes, _⟩ := Run.finishes?_eq_some.mp finished
      cases (feed?_step ha).symm.trans hg
      have hf := feed?_of_replica? ha
      have progress := (Run.step_moved (sound.genuine_run ha)).move.progress (prepared _ hf) flow
        (sound.indexed_feed hf) ended
      refine ⟨progress.restored ?_, _, hnext, Nat.le_refl _⟩
      show a.replica.phase.isUnrestored = false
      rw [finishes.phase]
      rfl

/-! ## Every run -/

/-- In every run of a cluster, through whatever outages, commands and restarts, every replica reads
in step: as long as it is about, it is subscribed to what its consumer is subscribed to; from an
alignment to the next safe point that is what its role asks for, so it never polls the version topic
together with a real-time topic; and outside a batch, so at the start of every cycle, its consumer
stands where its tracker goes on. So nothing that it polls is passed over, as long as it stays
subscribed to a partition it finishes all records of it from its next offset on, and in one life it
finishes no record twice. -/
theorem readsInStep_of_run {hosts : SortedMap String HostSettings}
    (created : Cluster.create hosts = .ok c) (id : ReplicaId) (settings : VersionSettings)
    (events : List Event) (name : String) :
    (c.run id settings events).ReadsInStep id settings name := by
  have sound := Sound.of_run created id settings events
  have attuned : ∀ f, (c.run id settings events).feed? id name = some f → f.phase.isLive →
      f.Attuned := attuned_of_run created events
  have prepared : ∀ f, (c.run id settings events).feed? id name = some f → f.Prepared :=
    prepared_of_run created events name
  refine ⟨fun a ha live => ?_, fun a batch ha takes => ?_, fun tp later stays last => ?_,
    fun tp later lives => ?_⟩
  · have hf := feed?_of_replica? ha
    exact Run.inStep_of_flow (sound.flow name _ hf) (attuned _ hf live)
  · have hf := feed?_of_replica? ha
    exact Run.pending_of_takesUp (sound.genuine_run ha) (sound.indexed_feed hf)
      (sound.flow name _ hf takes.live) takes
  · exact sound.finished_each attuned stays last
  · exact sound.finished_once prepared lives

/-- A leader is about to turn to the real-time topic when the log goes away: it has dropped the
version topic, and could not find out where to start instead. -/
def stranded : List Event :=
  [.append sampleId.versionTopic (sampleRecord "k" (.control .endOfPush)),
    .append (sampleId.realTimeTopic none) (sampleRecord "k" .delete),
    .start "a" .leader] ++ steps "a" 16 ++ [.setAvailable false] ++ steps "a" 1

/-- The log is back: the leader takes up the record of the real-time topic. Then it is told to stand
by, and takes up the version topic again. -/
def recovered : List Event :=
  [.setAvailable true, .setTime (startTime + 1000)] ++ steps "a" 10 ++
    [.tell "a" (.changeRole .standby),
      .append sampleId.versionTopic (sampleRecord "l" .delete)] ++ steps "a" 14

/-- While it is subscribed to nothing, it reads in step. Of the version topic it finishes the first
record and the third; the second one it published itself, for the record of the real-time topic. -/
theorem readsInStep_of_run_stranded :
    Cluster.create (SortedMap.ofList [("a", .standard), ("b", .standard)]) = .ok twoHosts ∧
      (twoHosts.run sampleId hybridSettings stranded).ReadsInStep sampleId hybridSettings "a" ∧
      ((twoHosts.run sampleId hybridSettings stranded).replica? sampleId "a").any (fun a =>
        a.replica.phase.isLive && a.replica.subscriptions.toList = [] &&
          a.replica.desiredSubscriptions.toList = [sampleId.realTimeTopic none]) ∧
      (twoHosts.finished sampleId hybridSettings "a" sampleId.versionTopic
        (stranded ++ recovered)).map (·.offset) = [0, 2] ∧
      (twoHosts.finished sampleId hybridSettings "a" (sampleId.realTimeTopic none)
        (stranded ++ recovered)).map (·.offset) = [0] :=
  ⟨create_twoHosts, readsInStep_of_run create_twoHosts sampleId hybridSettings stranded "a",
    by decide +kernel, by decide +kernel, by decide +kernel⟩

end Cluster

end StoreFeed
