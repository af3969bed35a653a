import StoreFeed.Proofs.Cluster.Publication
import StoreFeed.Proofs.Replica.Prefix

/-!
# Records that are skipped

A replica goes through its version topic record by record, through restarts and any changes of
roles, and goes on behind what it publishes. So all below its position was applied or published by
it, unless a leader goes on behind what it publishes while there are records in front of it that it
did not read. `none_skipped_iff` says that this is the only way in which a record is skipped, and
that what is leapt over then was really never handled.
-/

namespace StoreFeed

namespace Cluster

variable (id : ReplicaId) (settings : VersionSettings)

/-- The replica of a host leaps over a record. -/
def Leaps (name : String) (c : Cluster) (e : Event) : Prop :=
  (c.feed? id name).any fun f => ((c.happen id settings e).feed? id name).any fun g => f.Leaps g

instance (name : String) (c : Cluster) (e : Event) : Decidable (c.Leaps id settings name e) :=
  inferInstanceAs (Decidable (_ = true))

/-- In certain states of the replica of a host, nobody else appends to the version topic. -/
def Spared (during : Feed → Bool) (name : String) (c : Cluster) (e : Event) : Prop :=
  e.actor? ≠ some name → (c.feed? id name).any during →
    ((c.happen id settings e).versionRecords id).length = (c.versionRecords id).length

instance (during : Feed → Bool) (name : String) (c : Cluster) (e : Event) :
    Decidable (c.Spared id settings during name e) :=
  inferInstanceAs (Decidable (_ → _ → _))

/-- With its next step the replica of a host applies the record at an offset of the version topic,
or publishes one there. -/
inductive Handles (name : String) (c : Cluster) (i : Nat) : Prop where
  | applies (f g : Feed) (r : ChangeRecord) (before : c.feed? id name = some f)
      (after : (c.happen id settings (.step name)).feed? id name = some g)
      (position : f.tracker.versionPosition = i) (record : (c.versionRecords id)[i]? = some r)
      (applies : f.Applies g r)
  | publishes (new : i = (c.versionRecords id).length)
      (longer : i < ((c.happen id settings (.step name)).versionRecords id).length)

/-- Before the `n`th event of a run the replica of a host handled an offset of the version topic. -/
def Handled (c : Cluster) (events : List Event) (name : String) (n i : Nat) : Prop :=
  ∃ k < n, events[k]? = some (.step name) ∧
    (c.run id settings (events.take k)).Handles id settings name i

/-- How a host stands to the offsets that it has handled. -/
structure Accounts (handled : Nat → Prop) (name : String) (c : Cluster) : Prop where
  below : ∀ f, c.feed? id name = some f → ∀ i, i < f.tracker.versionPosition → handled i
  inHand : ∀ f, c.feed? id name = some f → ∀ i p, f.InHand i p → handled i
  kept : ∀ k, (c.data id name).checkpoint = some k → ∀ i, i < k.versionOffset → handled i

variable {id settings} {c : Cluster} {name : String} {events : List Event}

theorem Leaps.feeds {e : Event} (h : c.Leaps id settings name e) :
    ∃ f g, c.feed? id name = some f ∧ (c.happen id settings e).feed? id name = some g ∧
      f.Leaps g := by
  obtain ⟨f, hf, h⟩ := (Option.any_eq_true _ _).mp h
  obtain ⟨g, hg, h⟩ := (Option.any_eq_true _ _).mp h
  exact ⟨f, g, hf, hg, of_decide_eq_true h⟩

theorem leaps_of_feeds {e : Event} {f g : Feed} (hf : c.feed? id name = some f)
    (hg : (c.happen id settings e).feed? id name = some g) (h : f.Leaps g) :
    c.Leaps id settings name e := by
  unfold Leaps
  rw [hf, hg]
  exact decide_eq_true h

/-- What is in the hands of a replica comes from the record that it works on. -/
theorem Sound.prepared_happen (sound : c.Sound id settings)
    (prepared : ∀ f, c.feed? id name = some f → f.Prepared) (e : Event) :
    ∀ g, (c.happen id settings e).feed? id name = some g → g.Prepared :=
  sound.feed_induction e
    (fun f hf _ => (prepared f hf).withLog (log_of_feed? hf ▸ sound.extends_log e))
    (fun f _ _ before _ move => (prepared f before).move (sound.flow name f before) move)
    fun _ => .of_isPlain fun w hp => by cases hp

/-- What every event of a run keeps, in a cluster of which all holds that always does. -/
theorem Sound.invariant {P : Cluster → Event → Prop} {I : Cluster → Prop}
    (sound : c.Sound id settings)
    (step : ∀ c e, c.Sound id settings → I c → P c e → I (c.happen id settings e))
    (along : c.Along id settings P events) (init : I c) : I (c.run id settings events) :=
  (run_induction (I := fun c => c.Sound id settings ∧ I c)
    (fun c e h hP => ⟨h.1.happen e, step c e h.1 h.2 hP⟩) ⟨sound, init⟩ along).2

theorem prepared_of_run {hosts : SortedMap String HostSettings}
    (created : Cluster.create hosts = .ok c) (events : List Event) (name : String) :
    ∀ f, (c.run id settings events).feed? id name = some f → f.Prepared := by
  refine (Sound.of_create created id settings).invariant (P := fun _ _ => True)
    (I := fun c => ∀ f, c.feed? id name = some f → f.Prepared)
    (fun c e sound prepared _ => sound.prepared_happen prepared e)
    (along_of_forall fun _ _ _ => trivial)
    fun f hf => ?_
  simp [feed?_of_create created] at hf

/-! ## Who leaps -/

/-- A replica that nobody disturbs while it holds the end of its version topic has all records
behind it that are there. -/
theorem Sound.clears_happen (sound : c.Sound id settings)
    (prepared : ∀ f, c.feed? id name = some f → f.Prepared)
    (clears : ∀ f, c.feed? id name = some f → f.phase.isOver = false →
      f.Clears (· < f.versionRecords.length)) {e : Event}
    (spared : c.Spared id settings Feed.holds name e) :
    ∀ g, (c.happen id settings e).feed? id name = some g → g.phase.isOver = false →
      g.Clears (· < g.versionRecords.length) := by
  refine sound.feed_induction e (fun f hf log ended => ?_) (fun f g _ before after move ended => ?_)
    fun _ _ => .of_not_holds rfl rfl
  · cases holds : f.holds with
    | false =>
      have live : f.phase.isOver = false := ended
      simp only [Feed.holds, live, Bool.not_false, Bool.true_and, Bool.or_eq_false_iff,
        Option.isSome_eq_false_iff, Option.isNone_iff_eq_none] at holds
      exact .of_not_holds holds.1 holds.2
    | true =>
      have same : ((c.happen id settings e).versionRecords id).length =
          (c.versionRecords id).length := by
        by_cases hactor : e.actor? = some name
        · rw [versionRecords, log (Event.actor?_eq_some hactor), versionRecords]
        · exact spared hactor (by rw [hf]; exact holds)
      have grown : (Feed.versionRecords
          { f with log := (c.happen id settings e).commons.log }).length =
          f.versionRecords.length := by
        rw [sound.versionRecords_feed hf, ← same, Feed.versionRecords, (sound.identity name f hf).1,
          versionRecords]
      rw [grown]
      exact ⟨(clears f hf ended).aimed, (clears f hf ended).turned⟩
  · have live := move.live ended
    have moved := (clears f before live).move (prepared f before) (sound.flow name f before live)
      (sound.indexed_feed before) (fun _ hi => hi) move ended
    refine moved.add ((sound.happen e).flow name g after ended)
      ((sound.happen e).indexed_feed after) fun i hi => ?_
    rcases Nat.lt_or_ge i f.versionRecords.length with hlt | hle
    · exact .inl hlt
    · obtain ⟨one, inHand⟩ :=
        move.inHand_of_longer (sound.flow name f before) (Nat.lt_of_le_of_lt hle hi)
      rw [show i = f.versionRecords.length by omega]
      exact .inr (.inr inHand)

theorem clears_of_spared {hosts : SortedMap String HostSettings}
    (created : Cluster.create hosts = .ok c)
    (spared : c.Along id settings (Spared id settings Feed.holds name) events) :
    ∀ f, (c.run id settings events).feed? id name = some f → f.phase.isOver = false →
      f.Clears (· < f.versionRecords.length) := by
  refine ((Sound.of_create created id settings).invariant
    (I := fun c => (∀ f, c.feed? id name = some f → f.Prepared) ∧
      ∀ f, c.feed? id name = some f → f.phase.isOver = false →
        f.Clears (· < f.versionRecords.length))
    (fun c e sound h spared =>
      ⟨sound.prepared_happen h.1 e, sound.clears_happen h.1 h.2 spared⟩) spared ?_).2
  exact ⟨fun f hf => by simp [feed?_of_create created] at hf,
    fun f hf => by simp [feed?_of_create created] at hf⟩

/-- A leap is a move of a replica that goes on. -/
theorem Sound.move_of_leaps (sound : c.Sound id settings) {e : Event}
    (leap : c.Leaps id settings name e) : ∃ f g, e = .step name ∧ c.feed? id name = some f ∧
      (c.happen id settings e).feed? id name = some g ∧ f.Move g ∧ g.phase.isOver = false ∧
      f.Leaps g := by
  obtain ⟨f, g, hf, hg, leaps⟩ := leap.feeds
  cases sound.fate e name with
  | stays feed =>
    rw [feed, hf, Option.map_some, Option.some.injEq] at hg
    subst hg
    exact absurd leaps.2 (Nat.not_lt.mpr (Nat.le_succ _))
  | starts role _ feed =>
    rw [feed, Option.some.injEq] at hg
    subst hg
    cases leaps.2
  | moves f' g' event before after _ move =>
    cases before.symm.trans hf
    cases after.symm.trans hg
    refine ⟨f, g, event, hf, hg, move, ?_, leaps⟩
    cases ended : g.phase.isOver with
    | false => rfl
    | true =>
      -- Where a replica ends its position stays.
      have hlt := leaps.2
      rcases move.of_over ended with rfl | books | ⟨_, _, _, _, _, _, books⟩
      · omega
      · rw [books.versionPosition] at hlt
        omega
      · rw [books.versionPosition] at hlt
        exact absurd hlt (Nat.not_lt.mpr (Nat.le_succ _))

/-- A replica that nobody disturbs while it holds the end of its version topic never leaps. -/
theorem not_leaps_of_spared {hosts : SortedMap String HostSettings}
    (created : Cluster.create hosts = .ok c)
    (spared : c.Along id settings (Spared id settings Feed.holds name) events) :
    c.Along id settings (fun c e => ¬ c.Leaps id settings name e) events := by
  refine along_of_forall fun n e he leap => ?_
  have sound := Sound.of_run created id settings (events.take n)
  obtain ⟨f, g, _, hf, _, move, ended, leaps⟩ := sound.move_of_leaps leap
  have live := move.live ended
  have flow := sound.flow name f hf live
  have hi := sound.indexed_feed hf
  have prepared := prepared_of_run created _ name f hf
  exact (clears_of_spared created (spared.take n) f hf live).not_leaps prepared flow hi
    (move.progress prepared flow hi ended) leaps

/-! ## Without leaps nothing is skipped -/

/-- What is below the position, in hand or below the checkpoint is handled after an event in which
the replica does not leap. -/
theorem Accounts.happen {handled handled' : Nat → Prop} (h : c.Accounts id handled name)
    (sound : c.Sound id settings) (prepared : ∀ f, c.feed? id name = some f → f.Prepared)
    {e : Event}
    (straight : ¬ c.Leaps id settings name e) (old : ∀ i, handled i → handled' i)
    (new : e = .step name → ∀ i, c.Handles id settings name i → handled' i) :
    (c.happen id settings e).Accounts id handled' name where
  below := by
    refine sound.feed_induction e (fun f hf _ i hi => old i (h.below f hf i hi))
      (fun f g event before after move i hlt => ?_) fun _ i hi => by cases hi
    have straight : ¬ f.Leaps g := fun leaps => straight (leaps_of_feeds before after leaps)
    rcases move.below_cases (prepared f before) (sound.flow name f before)
        (sound.indexed_feed before)
      straight hlt with below | ⟨r, position, record, applies⟩ | ⟨p, inHand⟩ | ⟨k, hk, below⟩
    · exact old i (h.below f before i below)
    · rw [sound.versionRecords_feed before] at record
      exact new event i (.applies f g r before (event ▸ after) position record applies)
    · exact old i (h.inHand f before i p inHand)
    · rw [data_of_feed? before (sound.identity name f before).1] at hk
      exact old i (h.kept k hk i below)
  inHand := by
    refine sound.feed_induction e (fun f hf _ i p hp => old i (h.inHand f hf i p hp))
      (fun f g event before after move i p hp => ?_) fun _ i p hp => ?_
    · rcases move.inHand_cases hp with hp | ⟨hi, longer⟩
      · exact old i (h.inHand f before i p hp)
      · rw [sound.versionRecords_feed before] at hi
        rw [(sound.happen e).versionRecords_feed after, event] at longer
        exact new event i (.publishes hi longer)
    · obtain ⟨w, value, hp, _⟩ := hp
      cases hp
  kept k hk i hlt := by
    cases sound.fate e name with
    | stays _ data => exact old i (h.kept k (data ▸ hk) i hlt)
    | starts _ _ _ data => exact old i (h.kept k (data ▸ hk) i hlt)
    | moves f g _ before _ _ move data =>
      rw [data] at hk
      rcases move.checkpoint_cases with same | ⟨_, _, committed⟩
      · rw [same, data_of_feed? before (sound.identity name f before).1] at hk
        exact old i (h.kept k hk i hlt)
      · cases committed.symm.trans hk
        exact old i (h.below f before i hlt)

/-! ## What is leapt over was not handled -/

section Runs

variable {hosts : SortedMap String HostSettings} (created : Cluster.create hosts = .ok c)
include created

/-- What was handled stands in the version topic. -/
theorem Handled.lt_length {n i : Nat} (h : c.Handled id settings events name n i) :
    i < ((c.run id settings (events.take n)).versionRecords id).length := by
  obtain ⟨k, hk, hevent, handles⟩ := h
  refine Nat.lt_of_lt_of_le ?_ ((extends_take created events hk).length_le id.versionTopic)
  rw [run_take_succ hevent]
  cases handles with
  | applies f g r _ _ _ record =>
    have grown := (Sound.of_run created id settings (events.take k)).extends_log (.step name)
    exact Nat.lt_of_lt_of_le (List.getElem?_eq_some_iff.mp record).1 (grown.length_le _)
  | publishes _ longer => exact longer

omit created in
theorem handled_succ {n i : Nat} (h : c.Handled id settings events name (n + 1) i) :
    c.Handled id settings events name n i ∨ events[n]? = some (.step name) ∧
      (c.run id settings (events.take n)).Handles id settings name i := by
  obtain ⟨k, hk, hevent, handles⟩ := h
  rcases Nat.lt_or_eq_of_le (Nat.le_of_lt_succ hk) with hk | rfl
  · exact .inl ⟨k, hk, hevent, handles⟩
  · exact .inr ⟨hevent, handles⟩

omit created in
theorem Handled.mono {n m i : Nat} (h : c.Handled id settings events name n i) (hle : n ≤ m) :
    c.Handled id settings events name m i := by
  obtain ⟨k, hk, hrest⟩ := h
  exact ⟨k, Nat.lt_of_lt_of_le hk hle, hrest⟩

omit created in
/-- What a step handles is behind the position then, or in hand. -/
theorem Sound.behind_of_handles (sound : c.Sound id settings) {i : Nat}
    (handles : c.Handles id settings name i) {g : Feed}
    (hg : (c.happen id settings (.step name)).feed? id name = some g) :
    i < g.tracker.versionPosition ∨ ∃ p, g.InHand i p := by
  cases handles with
  | applies f g' r _ after _ record applies =>
    cases after.symm.trans hg
    rw [applies.versionPosition, sound.indexed _ _ _ record]
    exact .inl (Nat.lt_succ_self i)
  | publishes new longer =>
    cases sound.fate (.step name) name with
    | stays _ _ log =>
      rw [versionRecords, log rfl, ← versionRecords, ← new] at longer
      exact absurd longer (Nat.lt_irrefl _)
    | moves f g' _ before after _ move =>
      cases after.symm.trans hg
      have hrecords := sound.versionRecords_feed before
      rw [new, ← hrecords, ← (sound.happen (.step name)).versionRecords_feed after] at longer
      rw [new, ← hrecords]
      exact .inr (move.inHand_of_longer (sound.flow name f before) longer).2
    | starts role event => cases event

/-- A replica that holds the end of its version topic has cleared all that it ever handled. -/
theorem clears_handled (events : List Event) (name : String) (n : Nat) :
    ∀ f, (c.run id settings (events.take n)).feed? id name = some f → f.phase.isOver = false →
      f.Clears (c.Handled id settings events name n) := by
  induction n with
  | zero => exact fun f hf => by simp [run, feed?_of_create created] at hf
  | succ n ih =>
    intro g hg ended
    have flow := (Sound.of_run created id settings (events.take (n + 1))).flow name g hg ended
    have hi := (Sound.of_run created id settings (events.take (n + 1))).indexed_feed hg
    cases he : events[n]? with
    | none =>
      rw [run_take_succ_of_none he] at hg
      refine (ih g hg ended).add flow hi fun i hi => ?_
      rcases handled_succ hi with old | ⟨step, _⟩
      · exact .inl old
      · rw [he] at step
        cases step
    | some e =>
      rw [run_take_succ he] at hg
      have sound := Sound.of_run created id settings (events.take n)
      have old : ∀ g,
          ((c.run id settings (events.take n)).happen id settings e).feed? id name = some g →
          g.phase.isOver = false → g.Clears (c.Handled id settings events name n) := by
        refine sound.feed_induction e (fun f hf _ ended => ?_) (fun f g _ before _ move ended => ?_)
          fun _ _ => .of_not_holds rfl rfl
        · exact ⟨(ih f hf ended).aimed, (ih f hf ended).turned⟩
        · have live := move.live ended
          refine (ih f before live).move (prepared_of_run created _ name f before)
            (sound.flow name f before live) (sound.indexed_feed before) (fun i hi => ?_) move ended
          rw [sound.versionRecords_feed before]
          exact Handled.lt_length created hi
      refine (old g hg ended).add flow hi fun i hi => ?_
      rcases handled_succ hi with old | ⟨step, handles⟩
      · exact .inl old
      · cases he.symm.trans step
        exact .inr (sound.behind_of_handles handles hg)

/-- A record that was leapt over was never handled. -/
theorem not_handled_of_leaps {n : Nat} {e : Event} (he : events[n]? = some e)
    (leap : (c.run id settings (events.take n)).Leaps id settings name e) :
    ∃ g i, (c.run id settings (events.take (n + 1))).feed? id name = some g ∧
      i < g.tracker.versionPosition ∧ ¬ c.Handled id settings events name (n + 1) i := by
  have sound := Sound.of_run created id settings (events.take n)
  obtain ⟨f, g, rfl, before, after, move, ended, leaps⟩ := sound.move_of_leaps leap
  have live := move.live ended
  have flow := sound.flow name f before live
  have hi := sound.indexed_feed before
  have prepared := prepared_of_run created _ name f before
  have progress := move.progress prepared flow hi ended
  refine ⟨g, f.tracker.versionPosition, by rw [run_take_succ he]; exact after,
    Nat.lt_of_succ_lt leaps.2, fun handled => ?_⟩
  rcases handled_succ handled with old | ⟨_, handles⟩
  · exact (clears_handled created events name n f before live).not_of_leaps progress flow hi leaps
      (Nat.le_refl _) leaps.2 old
  cases handles with
  | applies f' g' r _ after' _ record applies =>
    cases after'.symm.trans after
    have hlt := leaps.2
    rw [applies.versionPosition, sound.indexed _ _ _ record] at hlt
    exact Nat.lt_irrefl _ hlt
  | publishes new =>
    -- The record that is stored in a leap was published before, behind the one that is leapt over.
    obtain ⟨w, value, offset, phase, stage, realTime, hposition⟩ := progress.of_leaps hi leaps
    have record := (prepared.published w value offset phase stage realTime).2
    have hend := (List.getElem?_eq_some_iff.mp record).1
    have hlt := leaps.2
    rw [sound.versionRecords_feed before, ← new] at hend
    omega

/-- A replica that never leaps has handled all that is below its position. -/
theorem handled_of_not_leaps
    (straight : c.Along id settings (fun c e => ¬ c.Leaps id settings name e) events) (n : Nat) :
    (c.run id settings (events.take n)).Accounts id (c.Handled id settings events name n) name := by
  induction n with
  | zero =>
    refine ⟨fun f hf => ?_, fun f hf => ?_, fun k hk => ?_⟩
    · simp [run, feed?_of_create created] at hf
    · simp [run, feed?_of_create created] at hf
    · simp [run, data_of_create created, ReplicaData.empty] at hk
  | succ n ih =>
    have old : ∀ i, c.Handled id settings events name n i →
        c.Handled id settings events name (n + 1) i := fun i h => h.mono (Nat.le_succ n)
    cases he : events[n]? with
    | none =>
      rw [run_take_succ_of_none he]
      exact ⟨fun f hf i hi => old i (ih.below f hf i hi),
        fun f hf i p hp => old i (ih.inHand f hf i p hp),
        fun k hk i hi => old i (ih.kept k hk i hi)⟩
    | some e =>
      rw [run_take_succ he]
      refine ih.happen (Sound.of_run created id settings _) (prepared_of_run created _ name)
        (straight.getElem? he) old fun step i handles => ?_
      exact ⟨n, Nat.lt_succ_self n, step ▸ he, handles⟩

/-- Every record of the version topic below the position of a replica was applied by it or published
by it, in this life or an earlier one, exactly if it never leapt over a record. This is for any
roles, batches, outages, restarts and records that others append. -/
theorem none_skipped_iff (name : String) (events : List Event) :
    (∀ n f, (c.run id settings (events.take n)).feed? id name = some f →
      ∀ i < f.tracker.versionPosition, c.Handled id settings events name n i) ↔
      c.Along id settings (fun c e => ¬ c.Leaps id settings name e) events := by
  constructor
  · intro handled
    refine along_of_forall fun n e he leaps => ?_
    obtain ⟨g, i, hg, hlt, skipped⟩ := not_handled_of_leaps created he leaps
    exact skipped (handled (n + 1) g hg i hlt)
  · exact fun straight n f hf => (handled_of_not_leaps created straight n).below f hf

end Runs

/-! ## A late record

The host `a` leads, has come to the end of the version topic and is about to publish a record of the
real-time topic. -/

/-- Nobody appends to the version topic before `a` does. -/
def ownRecord : List Event :=
  .append sampleId.versionTopic (sampleRecord "k" (.control .endOfPush)) ::
    .append (sampleId.realTimeTopic none) (sampleRecord "k" (.put "1".toUTF8)) ::
    .start "a" .leader :: steps "a" 24

theorem none_skipped_iff_ownRecord : ∃ f,
    (twoHosts.run sampleId hybridSettings (ownRecord.take 27)).feed? sampleId "a" = some f ∧
      f.tracker.versionPosition = 2 ∧
      ∀ i < 2, twoHosts.Handled sampleId hybridSettings ownRecord "a" 27 i := by
  have position :
      ((twoHosts.run sampleId hybridSettings (ownRecord.take 27)).feed? sampleId "a").map
      (·.tracker.versionPosition) = some 2 := by decide +kernel
  obtain ⟨f, hf, hposition⟩ := Option.map_eq_some_iff.mp position
  refine ⟨f, hf, hposition, fun i hi => ?_⟩
  exact (none_skipped_iff create_twoHosts "a" ownRecord).mpr (by decide +kernel) 27 f hf i
    (hposition ▸ hi)

/-- Somebody else appends a record right before. -/
def lateRecord : List Event :=
  .append sampleId.versionTopic (sampleRecord "k" (.control .endOfPush)) ::
    .append (sampleId.realTimeTopic none) (sampleRecord "k" (.put "1".toUTF8)) ::
    .start "a" .leader :: steps "a" 22 ++
    .append sampleId.versionTopic (sampleRecord "l" (.put "2".toUTF8)) :: steps "a" 2

theorem leaps_lateRecord : lateRecord[27]? = some (.step "a") ∧
    (twoHosts.run sampleId hybridSettings (lateRecord.take 27)).Leaps sampleId hybridSettings "a"
      (.step "a") :=
  ⟨rfl, by decide +kernel⟩

/-- It is neither applied nor published by `a`, which has come past it. -/
theorem skipped_lateRecord : ¬ ∀ n f,
    (twoHosts.run sampleId hybridSettings (lateRecord.take n)).feed? sampleId "a" = some f →
      ∀ i < f.tracker.versionPosition,
        twoHosts.Handled sampleId hybridSettings lateRecord "a" n i := by
  intro handled
  obtain ⟨g, i, hg, hlt, skipped⟩ :=
    not_handled_of_leaps create_twoHosts leaps_lateRecord.1 leaps_lateRecord.2
  exact skipped (handled 28 g hg i hlt)

end Cluster

end StoreFeed
