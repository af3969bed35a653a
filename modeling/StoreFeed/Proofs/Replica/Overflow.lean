import StoreFeed.Proofs.Replica.ErrorPolicy
import StoreFeed.Proofs.Replica.Ranges

/-!
# What runs out of range

The next step of a replica is broken off by an overflow in two cases only (`Run.Exceeds`): a leader
seeks a start as far back as the settings say, and that is too many milliseconds, or the replica is
done with a record of the version topic that is stamped with the last offset there is. A step that
seeks a start asks the log for it once, and no other step does.
-/

namespace StoreFeed

open Decimal (maxWord64)

/-- The pauses of the record in hand, or of the commit. -/
def Phase.backoff? : Phase → Option Backoff
  | .working w => some w.backoff
  | .committing b => some b
  | _ => none

/-- All pauses of a replica are those that its host's settings ask for. -/
def Replica.Paced (host : HostSettings) (r : Replica) : Prop :=
  r.backoff.Of host ∧ ∀ b, r.phase.backoff? = some b → b.Of host

/-- Whether the subscriptions are to be brought in line with the role. -/
def Phase.isAligning : Phase → Bool
  | .aligning _ => true
  | _ => false

theorem Phase.backoff?_of_retry? {p q : Phase} (h : p.retry? = some q) : q.backoff? = none := by
  cases p <;> cases h <;> rfl

theorem Feed.backoff?_settled (f : Feed) (w : Work) (value : Option ByteArray) :
    (f.settled w value).backoff? = some w.backoff := by
  unfold settled
  split <;> rfl

theorem Feed.backoff?_nextPhase {f : Feed} {b b' : Backoff}
    {batch : List (TopicPartition × ChangeRecord)}
    {processed : Bool} (h : (f.nextPhase b batch processed).backoff? = some b') : b' = b := by
  rcases f.nextPhase_cases b batch processed with hp | hp | ⟨_, _, _, hp⟩
  all_goals
    rw [hp] at h
    cases h
  all_goals rfl

namespace Run

/-- The next step is what the phase says: the replica neither waits nor ends a pause. -/
def Acts (run : Run) : Prop := run.isWaiting = false ∧ run.replica.wakeAt = none

instance (run : Run) : Decidable run.Acts := inferInstanceAs (Decidable (_ ∧ _))

/-- The next step seeks the start of a partition: nothing is left to be dropped, it is the first one
that the subscriptions lack, and the replica has no position in it. -/
structure Seeks (run : Run) (tp : TopicPartition) : Prop where
  acts : run.Acts
  phase : run.replica.phase.isAligning
  consumer : run.replica.consumer.isSome
  kept : run.replica.subscriptions.diff run.replica.desiredSubscriptions = []
  missing : (run.replica.desiredSubscriptions.diff run.replica.subscriptions).head? = some tp
  elsewhere : tp ≠ run.replica.id.versionTopic
  unknown : run.replica.tracker.realTimePosition? tp.region = none

instance (run : Run) (tp : TopicPartition) : Decidable (run.Seeks tp) :=
  decidable_of_iff
    (run.Acts ∧ run.replica.phase.isAligning ∧ run.replica.consumer.isSome ∧
      run.replica.subscriptions.diff run.replica.desiredSubscriptions = [] ∧
      (run.replica.desiredSubscriptions.diff run.replica.subscriptions).head? = some tp ∧
      tp ≠ run.replica.id.versionTopic ∧ run.replica.tracker.realTimePosition? tp.region = none)
    ⟨fun ⟨acts, phase, consumer, kept, missing, elsewhere, unknown⟩ =>
        ⟨acts, phase, consumer, kept, missing, elsewhere, unknown⟩,
      fun h => ⟨h.acts, h.phase, h.consumer, h.kept, h.missing, h.elsewhere, h.unknown⟩⟩

/-- The next step needs a number that does not fit 64 bits: how far back a start lies that it seeks,
or the position behind the stamp of a record of the version topic that it finishes. -/
inductive Exceeds (run : Run) : Prop where
  | rewind (tp : TopicPartition) (seeks : run.Seeks tp)
      (far : maxWord64 < run.replica.settings.rewindSeconds * 1000)
  | stamp (w : Work) (origin : RealTimePosition) (finishes : run.Finishes w)
      (version : run.feed.readsVersion w) (stamped : w.record.origin = some origin)
      (last : maxWord64 ≤ origin.offset)

/-- What may become of the ends that a replica sampled: one real-time topic is sampled anew. -/
def Learns (a : Run) (t : LagTracker) : Prop :=
  t.realTimeEnds = a.replica.tracker.realTimeEnds ∨
    ∃ region, t.realTimeEnds = a.replica.tracker.realTimeEnds.insert region
      (a.commons.log.records (a.replica.id.realTimeTopic region)).length

/-- The next step is broken off by an overflow. -/
def Overflows (run : Run) : Prop := ∃ e b, Act.step run = .error e b

instance (run : Run) : Decidable run.Overflows :=
  match h : Act.step run with
  | .ok _ _ => isFalse fun ⟨_, _, broken⟩ => by rw [h] at broken; cases broken
  | .error e b => isTrue ⟨e, b, h⟩

/-- An overflow ends the task. -/
theorem phase_step_of_overflows {run : Run} (h : run.Overflows) :
    run.step.replica.phase = .killed := by
  obtain ⟨e, b, broken⟩ := h
  unfold step
  rw [broken]

/-- What else the next step reckons with is in range. -/
structure Ranges (host : HostSettings) (run : Run) : Prop where
  small : Word.total run.replica.tracker.realTimeEnds.values ≤ maxWord64
  settings : run.site.settings = host
  paced : run.replica.Paced host
  read : ∀ w, run.replica.phase = .working w → w.record.offset < maxWord64
  published : ∀ w value offset, run.replica.phase = .working w → w.stage = .write value offset →
    ¬ run.feed.readsVersion w → offset < maxWord64

/-- What a step leaves behind: the host's settings, its pauses, and ends that were known or are
sampled. -/
structure Leaves (host : HostSettings) (a b : Run) : Prop where
  settings : b.site.settings = host
  paced : b.replica.Paced host
  ends : ∀ region n, b.replica.tracker.realTimeEnds.find? region = some n →
    a.replica.tracker.realTimeEnds.find? region = some n ∨
      n = (a.commons.log.records (a.replica.id.realTimeTopic region)).length

/-! ## Starts that are sought -/

variable {run a : Run} {v : Standing} {host : HostSettings}

theorem Seeks.sought {tp : TopicPartition} (h : run.Seeks tp) : run.sought? = some tp := by
  obtain ⟨c, consumer⟩ := Option.isSome_iff_exists.mp h.consumer
  obtain ⟨rest, missing⟩ := List.head?_eq_some_iff.mp h.missing
  have unknown : run.replica.knowsStart tp = false := by
    unfold Replica.knowsStart
    rw [decide_eq_false h.elsewhere, h.unknown]
    rfl
  have aligning := h.phase
  unfold Phase.isAligning at aligning
  unfold sought?
  split at aligning
  · rename_i first phase
    rw [phase, consumer, h.kept, missing]
    dsimp only
    rw [unknown]
    rfl
  · cases aligning

theorem Seeks.ne_working {tp : TopicPartition} (h : run.Seeks tp) (w : Work) :
    run.replica.phase ≠ .working w := by
  intro hp
  have phase := h.phase
  rw [hp] at phase
  cases phase

/-- A start that is not too far back is in range. -/
theorem Seeks.not_exceeds {tp : TopicPartition} (h : run.Seeks tp)
    (near : run.replica.settings.rewindSeconds * 1000 ≤ maxWord64) : ¬ run.Exceeds
  | .rewind _ _ far => Nat.not_lt.mpr near far
  | .stamp w _ finished _ _ _ => h.ne_working w finished.phase

theorem seeks_of_sought? {tp : TopicPartition} (acts : run.Acts) (h : run.sought? = some tp) :
    run.Seeks tp := by
  unfold sought? at h
  split at h
  · rename_i first c phase consumer
    split at h
    · rename_i tp' rest kept missing
      split at h
      · cases h
      · rename_i unknown
        cases h
        unfold Replica.knowsStart at unknown
        simp only [Bool.or_eq_true, decide_eq_true_eq, not_or, Bool.not_eq_true,
          Option.isSome_eq_false_iff, Option.isNone_iff_eq_none] at unknown
        exact ⟨acts, by rw [phase]; rfl, by rw [consumer]; rfl, kept, by rw [missing]; rfl,
          unknown.1, unknown.2⟩
    · cases h
  · cases h

/-- The log is asked for the start that is sought, if that is near enough, and for nothing else. -/
theorem Performs.seeks (h : a.Performs v) : a.Near ∧ v.asked = a.questions ++ a.asked := by
  have silent : a.sought? = none → a.Near ∧ a.asked = a.questions ++ a.asked := fun unasked =>
    ⟨a.near_of_sought? unasked, a.asked_of_sought? unasked⟩
  have elsewhere : ∀ {p : Phase}, a.replica.phase = p → p.isAligning = false →
      a.sought? = none := by
    rintro p rfl other
    exact a.sought?_of_phase fun first aligning => by
      rw [aligning] at other
      cases other
  cases h with
  | again | aim | refuse => exact ⟨‹_›, rfl⟩
  | drop _ _ _ _ _ _ surplus => exact silent (sought?_of_surplus surplus)
  | align _ _ _ _ complete => exact silent (sought?_of_complete complete)
  | fail e mishap =>
    refine silent (elsewhere rfl ?_)
    have batching := batching_of_mishap? mishap
    cases phase : a.replica.phase with
    | aligning first =>
      rw [phase] at batching
      cases first <;> cases batching
    | _ => rfl
  | _ => exact silent (elsewhere ‹_› rfl)

/-! ## What a step leaves -/

/-- The pauses of what is next are those of what was in hand, or fresh ones. -/
theorem Performs.paced (h : a.Performs v) (settings : a.site.settings = host)
    (paced : a.replica.Paced host) : ∀ b, v.feed.phase.backoff? = some b → b.Of host := by
  have fresh : (Backoff.ofSettings a.site.settings).Of host := settings ▸ Backoff.of_ofSettings _
  have own : ∀ {p : Phase} {b : Backoff},
      a.replica.phase = p → p.backoff? = some b → b.Of host := by
    rintro _ b rfl
    exact paced.2 b
  have again : ∀ {p : Phase} {b b' : Backoff}, a.replica.phase = p → p.backoff? = some b →
      b' = b ∨ b' = b.next.2 → b'.Of host := by
    rintro p b b' phase hb (rfl | rfl)
    · exact own phase hb
    · exact (own phase hb).next
  intro b hb
  cases h with
  | again p _ next => cases (Phase.backoff?_of_retry? next).symm.trans hb
  | poll | mark | pass | store =>
    rw [Feed.backoff?_nextPhase hb]
    exact fresh
  | look w p phase _ looks =>
    cases looks with
    | put | delete => exact own phase ((Feed.backoff?_settled ..).symm.trans hb)
    | update => exact own phase hb
  | merge w _ _ phase => exact own phase ((Feed.backoff?_settled ..).symm.trans hb)
  | openTopic w _ phase | publish w _ phase => exact own phase hb
  | startOver w b' _ _ phase _ pauses =>
    cases hb
    exact again phase rfl pauses
  | commitAgain b₀ b' _ _ phase _ pauses =>
    cases hb
    exact again phase rfl pauses
  | obey processed =>
    obtain ⟨_, _, _, _, _, rfl | rfl, obeyed⟩ := a.course.obeyed_eq processed
    all_goals
      rw [obeyed] at hb
      cases hb
  | sampleVersion _ _ _ next => rcases next with rfl | rfl <;> cases hb
  | wait phase =>
    obtain ⟨_, _, rfl | rfl, waited⟩ := a.course.waited_eq <;> rw [waited] at hb
    · exact own rfl hb
    · cases hb
  | drop | detach => exact own rfl hb
  | _ => cases hb

/-- Only to sample a region is to learn of an end. -/
theorem Performs.learns (h : a.Performs v) : a.Learns v.feed.tracker := by
  cases h with
  | restore => exact .inl (a.feed.tracker.resumed_leaves _).2.1
  | attach c tp =>
    refine .inl ?_
    dsimp only [Standing.withFeed]
    split <;> rfl
  | mark w m =>
    obtain ⟨_, past⟩ := (a.feed.tracker.marked m).pastVersionRecord_eq w.record
    rw [past]
    cases m <;> exact .inl rfl
  | store w value offset =>
    obtain ⟨_, _, stored⟩ := a.feed.stored_eq w offset
    rw [stored]
    exact .inl rfl
  | obey processed =>
    obtain ⟨_, _, _, _, role, _, obeyed⟩ := a.course.obeyed_eq processed
    rw [obeyed]
    rcases role with rfl | ⟨role, rfl⟩
    · exact .inl rfl
    · refine .inl ?_
      dsimp only [Feed.inRole]
      split <;> rfl
  | turn processed target =>
    refine .inl ?_
    dsimp only [Standing.withFeed, Feed.aimedAt]
    split <;> rfl
  | sampleRegion processed region => exact .inr ⟨region, rfl⟩
  | wait =>
    obtain ⟨_, _, _, waited⟩ := a.course.waited_eq
    rw [waited]
    exact .inl rfl
  | _ => exact .inl rfl

theorem BreaksOff.learns (h : a.BreaksOff v) : a.Learns v.feed.tracker := by
  cases h with
  | done performs => exact performs.learns
  | mark w m => cases m <;> exact .inl rfl
  | rest | far | pass | store => exact .inl rfl

theorem step_learns (a : Run) : a.Learns a.step.replica.tracker := by
  show a.Learns a.step.standing.feed.tracker
  cases a.step_takes with
  | rest _ same =>
    rw [same]
    exact .inl rfl
  | wake _ _ standing =>
    obtain ⟨_, _, _, _, _, woken⟩ := a.course.woken_eq
    rw [standing, woken]
    exact .inl rfl
  | act _ _ performs => exact performs.learns
  | breakOff _ _ breaks standing =>
    rw [standing]
    exact breaks.learns

/-- An end that is known after a step was known before, or is how many records the topic has. -/
theorem Learns.find? {t : LagTracker} (h : a.Learns t) {region : Option RegionId} {n : Nat}
    (known : t.realTimeEnds.find? region = some n) :
    a.replica.tracker.realTimeEnds.find? region = some n ∨
      n = (a.commons.log.records (a.replica.id.realTimeTopic region)).length := by
  rcases h with same | ⟨region', sampled⟩
  · exact .inl (same ▸ known)
  · rw [sampled] at known
    by_cases same : region = region'
    · subst same
      rw [SortedMap.find?_insert_self] at known
      cases known
      exact .inr rfl
    · rw [SortedMap.find?_insert_of_ne _ same] at known
      exact .inl known

/-! ## What is broken off -/

/-- What is not broken off stayed in range. -/
theorem Performs.not_exceeds (h : a.Performs v) : ¬ a.Exceeds := by
  rintro (⟨tp, seeks, far⟩ | ⟨w, origin, finishes, version, stamped, last⟩)
  · exact Nat.not_lt.mpr (h.seeks.1 (by rw [seeks.sought]; rfl)) far
  · -- The record in hand is done with, which only goes with its positions in range.
    have unfit : ¬ w.record.InRange := fun inRange => Nat.not_lt.mpr last (inRange.2 origin stamped)
    cases h with
    | mark w' m phase _ _ _ fits =>
      cases finishes.eq_of_working phase
      exact unfit fits
    | store w' value offset phase _ _ fits =>
      cases finishes.eq_of_working phase
      exact unfit ((if_pos version).mp fits)
    | pass w' _ phase _ _ realTime =>
      cases finishes.eq_of_working phase
      exact realTime version
    | look w' p phase stage looks =>
      cases finishes.eq_of_working phase
      obtain ⟨m, control⟩ := finishes.control_of_fresh stage
      cases looks <;> cases control.symm.trans ‹_›
    | merge w' _ _ phase stage | openTopic w' _ phase stage | publish w' _ phase stage =>
      cases finishes.eq_of_working phase
      exact finishes.not_under_way (by simp [stage]) (by simp [stage])
    | startOver _ _ e _ _ retries => exact finishes.ne_mishap e retries.mishap
    | fail e mishap => exact finishes.ne_mishap e mishap
    | again _ _ next =>
      rw [finishes.phase] at next
      cases next
    | refuse _ _ tried =>
      rw [finishes.phase] at tried
      cases tried
    | commitAgain _ _ _ _ phase => cases finishes.phase.symm.trans phase
    | _ => cases finishes.phase.symm.trans ‹_›

theorem Ranges.light (h : a.Ranges host) : ¬ a.replica.tracker.Heavy :=
  LagTracker.not_heavy_of_small h.small

/-- To be broken off is not to ask, where the lag is in range. -/
theorem BreaksOff.asked (h : a.BreaksOff v) (light : ¬ a.replica.tracker.Heavy) :
    v.asked = a.asked := by
  cases h with
  | rest _ heavy | done _ heavy => exact absurd heavy light
  | far | pass | mark | store => rfl

/-- What is broken off exceeds what can be counted. -/
theorem BreaksOff.exceeds (h : a.BreaksOff v) (ranges : a.Ranges host) (acts : a.Acts) :
    a.Exceeds := by
  -- A record of the version topic that is done with is stamped with the last offset.
  have stamp : ∀ {w : Work}, a.Finishes w → a.feed.readsVersion w → ¬ w.record.InRange →
      a.Exceeds := by
    intro w finishes version unfit
    cases origin : w.record.origin with
    | none =>
      refine absurd ⟨ranges.read w finishes.phase, fun p stamped => ?_⟩ unfit
      cases origin.symm.trans stamped
    | some p =>
      refine .stamp w p finishes version origin (Nat.not_lt.mp fun small => unfit ?_)
      refine ⟨ranges.read w finishes.phase, fun p' stamped => ?_⟩
      cases origin.symm.trans stamped
      exact small
  cases h with
  | rest _ heavy | done _ heavy => exact absurd heavy ranges.light
  | far sought far =>
    obtain ⟨tp, sought⟩ := Option.isSome_iff_exists.mp sought
    exact .rewind tp (seeks_of_sought? acts sought) far
  | pass w m phase _ _ _ last => exact absurd (ranges.read w phase) (Nat.not_lt.mpr last)
  | mark w m _ phase stage payload version unfit =>
    exact stamp ⟨acts.2, phase, mishap?_of_fresh phase stage, .inl ⟨m, stage, payload⟩⟩
      version unfit
  | store w value offset _ phase stage fine unfit =>
    by_cases version : a.feed.readsVersion w
    · refine stamp ⟨acts.2, phase, fine, .inr ⟨value, offset, stage⟩⟩ version
        fun inRange => unfit ?_
      exact (if_pos version).mpr inRange
    · refine absurd ?_ unfit
      exact (if_neg version).mpr
        ⟨ranges.read w phase, ranges.published w value offset phase stage version⟩

/-- A step is broken off only where it acts. -/
theorem Overflows.breaks (h : run.Overflows) : run.Acts ∧ ∃ v, run.BreaksOff v := by
  obtain ⟨e, b, broken⟩ := h
  have ends := run.ends_step
  unfold Act.Ends at ends
  rw [broken] at ends
  obtain ⟨waits, awake, leaves⟩ := ends
  obtain ⟨v, breaks, -⟩ := leaves.breaks
  exact ⟨⟨waits, awake⟩, v, breaks⟩

/-- A task that no overflow ends goes on. -/
theorem ne_killed_of_not_overflows (alive : run.replica.phase ≠ .killed) (fine : ¬ run.Overflows) :
    run.step.replica.phase ≠ .killed := by
  have ends := run.ends_step
  unfold Act.Ends at ends
  unfold step
  split at ends
  · rename_i returns
    rw [returns]
    exact ends.2 alive
  · rename_i broken
    exact absurd ⟨_, _, broken⟩ fine

/-- What exceeds what can be counted acts. -/
theorem Exceeds.acts (h : run.Exceeds) : run.Acts := by
  cases h with
  | rewind tp seeks => exact seeks.acts
  | stamp w origin finishes => exact ⟨acts_of_live finishes.awake finishes.live, finishes.awake⟩

variable (h : run.Ranges host)
include h

theorem overflows_iff : run.Overflows ↔ run.Exceeds := by
  refine ⟨fun overflows => ?_, fun exceeds => ?_⟩
  · obtain ⟨acts, v, breaks⟩ := overflows.breaks
    exact breaks.exceeds h acts
  · by_contra fine
    have acts := exceeds.acts
    have alive : run.replica.phase ≠ .killed := fun killed => by
      have waits := acts.1
      unfold isWaiting Replica.isWaiting at waits
      rw [killed] at waits
      cases waits
    have goesOn := ne_killed_of_not_overflows alive fine
    cases run.step_takes with
    | rest waits => cases waits.symm.trans acts.1
    | wake _ paused => cases paused.symm.trans (congrArg Option.isSome acts.2)
    | act _ _ performs => exact performs.not_exceeds exceeds
    | breakOff _ _ _ standing =>
      exact goesOn (congrArg (fun v : Standing => v.feed.phase) standing)

/-- Whether it is broken off or not, a step leaves ends and pauses that are in range. -/
theorem leaves_step : run.Leaves host run.step := by
  have upholds := run.step_upholds
  refine ⟨upholds.settings.trans h.settings, ⟨upholds.paced host h.paced.1, ?_⟩,
    fun region n => run.step_learns.find?⟩
  show ∀ b, run.step.standing.feed.phase.backoff? = some b → b.Of host
  cases run.step_takes with
  | rest _ same =>
    rw [same]
    exact h.paced.2
  | wake _ _ standing =>
    rw [standing]
    obtain ⟨_, _, _, _, rfl | rfl, woken⟩ := run.course.woken_eq <;> rw [woken]
    · exact h.paced.2
    · exact fun b hb => by cases hb
  | act _ _ performs => exact performs.paced h.settings h.paced
  | breakOff _ _ _ standing =>
    rw [standing]
    exact fun b hb => by cases hb

/-- A step that acts asks for the start that it seeks, and for nothing else, unless it is broken
off. -/
theorem asked_step : run.step.asked = run.asked ∧ (run.Acts → run.Exceeds) ∨
    run.Acts ∧ run.step.asked = run.questions ++ run.asked := by
  show run.step.standing.asked = _ ∧ _ ∨ _ ∧ run.step.standing.asked = _
  cases run.step_takes with
  | rest waits same =>
    rw [same]
    exact .inl ⟨rfl, fun acts => Bool.noConfusion (waits.symm.trans acts.1)⟩
  | wake _ paused standing =>
    rw [standing]
    exact .inl ⟨rfl, fun acts =>
      Bool.noConfusion (paused.symm.trans (congrArg Option.isSome acts.2))⟩
  | act waits awake performs => exact .inr ⟨⟨waits, awake⟩, performs.seeks.2⟩
  | breakOff waits awake breaks standing =>
    rw [standing]
    exact .inl ⟨breaks.asked h.light, breaks.exceeds h⟩

/-- A step that seeks a start asks for it, unless it is too far back. -/
theorem asked_step_of_seeks {tp : TopicPartition} (seeks : run.Seeks tp)
    (near : run.replica.settings.rewindSeconds * 1000 ≤ maxWord64) : run.step.asked =
      (tp, run.commons.now - run.replica.settings.rewindSeconds * 1000) :: run.asked := by
  rcases asked_step h with ⟨-, exceeds⟩ | ⟨-, asked⟩
  · exact absurd (exceeds seeks.acts) (seeks.not_exceeds near)
  · rw [asked, questions, seeks.sought]
    rfl

/-- No other step asks the log for a start. -/
theorem asked_step_of_not_seeks (seeks : ∀ tp, ¬ run.Seeks tp) : run.step.asked = run.asked := by
  rcases asked_step h with ⟨asked, -⟩ | ⟨acts, asked⟩
  · exact asked
  · have unasked : run.sought? = none :=
      Option.eq_none_iff_forall_ne_some.mpr fun tp sought => seeks tp (seeks_of_sought? acts sought)
    rw [asked, ← run.asked_of_sought? unasked]

/-- A step that stays in range ends no task by an overflow. -/
theorem ne_killed_step (alive : run.replica.phase ≠ .killed) (within : ¬ run.Exceeds) :
    run.step.replica.phase ≠ .killed :=
  ne_killed_of_not_overflows alive (mt (overflows_iff h).mp within)

end Run

end StoreFeed
