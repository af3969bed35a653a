import Mathlib.Data.List.Nodup
import StoreFeed.Proofs.Replica.Life
import StoreFeed.Proofs.Word

/-!
# When a replica goes online

A hybrid replica goes online at the end of a cycle in which its real-time lag is within the
threshold. The lag is measured on the regions whose ends were sampled in this life. They are sampled
in order, and a call that fails ends the sampling, so they are always the first ones of the
configured regions (`Outlook.Surveyed`).

`Life.readiness` says what holds when a replica goes online, and that all configured regions are
within the threshold together exactly if all of them were sampled. With one region that is always
so. With more it is not: `Life.online_secondRegionUnsampled`.
-/

namespace StoreFeed

/-- No region is configured twice. -/
theorem VersionSettings.nodup_realTimeRegions (s : VersionSettings) : s.realTimeRegions.Nodup := by
  unfold realTimeRegions
  split
  · exact s.regions.nodup_keys.map fun _ _ h => Option.some.inj h
  · exact List.nodup_singleton _

/-- When a replica is caught up. -/
theorem LagTracker.within_of_isCaughtUp {t : LagTracker} (h : t.isCaughtUp = .ok true)
    {threshold : Nat} (ht : t.threshold = some threshold) :
    (∃ region, t.realTimeEnds.contains region) ∧
      Word.total (t.realTimeEnds.keys.map t.regionLag) ≤ threshold := by
  have known : t.realTimeEnds.isEmpty = false := by
    by_contra hempty
    have hempty : t.realTimeEnds.isEmpty = true := by simpa using hempty
    simp [isCaughtUp, endOfPush_of_isCaughtUp h, ht, realTimeLag, hempty, bind, Except.bind, pure,
      Except.pure] at h
  constructor
  · have hne : t.realTimeEnds.keys ≠ [] := by
      simpa [SortedMap.keys, SortedMap.isEmpty] using known
    obtain ⟨region, hregion⟩ := List.exists_mem_of_ne_nil _ hne
    exact ⟨region, SortedMap.mem_keys.mp hregion⟩
  · by_cases hsum : Word.total (t.realTimeEnds.keys.map t.regionLag) ≤ Decimal.maxWord64
    · simpa [isCaughtUp, endOfPush_of_isCaughtUp h, ht, realTimeLag, isHybrid,
        known, Word.sum, hsum, bind, Except.bind, pure, Except.pure] using h
    · simp [isCaughtUp, endOfPush_of_isCaughtUp h, ht, realTimeLag, isHybrid, known, Word.sum, hsum,
        bind, Except.bind] at h

/-! ## Sampled ends -/

/-- The region whose end the next step samples, and the end if the log answers. -/
def Run.sample? (a : Run) : Option (Option RegionId × Nat) :=
  match a.replica.wakeAt, a.replica.phase with
  | none, .samplingRegions _ (region :: _) =>
    (a.endAnswer? (a.replica.id.realTimeTopic region)).map fun end_ => (region, end_)
  | _, _ => none

namespace Run

variable {a : Run} {g : Outlook}

theorem sample?_eq_some {region : Option RegionId} {end_ : Nat}
    (h : a.sample? = some (region, end_)) :
    a.replica.wakeAt = none ∧ (∃ processed rest,
      a.replica.phase = .samplingRegions processed (region :: rest)) ∧
        a.endAnswer? (a.replica.id.realTimeTopic region) = some end_ := by
  unfold sample? at h
  split at h
  · rename_i processed region' rest hwake hphase
    obtain ⟨end', hanswer, heq⟩ := Option.map_eq_some_iff.mp h
    cases heq
    exact ⟨hwake, ⟨processed, rest, hphase⟩, hanswer⟩
  · cases h

/-- What is not sampled stays as it was. -/
theorem Turns.realTimeEnds (h : a.Turns g) (hs : a.sample? = none) :
    g.realTimeEnds = a.outlook.realTimeEnds := by
  cases h with
  | sample processed region rest end_ awake phase answered =>
    have hwake : a.replica.wakeAt = none := by
      simpa [outlook] using awake
    simp [sample?, hwake, phase, answered] at hs
  | _ => rfl

theorem StepsTo.realTimeEnds (h : a.StepsTo g) (hs : a.sample? = none) :
    g.realTimeEnds = a.outlook.realTimeEnds := by
  cases h with
  | turn turns => exact turns.realTimeEnds hs
  | breakOff turns => exact turns.realTimeEnds hs

/-- A call that is answered did not fail. -/
theorem not_stumbles_of_answer {processed : Bool} {regions : List (Option RegionId)}
    (phase : a.replica.phase = .samplingRegions processed regions)
    {tp : TopicPartition} {end_ : Nat} (answered : a.endAnswer? tp = some end_) : ¬ a.Stumbles := by
  refine not_stumbles (fun op called => ?_) (by simp [phase, Phase.consumes])
    (mishap?_of_phase (by simp [phase, Phase.chapter]))
  rw [phase, Phase.calls, List.mem_singleton] at called
  subst called
  unfold endAnswer? Log.endOffset Log.checkAvailable at answered
  split at answered
  · cases answered
  · rename_i fine
    refine ⟨fine, fun _ => ?_⟩
    cases available : a.commons.log.available with
    | true => rfl
    | false =>
      rw [available] at answered
      cases answered

/-- What the log answers is sampled. -/
theorem Performs.realTimeEnds {v : Standing} (h : a.Performs v) {processed : Bool}
    {region : Option RegionId} {rest : List (Option RegionId)} {end_ : Nat}
    (samples : a.replica.phase = .samplingRegions processed (region :: rest))
    (answers : a.endAnswer? (a.replica.id.realTimeTopic region) = some end_) :
    v.feed.tracker.realTimeEnds = a.feed.tracker.realTimeEnds.insert region end_ := by
  have calm := not_stumbles_of_answer samples answers
  cases h with
  | sampleRegion processed' region' rest' phase answered =>
    cases samples.symm.trans phase
    cases answers.symm.trans answered
    rfl
  | sampled processed' rest' phase done =>
    cases samples.symm.trans phase
    cases done.resolve_right calm
  | fail e mishap => exact absurd (.mishap e mishap) calm
  | _ => simp_all [Phase.retry?]

/-- A step keeps what it samples, and forgets nothing. -/
theorem realTimeEnds_step (sound : a.outlook.Sound) : a.step.outlook.realTimeEnds =
    match a.sample? with
    | some (region, end_) => a.outlook.realTimeEnds.insert region end_
    | none => a.outlook.realTimeEnds := by
  cases hs : a.sample? with
  | none => exact (step_stepsTo sound.killed_or_shows).realTimeEnds hs
  | some sampled =>
    obtain ⟨region, end_⟩ := sampled
    obtain ⟨awake, ⟨processed, rest, phase⟩, answered⟩ := sample?_eq_some hs
    obtain ⟨v, performs, standing⟩ := step_performs awake (phase ▸ rfl)
      (not_stumbles_of_answer phase answered) (phase ▸ rfl) (a.sought?_of_phase (by simp [phase]))
      (by simp [phase])
    have sampled := performs.realTimeEnds phase answered
    show a.step.standing.feed.tracker.realTimeEnds = _
    rcases standing with same | ⟨-, same⟩ <;> rw [same] <;> exact sampled

end Run

/-! ## What holds throughout a life -/

/-- Outside a batch, the end of the push is received only together with a checkpoint that has it. -/
def Outlook.Committed (o : Outlook) : Prop :=
  o.endOfPush = true → o.phase.chapter ≠ .batching → o.phase.isOver = false →
    o.checkpoint.any (·.endOfPush) = true

/-- The sampled regions are the first ones of the configured regions, and so are those that are done
while they are sampled. -/
structure Outlook.Surveyed (o : Outlook) : Prop where
  sampled : ∃ k, (∀ region, o.realTimeEnds.contains region ↔
      region ∈ o.settings.realTimeRegions.take k) ∧
    ∀ processed rest, o.phase = .samplingRegions processed rest →
      ∃ j ≤ k, rest = o.settings.realTimeRegions.drop j
  threshold : o.threshold = o.settings.lagThreshold?

namespace Run

variable {a : Run} {g : Outlook}

theorem Turns.committed (h : a.Turns g) (committed : a.outlook.Committed) : g.Committed := by
  -- In the phase that the turn begins in, no batch is in hand.
  have before : ∀ {p : Phase}, a.replica.phase = p → p.chapter ≠ .batching → p.isOver = false →
      a.outlook.endOfPush = true → a.outlook.checkpoint.any (·.endOfPush) = true := by
    rintro p rfl open_ live push
    exact committed push open_ live
  have goesOn : ∀ {p : Phase}, a.replica.phase.chapter.leadsTo p.chapter →
      a.outlook.endOfPush = true → p.chapter ≠ .batching →
        a.outlook.checkpoint.any (·.endOfPush) = true := by
    intro p next push open_
    refine committed push (fun hb => open_ ?_) ?_
    · rw [show a.replica.phase.chapter = .batching from hb] at next
      cases hc : p.chapter <;> rw [hc] at next <;> first | rfl | cases next
    · have busy := (Chapter.isBusy_of_leadsTo next).1
      cases hp : a.replica.phase <;> rw [hp] at busy <;>
        first
        | exact congrArg Phase.isOver hp
        | cases busy
  intro push open_ live
  cases h with
  | rest | wake => exact committed push open_ live
  | enter since hp => exact before hp (by decide) rfl push
  | work p paused next => exact goesOn next push open_
  | raise p paused next => exact goesOn next push open_
  | restore since next hp =>
    rcases Bool.or_eq_true_iff.mp push with push | push
    · exact before hp (by simp [Phase.chapter]) rfl push
    · exact push
  | mark w m p hp hs hm next => exact absurd next open_
  | commit b hp => exact push
  | survey processed hp => exact before hp (by simp [Phase.chapter]) rfl push
  | sample processed region rest end_ awake hp =>
    exact before hp (by simp [Phase.chapter]) rfl push
  | bootstrap hp => exact before hp (by simp [Phase.chapter]) rfl push
  | goOnline processed paused hp => exact before hp (by simp [Phase.chapter]) rfl push
  | halt | leave | retire => cases live

theorem Turns.surveyed (h : a.Turns g) (surveyed : a.outlook.Surveyed) : g.Surveyed := by
  obtain ⟨⟨k, sampled, done⟩, threshold⟩ := surveyed
  -- In a phase that samples nothing nothing has to be done.
  have plain : ∀ {p : Phase}, (∀ processed rest, p ≠ .samplingRegions processed rest) →
      ∀ processed rest, p = .samplingRegions processed rest →
        ∃ j ≤ k, rest = a.outlook.settings.realTimeRegions.drop j :=
    fun hne processed rest hp => absurd hp (hne processed rest)
  have ahead : ∀ {p : Phase}, a.replica.phase.chapter.leadsTo p.chapter →
      ∀ processed rest, p ≠ .samplingRegions processed rest := by
    rintro p next processed rest rfl
    cases hc : a.replica.phase.chapter <;> rw [hc] at next <;> cases next
  cases h with
  | rest | wake => exact ⟨⟨k, sampled, done⟩, threshold⟩
  | work p paused next => exact ⟨⟨k, sampled, plain (ahead next)⟩, threshold⟩
  | raise p paused next => exact ⟨⟨k, sampled, plain (ahead next)⟩, threshold⟩
  | mark w m p hp hs hm next =>
    refine ⟨⟨k, sampled, plain ?_⟩, threshold⟩
    rintro processed rest rfl
    cases next
  | survey processed hp =>
    refine ⟨⟨k, sampled, fun _ _ hp => ⟨0, Nat.zero_le k, ?_⟩⟩, threshold⟩
    cases hp
    rfl
  | sample processed region rest end_ awake hp answered =>
    obtain ⟨j, hjk, hrest⟩ := done processed (region :: rest) hp
    have hj : j < a.outlook.settings.realTimeRegions.length := by
      have hlen := congrArg List.length hrest
      rw [List.length_cons, List.length_drop] at hlen
      omega
    rw [List.drop_eq_getElem_cons hj] at hrest
    obtain ⟨rfl, rfl⟩ := List.cons.inj hrest
    refine ⟨⟨max k (j + 1), fun region' => ?_, fun _ _ hp => ⟨j + 1, Nat.le_max_right _ _, ?_⟩⟩,
      threshold⟩
    · rw [SortedMap.contains_insert, sampled]
      rcases Nat.lt_or_ge j k with hlt | hge
      · -- The region was sampled in an earlier cycle.
        rw [Nat.max_eq_left hlt, or_iff_right_iff_imp]
        rintro rfl
        exact List.mem_take_iff_getElem.mpr ⟨j, by omega, rfl⟩
      · obtain rfl : j = k := Nat.le_antisymm hjk hge
        rw [Nat.max_eq_right (Nat.le_succ j), List.take_succ_eq_append_getElem hj, List.mem_append,
          List.mem_singleton, or_comm]
    · cases hp
      rfl
  | enter | restore | commit | bootstrap | goOnline | halt | leave | retire =>
    exact ⟨⟨k, sampled, plain (by simp [Outlook.displayed, Outlook.halted])⟩, threshold⟩

theorem StepsTo.committed (h : a.StepsTo g) (committed : a.outlook.Committed) : g.Committed := by
  cases h with
  | turn turns => exact turns.committed committed
  | breakOff => exact fun _ _ live => by cases live

theorem StepsTo.surveyed (h : a.StepsTo g) (surveyed : a.outlook.Surveyed) : g.Surveyed := by
  cases h with
  | turn turns => exact turns.surveyed surveyed
  | breakOff turns =>
    obtain ⟨⟨k, sampled, _⟩, threshold⟩ := turns.surveyed surveyed
    exact ⟨⟨k, sampled, fun _ _ hp => by cases hp⟩, threshold⟩

theorem StepsTo.identity (h : a.StepsTo g) :
    g.id = a.outlook.id ∧ g.settings = a.outlook.settings := by
  have turn : ∀ {g : Outlook}, a.Turns g →
      g.id = a.outlook.id ∧ g.settings = a.outlook.settings := by
    intro g turns
    cases turns <;> exact ⟨rfl, rfl⟩
  cases h with
  | turn turns => exact turn turns
  | breakOff turns =>
    have same := turn turns
    exact same

/-- A replica goes online only where it concludes a cycle and is caught up. -/
theorem StepsTo.caughtUp (h : a.StepsTo g) (before : a.replica.state ≠ .online)
    (after : g.state = .online) : (∃ processed, a.replica.phase = .concluding processed) ∧
      a.replica.state = .bootstrapping ∧ a.replica.tracker.isCaughtUp = .ok true := by
  have turn : ∀ {g : Outlook}, a.Turns g → g.state = .online →
      (∃ processed, a.replica.phase = .concluding processed) ∧
        a.replica.state = .bootstrapping ∧ a.replica.tracker.isCaughtUp = .ok true := by
    intro g turns after
    cases turns with
    | goOnline processed paused hp hs caughtUp => exact ⟨⟨processed, hp⟩, hs, caughtUp⟩
    | enter | bootstrap | halt | retire => cases after
    | _ => exact absurd after before
  cases h with
  | turn turns => exact turn turns after
  | breakOff turns => exact turn turns after

end Run

namespace Life

theorem identity (l : Life) (n : Nat) :
    (l.moment n).replica.id = l.id ∧ (l.moment n).replica.settings = l.settings := by
  have both := l.outlook_induction (P := fun o => o.Sound ∧ o.id = l.id ∧ o.settings = l.settings)
    ⟨l.sound 0, rfl, rfl⟩ (fun a h =>
      have steps := Run.step_stepsTo h.1.killed_or_shows
      ⟨steps.sound h.1, steps.identity.1.trans h.2.1, steps.identity.2.trans h.2.2⟩) n
  exact both.2

theorem committed (l : Life) (n : Nat) : (l.moment n).outlook.Committed := by
  have both := l.outlook_induction (P := fun o => o.Sound ∧ o.Committed)
    ⟨l.sound 0, fun push => by cases push⟩ (fun a h =>
      have steps := Run.step_stepsTo h.1.killed_or_shows
      ⟨steps.sound h.1, steps.committed h.2⟩) n
  exact both.2

theorem surveyed (l : Life) (n : Nat) : (l.moment n).outlook.Surveyed := by
  have both := l.outlook_induction (P := fun o => o.Sound ∧ o.Surveyed)
    ⟨l.sound 0, ⟨⟨0, fun region => ⟨fun h => (by cases h), fun h => (by cases h)⟩,
      fun _ _ hp => (by cases hp)⟩, rfl⟩⟩ (fun a h =>
      have steps := Run.step_stepsTo h.1.killed_or_shows
      ⟨steps.sound h.1, steps.surveyed h.2⟩) n
  exact both.2

/-- The end of a region's real-time topic that was sampled last in this life. -/
def lastEnd? (l : Life) (region : Option RegionId) : Nat → Option Nat
  | 0 => none
  | n + 1 =>
    match l.happenings[n]?, (l.moment n).sample? with
    | some .step, some (region', end_) =>
      if region = region' then some end_ else l.lastEnd? region n
    | _, _ => l.lastEnd? region n

/-- The tracker holds the ends that were sampled last. -/
theorem find?_realTimeEnds (l : Life) (region : Option RegionId) (n : Nat) :
    (l.moment n).outlook.realTimeEnds.find? region = l.lastEnd? region n := by
  induction n with
  | zero => rfl
  | succ n ih =>
    unfold lastEnd?
    cases hh : l.happenings[n]? with
    | none =>
      rw [moment_succ, hh]
      exact ih
    | some happening =>
      cases happening with
      | around site commons commands connected =>
        rw [moment_succ, hh]
        exact (congrArg (fun o => o.realTimeEnds.find? region) (Run.outlook_surrounded ..)).trans ih
      | step =>
        rw [moment_succ_of_steps hh, Run.realTimeEnds_step (l.sound n)]
        cases hs : (l.moment n).sample? with
        | none => exact ih
        | some sampled =>
          obtain ⟨region', end_⟩ := sampled
          dsimp only
          split
          · rename_i heq
            rw [heq, SortedMap.find?_insert_self]
          · rename_i hne
            rw [SortedMap.find?_insert_of_ne _ hne, ih]

/-- Records of a region's real-time topic that were not consumed yet when its end was last
sampled. -/
def regionLag (l : Life) (n : Nat) (region : Option RegionId) : Nat :=
  offsetLag ((l.lastEnd? region n).getD 0)
    (((l.moment n).replica.tracker.realTimePosition? region).getD 0)

/-- All that should hold when a replica goes online. -/
structure Gated (l : Life) (n : Nat) : Prop where
  endOfPush : (l.moment n).replica.tracker.endOfPush = true
  committed : ∃ c, (l.moment n).site.storage.checkpoint? l.id = some c ∧ c.endOfPush = true
  sampled : ∀ hybrid, l.settings.hybrid = some hybrid →
    ∀ region ∈ l.settings.realTimeRegions, ∃ end_, l.lastEnd? region n = some end_
  within : ∀ hybrid, l.settings.hybrid = some hybrid →
    Word.total (l.settings.realTimeRegions.map (l.regionLag n)) ≤ hybrid.lagThreshold

/-- What holds when a replica goes online. -/
structure Readiness (l : Life) (n : Nat) : Prop where
  concludes : l.Steps n ∧ ∃ processed, (l.moment n).replica.phase = .concluding processed
  bootstrapping : l.state n = .bootstrapping
  endOfPush : (l.moment n).replica.tracker.endOfPush = true
  committed : ∃ c, (l.moment n).site.storage.checkpoint? l.id = some c ∧ c.endOfPush = true
  /-- Some first regions were sampled, and they are within the threshold together. -/
  within : ∀ hybrid, l.settings.hybrid = some hybrid → ∃ k, 0 < k ∧
    (∀ region ∈ l.settings.realTimeRegions,
      (∃ end_, l.lastEnd? region n = some end_) ↔ region ∈ l.settings.realTimeRegions.take k) ∧
    Word.total ((l.settings.realTimeRegions.take k).map (l.regionLag n)) ≤ hybrid.lagThreshold
  /-- Nothing else is missing but regions that were not sampled. -/
  gated_iff : l.Gated n ↔ ∀ hybrid, l.settings.hybrid = some hybrid →
    ∀ region ∈ l.settings.realTimeRegions, ∃ end_, l.lastEnd? region n = some end_
  gated_of_single : l.settings.realTimeRegions.length ≤ 1 → l.Gated n

section Readiness

variable (l : Life) (n : Nat)

/-- A region was sampled if its end is known. -/
theorem contains_realTimeEnds (region : Option RegionId) :
    (l.moment n).outlook.realTimeEnds.contains region ↔ ∃ end_,
      l.lastEnd? region n = some end_ := by
  rw [SortedMap.contains, find?_realTimeEnds, Option.isSome_iff_exists]

/-- The tracker measures what was sampled last. -/
theorem regionLag_tracker (region : Option RegionId) :
    (l.moment n).replica.tracker.regionLag region = l.regionLag n region := by
  rw [regionLag, ← l.find?_realTimeEnds]
  rfl

/-- The lag of the sampled regions together. -/
theorem total_regionLag {k : Nat} (sampled : ∀ region,
      (l.moment n).outlook.realTimeEnds.contains region ↔
        region ∈ (l.moment n).outlook.settings.realTimeRegions.take k) :
    Word.total ((l.moment n).outlook.realTimeEnds.keys.map (l.moment n).replica.tracker.regionLag) =
      Word.total (((l.moment n).outlook.settings.realTimeRegions.take k).map (l.regionLag n)) := by
  have perm : (l.moment n).outlook.realTimeEnds.keys.Perm
      ((l.moment n).outlook.settings.realTimeRegions.take k) := by
    refine (List.perm_ext_iff_of_nodup (SortedMap.nodup_keys _) ?_).mpr fun region => ?_
    · exact (VersionSettings.nodup_realTimeRegions _).sublist (List.take_sublist _ _)
    · rw [SortedMap.mem_keys, sampled]
  rw [funext (l.regionLag_tracker n)]
  exact Word.total_perm (perm.map _)

/-- The first regions were sampled, and are within the threshold together. -/
def FirstWithin (threshold : Nat) : Prop :=
  ∃ k, 0 < k ∧
    (∀ region ∈ l.settings.realTimeRegions,
      (∃ end_, l.lastEnd? region n = some end_) ↔ region ∈ l.settings.realTimeRegions.take k) ∧
    Word.total ((l.settings.realTimeRegions.take k).map (l.regionLag n)) ≤ threshold

variable {l n}

/-- The regions that were sampled are the first ones, and a replica that is caught up is within the
threshold on them. -/
theorem firstWithin_of_isCaughtUp (caughtUp : (l.moment n).replica.tracker.isCaughtUp = .ok true)
    {hybrid : HybridSettings} (hh : l.settings.hybrid = some hybrid) :
    l.FirstWithin n hybrid.lagThreshold := by
  obtain ⟨⟨k, sampled, -⟩, threshold⟩ := l.surveyed n
  have ht : (l.moment n).replica.tracker.threshold = some hybrid.lagThreshold := by
    rw [show (l.moment n).replica.tracker.threshold = _ from threshold,
      show (l.moment n).outlook.settings = _ from (l.identity n).2,
          VersionSettings.lagThreshold?, hh]
    rfl
  obtain ⟨⟨region, known⟩, lag⟩ := LagTracker.within_of_isCaughtUp caughtUp ht
  have total := l.total_regionLag n sampled
  rw [show (l.moment n).outlook.settings = _ from (l.identity n).2] at sampled total
  refine ⟨k, ?_, fun region _ => ?_, ?_⟩
  · have hmem := (sampled region).mp known
    cases k with
    | zero => cases hmem
    | succ k => exact Nat.succ_pos k
  · rw [← l.contains_realTimeEnds, sampled]
  · exact total ▸ lag

/-- With all regions sampled, the first ones are all. -/
theorem FirstWithin.total_le {threshold : Nat} (h : l.FirstWithin n threshold)
    (sampled : ∀ region ∈ l.settings.realTimeRegions, ∃ end_, l.lastEnd? region n = some end_) :
    Word.total (l.settings.realTimeRegions.map (l.regionLag n)) ≤ threshold := by
  obtain ⟨k, -, first, lag⟩ := h
  have nodup := l.settings.nodup_realTimeRegions
  have all : (l.settings.realTimeRegions.take k).Perm l.settings.realTimeRegions := by
    refine (List.perm_ext_iff_of_nodup (nodup.sublist (List.take_sublist _ _)) nodup).mpr
      fun region => ⟨List.mem_of_mem_take, fun hregion => ?_⟩
    exact (first region hregion).mp (sampled region hregion)
  rwa [Word.total_perm (all.map _)] at lag

/-- What is received of the end of the push is committed at the end of a cycle. -/
theorem committed_of_concluding {processed : Bool}
    (hp : (l.moment n).replica.phase = .concluding processed)
    (push : (l.moment n).replica.tracker.endOfPush = true) :
    ∃ c, (l.moment n).site.storage.checkpoint? l.id = some c ∧ c.endOfPush = true := by
  have hphase : (l.moment n).outlook.phase = .concluding processed := hp
  have kept := l.committed n push (by rw [hphase]; simp [Phase.chapter]) (by rw [hphase]; rfl)
  rw [← (l.identity n).1]
  obtain ⟨c, hc, hpush⟩ := (Option.any_eq_true _ _).mp kept
  exact ⟨c, hc, hpush⟩

end Readiness

/-- A replica goes online only at the end of a cycle, once the end of the push is committed and the
regions that were sampled are within the threshold; that is all it should be exactly if no
configured region is left to be sampled. -/
theorem readiness (l : Life) (n : Nat) (before : l.state n ≠ .online)
    (after : l.state (n + 1) = .online) : l.Readiness n := by
  have steps : l.Steps n := by
    rcases l.steps_or_same n with h | ⟨h, -⟩
    · exact h
    · exact absurd ((congrArg Outlook.state h).symm.trans after) before
  have steps' := Run.step_stepsTo (l.sound n).killed_or_shows
  rw [← moment_succ_of_steps steps] at steps'
  obtain ⟨⟨processed, hp⟩, bootstrapping, caughtUp⟩ := steps'.caughtUp before after
  have push := LagTracker.endOfPush_of_isCaughtUp caughtUp
  have committed := committed_of_concluding hp push
  have within : ∀ hybrid, l.settings.hybrid = some hybrid → l.FirstWithin n hybrid.lagThreshold :=
    fun _ hh => firstWithin_of_isCaughtUp caughtUp hh
  have gated_iff : l.Gated n ↔ ∀ hybrid, l.settings.hybrid = some hybrid →
      ∀ region ∈ l.settings.realTimeRegions, ∃ end_, l.lastEnd? region n = some end_ :=
    ⟨Gated.sampled, fun sampled => ⟨push, committed, sampled,
      fun hybrid hh => (within hybrid hh).total_le (sampled hybrid hh)⟩⟩
  refine ⟨⟨steps, processed, hp⟩, bootstrapping, push, committed, within,
    gated_iff, fun single => ?_⟩
  refine gated_iff.mpr fun hybrid hh region hregion => ?_
  obtain ⟨k, hk, first, -⟩ := within hybrid hh
  rw [first region hregion, List.take_of_length_le (Nat.le_trans single hk)]
  exact hregion

/-! ## A region that is not sampled

The end of the push is in the version topic, and a record in the real-time topic of the second of
two regions, more than the version may lag. -/

/-- A version with two regions that must not lag at all. -/
def twoRegions : VersionSettings :=
  { VersionSettings.standard with
    hybrid := some ⟨3600, 0⟩
    activeActive := true
    regions := SortedMap.ofList [(1, "one"), (2, "two")] }

/-- A record of no key. -/
def unkeyed (payload : Payload) : ChangeRecord := ⟨0, 1700000000000, ByteArray.empty, payload, none⟩

/-- A standby asks for three ends in its first cycle. The third call, for the second region,
fails. -/
def secondRegionFails : Life :=
  let id : ReplicaId := ⟨"s", 1, 0⟩
  let log := (Log.empty.append id.versionTopic (unkeyed (.control .endOfPush))).2
  { id
    settings := twoRegions
    role := .standby
    site := { Site.create .standard with
      faults := SortedMap.ofList [(.endOffset, ⟨.sourceUnavailable "no answer", 2, some 1⟩)] }
    commons := ⟨1700000000000, (log.append (id.realTimeTopic (some 2)) (unkeyed .delete)).2,
      Metrics.ReplicaMetrics.empty⟩
    happenings := List.replicate 15 .step }

theorem state_secondRegionFails :
    secondRegionFails.state 14 ≠ .online ∧ secondRegionFails.state 15 = .online := by
  decide +kernel

/-- The replica goes online at the end of that cycle all the same. -/
theorem online_secondRegionUnsampled : ¬ ∀ n, secondRegionFails.state n ≠ .online →
    secondRegionFails.state (n + 1) = .online → secondRegionFails.Gated n := by
  intro gated
  obtain ⟨end_, h⟩ := (gated 14 state_secondRegionFails.1 state_secondRegionFails.2).sampled _ rfl
    (some 2) (by decide)
  have unsampled : secondRegionFails.lastEnd? (some 2) 14 = none := by decide +kernel
  rw [unsampled] at h
  cases h

/-- Only the first region was within the threshold. -/
theorem readiness_secondRegionFails : secondRegionFails.state 14 ≠ .online ∧
    secondRegionFails.state 15 = .online ∧ secondRegionFails.Readiness 14 :=
  ⟨state_secondRegionFails.1, state_secondRegionFails.2,
    readiness secondRegionFails 14 state_secondRegionFails.1 state_secondRegionFails.2⟩

end Life

end StoreFeed
