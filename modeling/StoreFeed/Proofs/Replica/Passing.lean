import StoreFeed.Proofs.Replica.Standing

/-!
# What is done aside

To show how it is, to count, to raise a flag and to retry, a replica acts on what its host and all
hosts share. One law for each of these actions says how the replica stands after it, that nothing
was called or stored, and that its accounts are kept (`Run.Passes`); where the lag is out of range
the action ends before anything is shown (`Run.Drops`).
-/

namespace StoreFeed

/-- The overflow of a snapshot is one of the lag. -/
theorem LagTracker.heavy_of_snapshot {t : LagTracker} {e : Overflow} (h : t.snapshot = .error e) :
    t.Heavy := by
  refine Nat.lt_of_not_le fun fits => ?_
  obtain ⟨s, taken, -⟩ := snapshot_of_fits fits
  cases h.symm.trans taken

/-- The overflow of the question whether a replica is caught up is one of the lag. -/
theorem LagTracker.heavy_of_isCaughtUp {t : LagTracker} {e : Overflow}
    (h : t.isCaughtUp = .error e) : t.Heavy :=
  Nat.lt_of_not_le fun fits => by cases h.symm.trans (isCaughtUp_of_fits fits)

/-- A replica is caught up only once the push has ended. -/
theorem LagTracker.endOfPush_of_isCaughtUp {t : LagTracker} (h : t.isCaughtUp = .ok true) :
    t.endOfPush = true := by
  unfold isCaughtUp at h
  split at h
  · cases h
  · rename_i push
    simpa using push

namespace Run

/-- From `a` a replica came to stand like `v` in `b`, and nothing was called or stored. -/
structure Shifts (a : Run) (v : Standing) (b : Run) : Prop where
  standing : b.standing = v
  settings : b.site.settings = a.site.settings
  injected : b.site.injected = a.site.injected
  faults : b.site.faults = a.site.faults
  storage : b.site.storage = a.site.storage
  paced : ∀ host, a.replica.backoff.Of host → b.replica.backoff.Of host

/-- From `a` a replica came to stand like `v` in `b`, which it shows, and its accounts were kept. -/
structure Passes (a : Run) (v : Standing) (b : Run) : Prop extends a.Shifts v b where
  shows : a.outlook.Shows → b.outlook.Shows
  keeps : a.site.stats.Sound → a.Keeps b

/-- From `a` a replica came to stand like `v` in `b`, but its lag is too large to show that. -/
structure Drops (a : Run) (v : Standing) (b : Run) : Prop extends a.Shifts v b where
  shown : a.outlook.Shows → b.replica.status.face = a.replica.status.face
  heavy : b.replica.tracker.Heavy
  keeps : a.site.stats.Sound → a.Keeps b

variable {a b c : Run} {v w : Standing}

/-- To raise its flag is all that a replica does there. -/
theorem shifts_raised (run : Run) :
    run.Shifts { run.standing with course := { run.course with errored := true } } run.raised :=
  ⟨rfl, rfl, rfl, rfl, rfl, fun _ h => h⟩

theorem Shifts.refl (a : Run) : a.Shifts a.standing a := ⟨rfl, rfl, rfl, rfl, rfl, fun _ h => h⟩

theorem Shifts.trans (h : a.Shifts v b) (h' : b.Shifts w c) : a.Shifts w c :=
  ⟨h'.standing, h'.settings.trans h.settings, h'.injected.trans h.injected,
    h'.faults.trans h.faults,
    h'.storage.trans h.storage, fun host paced => h'.paced host (h.paced host paced)⟩

theorem Passes.refl (a : Run) : a.Passes a.standing a := ⟨.refl a, id, .refl⟩

theorem Passes.trans (h : a.Passes v b) (h' : b.Passes w c) : a.Passes w c :=
  ⟨h.toShifts.trans h'.toShifts, fun shows => h'.shows (h.shows shows),
    fun sound => (h.keeps sound).trans (h'.keeps (h.keeps sound).sound)⟩

/-- Where nothing else changed than what is shown, what was shown before is shown after. -/
theorem Passes.drops (h : a.Passes a.standing b) (h' : b.Drops b.standing c) :
    a.Drops a.standing c where
  toShifts := h.standing ▸ h.toShifts.trans h'.toShifts
  shown shows := by
    have same : b.replica.status.face = a.replica.status.face :=
      (h.shows shows).trans ((congrArg Standing.face h.standing).trans shows.symm)
    exact (h'.shown (h.shows shows)).trans same
  heavy := h'.heavy
  keeps sound := (h.keeps sound).trans (h'.keeps (h.keeps sound).sound)

/-- What was shown before is shown after, where nothing was done or all is shown. -/
theorem Shifts.passes (h : a.Shifts v b) (shown : b = a ∨ b.outlook.Shows)
    (keeps : a.site.stats.Sound → a.Keeps b) : a.Passes v b :=
  ⟨h, fun shows => shown.elim (fun same => same ▸ shows) fun shows => shows, keeps⟩

/-- What is shown is no part of how a replica stands. -/
theorem Shifts.of_status (h : a.Shifts v b) (status : ReplicaStatus) :
    a.Shifts v { b with replica := { b.replica with status } } := { h with }

theorem Keeps.of_status (h : a.Keeps b) (status : ReplicaStatus) :
    a.Keeps { b with replica := { b.replica with status } } := { h with }

/-- A change of the replica that leaves who it is, what is counted and flagged, and what it
shows. -/
theorem Passes.of_replica (a : Run) {r : Replica} (id : r.id = a.replica.id)
    (state : r.state = a.replica.state) (errored : r.errored = a.replica.errored)
    (pushTimeout : r.pushTimeout = a.replica.pushTimeout) (status : r.status = a.replica.status)
    (runs : r.phase = .stopped → a.replica.phase = .stopped)
    (paced : ∀ host, a.replica.backoff.Of host → r.backoff.Of host) :
    a.Passes { a with replica := r }.standing { a with replica := r } where
  standing := rfl
  settings := rfl
  injected := rfl
  faults := rfl
  storage := rfl
  paced := paced
  shows shows := by
    have same : Run.outlook { a with replica := r } =
        { a.outlook with
          id := r.id, settings := r.settings, phase := r.phase, paused := r.wakeAt.isSome
          endOfPush := r.tracker.endOfPush, threshold := r.tracker.threshold
          realTimeEnds := r.tracker.realTimeEnds
          checkpoint := a.site.storage.checkpoint? r.id } := by
      unfold outlook
      rw [state, errored, pushTimeout, status]
    rw [same]
    exact shows
  keeps sound := .of_same sound rfl id state errored runs rfl rfl

end Run

namespace Act

variable {α β : Type}

/-! ## Actions that leave the standing alone -/

/-- An action leaves the replica standing as it was, and nothing breaks it off. -/
def Counts (m : Act α) : Prop :=
  ∀ run, m.Ends run (fun _ b => run.Passes run.standing b) fun _ => False

/-- However it ends, an action leaves the replica standing as it was. -/
def Aside (m : Act α) : Prop :=
  ∀ run, m.Ends run (fun _ b => run.Passes run.standing b) (run.Drops run.standing)

theorem Counts.aside {m : Act α} (hm : m.Counts) : m.Aside :=
  fun run => (hm run).mono (fun _ _ h => h) fun _ h => h.elim

theorem Counts.bind {m : Act β} {f : β → Act α} (hm : m.Counts) (hf : ∀ b, (f b).Counts) :
    (m >>= f).Counts := by
  intro run
  rw [ends_bind]
  refine (hm run).mono (fun x b hb => ?_) fun _ hb => hb
  exact (hf x b).mono (fun _ _ hc => hb.standing ▸ hb.trans hc) fun _ hc => hc

theorem Aside.bind {m : Act β} {f : β → Act α} (hm : m.Aside) (hf : ∀ b, (f b).Aside) :
    (m >>= f).Aside := by
  intro run
  rw [ends_bind]
  refine (hm run).mono (fun x b hb => ?_) fun _ hb => hb
  exact (hf x b).mono (fun _ _ hc => hb.standing ▸ hb.trans hc) fun _ hc => hb.drops hc

theorem counts_pure (a : α) : (pure a : Act α).Counts := fun run => .refl run

theorem counts_self : self.Counts := fun run => .refl run

theorem counts_now : now.Counts := fun run => .refl run

theorem counts_settings : settings.Counts := fun run => .refl run

/-- A change of the replica that is no part of its standing. -/
theorem counts_modifySelf (g : Replica → Replica)
    (same : ∀ run : Run, Run.standing { run with replica := g run.replica } = run.standing)
    (kept : ∀ r, (g r).id = r.id ∧ (g r).status = r.status)
    (paced : ∀ host r, r.backoff.Of host → (g r).backoff.Of host) : (modifySelf g).Counts := by
  intro run
  have errored := congrArg (fun v : Standing => v.course.errored) (same run)
  have phase := congrArg (fun v : Standing => v.feed.phase) (same run)
  rw [ends_modifySelf, ← same run]
  exact .of_replica run (kept _).1 (congrArg Standing.state (same run)) errored
    (congrArg Standing.pushTimeout (same run)) (kept _).2 phase.symm.trans fun host => paced host _

/-- What is counted besides the replicas in a state. -/
theorem counts_modifyMetrics {g : Metrics.ReplicaMetrics → Metrics.ReplicaMetrics}
    (hg : ∀ m, (g m).active = m.active ∧ (g m).states = m.states) : (modifyMetrics g).Counts := by
  refine fun run => ⟨⟨rfl, rfl, rfl, rfl, rfl, fun _ h => h⟩, id, fun sound => ?_⟩
  exact .of_same sound rfl rfl rfl rfl id (hg _).1 (hg _).2

theorem counts_record (e : Stats.Event) : (record e).Counts := by
  refine fun run => ⟨⟨rfl, rfl, rfl, rfl, rfl, fun _ h => h⟩, id, fun sound => ?_⟩
  exact .of_ledger (sound.withBoth _ _ _) (sound.ledger?_record _ _ _ e)
    fun key => Stats.Registry.reporter?_withBoth _ _ _ key _

theorem counts_stepTook (step : Stats.SubscribeStep) (since : Nat) : (stepTook step since).Counts :=
  counts_now.bind fun _ => counts_record _

theorem counts_recordConsumed (r : ChangeRecord) (region : Option RegionId) :
    (recordConsumed r region).Counts := by
  refine counts_self.bind fun _ => (counts_record _).bind fun _ => (counts_record _).bind fun _ =>
    (counts_record _).bind fun _ => (counts_record _).bind fun _ => ?_
  split
  · exact (counts_record _).bind fun _ => counts_record _
  · exact counts_pure _

/-! ## Showing -/

/-- To show how it is changes only what is shown, unless the lag is out of range. -/
theorem ends_showStatus (run : Run) : showStatus.Ends run
    (fun _ b => ∃ status, b = { run with replica := { run.replica with status } } ∧
      status.face = run.standing.face)
    (fun b => b = run ∧ run.replica.tracker.Heavy) := by
  unfold showStatus
  simp only [ends_bind, ends_self]
  rw [ends_ofWord]
  exact ⟨fun lag _ => ⟨_, rfl, rfl⟩, fun e he => ⟨rfl, LagTracker.heavy_of_snapshot he⟩⟩

theorem aside_showStatus : showStatus.Aside := by
  refine fun run => (ends_showStatus run).mono ?_ ?_
  · rintro _ _ ⟨status, rfl, shown⟩
    exact ⟨(Run.Shifts.refl run).of_status status, fun _ => shown,
      fun sound => (Run.Keeps.refl sound).of_status status⟩
  · rintro _ ⟨rfl, heavy⟩
    exact ⟨.refl _, fun _ => rfl, heavy, .refl⟩

theorem aside_onSourceFailure (operation : String) : (onSourceFailure operation).Aside := by
  refine (counts_modifyMetrics (by simp [Metrics.ReplicaMetrics.retried])).aside.bind fun _ =>
    counts_now.aside.bind fun _ => counts_self.aside.bind fun _ =>
    (counts_modifySelf _ (by intro _; rfl) (by simp) (by simp)).aside.bind fun _ =>
      counts_self.aside.bind fun _ =>
    counts_settings.aside.bind fun _ => ?_
  split
  · exact (counts_modifySelf _ (by intro _; rfl) (by simp) (by simp)).aside.bind fun _ =>
      (counts_record _).aside.bind fun _ => aside_showStatus
  · exact (counts_pure _).aside

theorem aside_sourceRecovered : sourceRecovered.Aside := by
  refine (counts_modifySelf _ (by intro _; rfl) (by simp) fun _ _ h => h.reset).aside.bind fun _ =>
    counts_self.aside.bind fun _ => ?_
  split
  · exact (counts_modifySelf _ (by intro _; rfl) (by simp) (by simp)).aside.bind fun _ =>
      aside_showStatus
  · exact (counts_pure _).aside

/-- To report is to show. -/
theorem ends_report (run : Run) : report.Ends run
    (fun _ b => run.Passes run.standing b ∧ b.outlook.Shows)
    (fun b => run.Drops run.standing b ∧ b.replica.status = run.replica.status) := by
  unfold report
  simp only [ends_bind, ends_self, ends_modifySite]
  rw [ends_ofWord]
  refine ⟨fun lag taken => ?_, fun e he =>
    ⟨⟨.refl run, fun _ => rfl, LagTracker.heavy_of_snapshot he, .refl⟩, rfl⟩⟩
  let reported : Run := { run with site := { run.site with
    stats := run.site.stats.report run.replica.id.store run.replica.id.version
      run.replica.id.partition ⟨lag, run.replica.mergeErrorCode⟩ } }
  have keeps : run.site.stats.Sound → run.Keeps reported := fun sound =>
    { id := rfl
      sound := sound.withBoth _ _ _
      active := rfl
      balance := fun _ => rfl
      reports := fun key pk h => sound.holds_report _ _ _ _ h
      reporters := fun key => Stats.Registry.reporter?_withBoth _ _ _ key _
      runs := id
      flags := fun key => sound.flag?_report _ _ _ _ key
      errored := rfl
      state := id }
  have shifts : run.Shifts run.standing reported := ⟨rfl, rfl, rfl, rfl, rfl, fun _ h => h⟩
  show showStatus.Ends reported _ _
  refine (ends_showStatus reported).mono ?_ ?_
  · rintro _ _ ⟨status, rfl, shown⟩
    refine ⟨⟨shifts.of_status status, fun _ => shown, fun sound => ?_⟩, shown⟩
    exact (keeps sound).of_status status
  · rintro _ ⟨rfl, heavy⟩
    exact ⟨⟨shifts, fun _ => rfl, heavy, keeps⟩, rfl⟩

theorem aside_report : report.Aside := fun run =>
  (ends_report run).mono (fun _ _ h => h.1) fun _ h => h.1

/-! ## Changes of the standing -/

/-- A replica that goes to a state is counted there, also if that cannot be shown. -/
theorem ends_setState_enters (state : ReplicaState) (run : Run) : (setState state).Ends run
    (fun _ b => run.Shifts { run.standing with state } b ∧ (b = run ∨ b.outlook.Shows) ∧
      (run.site.stats.Sound → run.Enters state b))
    (fun b => run.Shifts { run.standing with state } b ∧ b.replica.status = run.replica.status ∧
      run.replica.tracker.Heavy ∧ (run.site.stats.Sound → run.Enters state b)) := by
  unfold setState
  rw [ends_bind, ends_self]
  split
  · let moved : Run :=
      { run with
        replica := { run.replica with state }
        commons := { run.commons with
          metrics := run.commons.metrics.changeState run.replica.state state } }
    -- It is counted before it is shown, so also where it cannot be shown.
    have entered : run.site.stats.Sound → run.Enters state moved := fun sound =>
      { id := rfl
        sound := sound
        active := rfl
        balance := fun s => by
          show (run.commons.metrics.changeState run.replica.state state).inState s -
            (if state = s then 1 else 0) = run.commons.metrics.inState s - run.replica.share s
          rw [Metrics.ReplicaMetrics.inState_changeState]
          unfold Replica.share
          split <;> split <;> omega
        reports := fun _ _ => .inl
        reporters := fun _ => rfl
        runs := id
        stats := rfl
        errored := rfl
        state := rfl }
    have shifted : run.Shifts { run.standing with state } moved :=
      ⟨rfl, rfl, rfl, rfl, rfl, fun _ h => h⟩
    show showStatus.Ends moved _ _
    refine (ends_showStatus moved).mono ?_ ?_
    · rintro _ _ ⟨status, rfl, shown⟩
      exact ⟨shifted.of_status status, .inr shown, fun sound => { entered sound with }⟩
    · rintro _ ⟨rfl, heavy⟩
      exact ⟨shifted, rfl, heavy, entered⟩
  · rename_i same
    have same : run.replica.state = state := (Decidable.not_not.mp same).symm
    have stays : { run.standing with state } = run.standing := by
      rw [← same]
      rfl
    rw [ends_pure, stays]
    exact ⟨.refl run, .inl rfl, fun sound => ⟨(Run.Keeps.refl sound).toBooks, rfl, rfl, same⟩⟩

/-- Only the state of an error is not gone to aside. -/
theorem ends_setState {state : ReplicaState} (h : state ≠ .error) (run : Run) :
    (setState state).Ends run (fun _ b => run.Passes { run.standing with state } b)
      (run.Drops { run.standing with state }) := by
  refine (ends_setState_enters state run).mono ?_ ?_
  · rintro _ b ⟨shifts, shown, enters⟩
    exact shifts.passes shown fun sound => (enters sound).keeps h
  · rintro b ⟨shifts, status, heavy, enters⟩
    have tracker : b.replica.tracker = run.replica.tracker :=
      congrArg (fun v : Standing => v.feed.tracker) shifts.standing
    exact ⟨shifts, fun _ => congrArg _ status, tracker ▸ heavy, fun sound => (enters sound).keeps h⟩

/-- The push-timeout flag is raised only before the end of the push. -/
theorem ends_checkPushTimeout (run : Run) : checkPushTimeout.Ends run
    (fun _ b => ∃ pushTimeout, run.Warns pushTimeout ∧
      run.Passes { run.standing with pushTimeout } b)
    (fun b => run.replica.tracker.endOfPush = false ∧
      run.Drops { run.standing with pushTimeout := true } b) := by
  unfold checkPushTimeout
  simp only [ends_bind, ends_self, ends_now, ends_settings]
  split
  · rename_i late
    have push : run.replica.tracker.endOfPush = false := by
      simp only [Bool.and_eq_true, Bool.not_eq_true'] at late
      exact late.1.2
    let raised : Run :=
      { run with
        replica := { run.replica with pushTimeout := true }
        site := { run.site with stats :=
          run.site.stats.setPushTimeout run.replica.id.store run.replica.id.version true } }
    have keeps : run.site.stats.Sound → run.Keeps raised := fun sound =>
      { Run.Keeps.of_ledger (a := run) (sound.modifyHeld _ _) (sound.ledger?_setPushTimeout _ _ _)
          fun key => Stats.Registry.reporter?_modifyHeld _ _ key _ with }
    have shifts : run.Shifts { run.standing with pushTimeout := true } raised :=
      ⟨rfl, rfl, rfl, rfl, rfl, fun _ h => h⟩
    show showStatus.Ends raised _ _
    refine (ends_showStatus raised).mono ?_ ?_
    · rintro _ _ ⟨status, rfl, shown⟩
      exact ⟨true, .inr ⟨rfl, push⟩, shifts.of_status status, fun _ => shown,
        fun sound => (keeps sound).of_status status⟩
    · rintro _ ⟨rfl, heavy⟩
      exact ⟨push, shifts, fun _ => rfl, heavy, keeps⟩
  · exact ⟨run.replica.pushTimeout, .inl rfl, .refl run⟩

end Act

end StoreFeed
