import StoreFeed.Proofs.Replica.Turns

/-!
# The life of a replica

A life begins with a replica that is about to start and goes on with its steps, between which its
surroundings change in any way: records are appended, calls are made to fail, time passes, commands
arrive. Only what its host keeps for the replica itself is changed by nobody else.

Whatever happens, the states of a life form a path (`ReplicaState.Leads`), what is shown agrees with
them, flags that were raised stay raised, and a replica that was halted by an error does nothing
more (`Life.lawful`).
-/

namespace StoreFeed

/-- The states that come right after one another in a life. -/
inductive ReplicaState.Leads : ReplicaState → ReplicaState → Prop where
  | subscribe : Leads .notSubscribed .subscribing
  | bootstrap : Leads .subscribing .bootstrapping
  | goOnline : Leads .bootstrapping .online
  | fail {s : ReplicaState} (running : s = .subscribing ∨ s = .bootstrapping ∨ s = .online) :
      Leads s .error
  | unsubscribe {s : ReplicaState} (started : s ≠ .notSubscribed) (goesOn : s ≠ .unsubscribed) :
      Leads s .unsubscribed

/-- From unsubscribed leads no way. -/
theorem ReplicaState.not_leads_of_unsubscribed (s : ReplicaState) :
    ¬ ReplicaState.Leads .unsubscribed s := by
  rintro (_ | _ | _ | ⟨running⟩ | ⟨_, goesOn⟩)
  · rcases running with h | h | h <;> cases h
  · exact goesOn rfl

/-- In an error no phase makes calls. -/
theorem Phase.isOver_of_allows_error {p : Phase} (h : p.chapter.allows .error = true) :
    p.isOver = true := by
  cases p with
  | parked | leaving | stopped | killed => rfl
  | aligning first | attaching first => cases first <;> cases h
  | _ => cases h

/-! ## What one step does to a face -/

namespace Face

/-- A face that is true to itself: ready exactly while online, errored throughout an error. -/
structure Honest (f : Face) : Prop where
  ready : f.ready = true ↔ f.state = .online
  errored : f.state = .error → f.errored = true

/-- How a face may change. Whether the end of the push was received decides whether the push-timeout
flag may be raised. -/
structure Follows (endOfPush : Bool) (f g : Face) : Prop where
  state : g.state = f.state ∨ f.state.Leads g.state
  errored : f.errored = true → g.errored = true
  pushTimeout : f.pushTimeout = true → g.pushTimeout = true
  raised : g.pushTimeout = true → f.pushTimeout = true ∨ endOfPush = false

theorem Follows.refl (endOfPush : Bool) (f : Face) : f.Follows endOfPush f :=
  ⟨.inl rfl, id, id, .inl⟩

end Face

/-- What holds of the outlook of a replica throughout its life. -/
structure Outlook.Sound (o : Outlook) : Prop where
  allows : o.phase.chapter.allows o.state = true
  paused : o.paused = true → o.phase.chapter.isBusy = true
  shows : o.phase ≠ .killed → o.Shows
  face : o.face.Honest
  shown : o.shown.Honest

namespace Outlook

/-- A state that is shown as it is. -/
theorem honest_face {o : Outlook} (h : o.state = .error → o.errored = true) : o.face.Honest :=
  ⟨by simp [face], h⟩

theorem Sound.of_displayed {o : Outlook} (allows : o.phase.chapter.allows o.state = true)
    (paused : o.paused = true → o.phase.chapter.isBusy = true)
    (errored : o.state = .error → o.errored = true) : o.displayed.Sound :=
  ⟨allows, paused, fun _ => o.shows_displayed, honest_face errored, honest_face errored⟩

theorem Sound.killed_or_shows {o : Outlook} (sound : o.Sound) : o.phase = .killed ∨ o.Shows := by
  by_cases hk : o.phase = .killed
  · exact .inl hk
  · exact .inr (sound.shows hk)

/-- A change that leaves the face, and what is shown of it. -/
theorem Sound.of_same {o g : Outlook} (sound : o.Sound) (live : o.phase ≠ .killed)
    (face : g.face = o.face) (shown : g.shown = o.shown)
    (allows : g.phase.chapter.allows g.state = true)
    (paused : g.paused = true → g.phase.chapter.isBusy = true) : g.Sound :=
  ⟨allows, paused, fun _ => shown.trans ((sound.shows live).trans face.symm),
    face ▸ sound.face, shown ▸ sound.shown⟩

theorem sound_create (id : ReplicaId) (settings : VersionSettings) (role : Role)
    (host : HostSettings) (now : Nat) (site : Site) (commons : Commons) :
    (Run.outlook ⟨Replica.create id settings role host now, site, commons⟩).Sound :=
  have honest : (Run.outlook ⟨Replica.create id settings role host now, site,
      commons⟩).face.Honest :=
    honest_face fun h => (by cases h)
  ⟨rfl, fun h => (by cases h), fun _ => rfl, honest, honest⟩

end Outlook

namespace Run

variable {a : Run} {g : Outlook}

/-- States of a replica that makes calls. -/
theorem running_of_isBusy {c : Chapter} {s : ReplicaState} (busy : c.isBusy) (h : c.allows s) :
    s = .subscribing ∨ s = .bootstrapping ∨ s = .online := by
  cases c <;> simp [Chapter.isBusy, Chapter.allows] at busy h <;> simp [h]

/-- The state goes with the phase. -/
theorem allows_of_phase (sound : a.outlook.Sound) {p : Phase} (hp : a.replica.phase = p) :
    p.chapter.allows a.replica.state = true := hp ▸ sound.allows

/-- A replica that can be told to leave has started, and its task has not ended. -/
theorem stopping (sound : a.outlook.Sound) (stops : a.outlook.paused ∨
      a.replica.phase.chapter = .cycling ∨ a.replica.phase = .parked) :
    a.outlook.phase ≠ .killed ∧ Chapter.leaving.allows a.outlook.state = true := by
  have busy : a.replica.phase.chapter.isBusy = true → a.outlook.phase ≠ .killed ∧
      Chapter.leaving.allows a.outlook.state = true := by
    intro busy
    refine ⟨fun hk => ?_, ?_⟩
    · rw [show a.replica.phase = .killed from hk] at busy
      cases busy
    · rcases running_of_isBusy busy sound.allows with h | h | h <;> rw [h] <;> rfl
  rcases stops with paused | cycling | parked
  · exact busy (sound.paused paused)
  · exact busy (by rw [cycling]; rfl)
  · have hs : a.outlook.state = .error := of_decide_eq_true (allows_of_phase sound parked)
    refine ⟨fun hk => ?_, by rw [hs]; rfl⟩
    rw [show a.outlook.phase = .parked from parked] at hk
    cases hk

namespace Turns

/-- What is shown is what was shown before, or what there is to show while the task has not
ended. -/
theorem shown (h : a.Turns g) :
    g.shown = a.outlook.shown ∨ a.outlook.phase ≠ .killed ∧ g.shown = g.face := by
  have live : ∀ {p : Phase}, a.replica.phase = p → p ≠ .killed → a.outlook.phase ≠ .killed :=
    fun hp hne hk => hne (hp.symm.trans hk)
  have busy : a.replica.phase.chapter.isBusy = true → a.outlook.phase ≠ .killed := fun busy hk => by
    rw [show a.replica.phase = .killed from hk] at busy
    cases busy
  cases h with
  | rest | wake | work | restore | mark | commit | survey | sample | leave => exact .inl rfl
  | enter since hp => exact .inr ⟨live hp (by simp), rfl⟩
  | raise p paused next push => exact .inr ⟨busy (Chapter.isBusy_of_leadsTo next).1, rfl⟩
  | bootstrap hp => exact .inr ⟨live hp (by simp), rfl⟩
  | goOnline processed paused hp hs _ => exact .inr ⟨live hp (by simp), rfl⟩
  | halt hbusy => exact .inr ⟨busy hbusy, rfl⟩
  | retire hp => exact .inr ⟨live hp (by simp), rfl⟩

theorem endOfPush (h : a.Turns g) (push : a.outlook.endOfPush = true) : g.endOfPush = true := by
  cases h <;> first | exact push | simp [push]

/-- A turn goes at most one way on. -/
theorem follows (h : a.Turns g) (sound : a.outlook.Sound) :
    a.outlook.face.Follows a.outlook.endOfPush g.face := by
  have leads : ∀ {s : ReplicaState}, a.replica.state.Leads s →
      a.outlook.face.Follows a.outlook.endOfPush { a.outlook with state := s }.face := fun leads =>
    ⟨.inr leads, id, id, .inl⟩
  cases h with
  | rest | wake | work | restore | mark | commit | survey | sample | leave => exact .refl _ _
  | enter since hp =>
    have hs : a.replica.state = .notSubscribed := of_decide_eq_true (allows_of_phase sound hp)
    exact leads (hs ▸ .subscribe)
  | raise p paused next push => exact ⟨.inl rfl, id, fun _ => rfl, fun _ => .inr push⟩
  | bootstrap hp =>
    have hs : a.replica.state = .subscribing := of_decide_eq_true (allows_of_phase sound hp)
    exact leads (hs ▸ .bootstrap)
  | goOnline processed paused hp hs _ => exact leads (hs ▸ .goOnline)
  | halt busy =>
    exact ⟨.inr (.fail (running_of_isBusy busy sound.allows)), fun _ => rfl, id, .inl⟩
  | retire hp =>
    have hs := allows_of_phase sound hp
    simp only [Phase.chapter, Chapter.allows, Bool.and_eq_true, decide_eq_true_eq] at hs
    exact leads (.unsubscribe hs.1 hs.2)

/-- A turn leaves an outlook sound. -/
theorem sound (h : a.Turns g) (sound : a.outlook.Sound) : g.Sound := by
  -- The work goes on in a phase with the same states.
  have goesOn : ∀ p : Phase, a.replica.phase.chapter.isBusy = true → p.chapter.isBusy = true →
      p.chapter.allows = a.replica.phase.chapter.allows → g.phase = p →
      g.face = a.outlook.face → g.shown = a.outlook.shown → g.Sound := by
    rintro p busy busy' same rfl face shown
    refine sound.of_same (fun hk => ?_) face shown ?_ fun _ => busy'
    · rw [show a.replica.phase = .killed from hk] at busy
      cases busy
    · rw [same, show g.state = a.replica.state from congrArg Face.state face]
      exact sound.allows
  cases h with
  | rest => exact sound
  | wake =>
    exact ⟨sound.allows, fun h => (by cases h), sound.shows, sound.face, sound.shown⟩
  | enter since hp => exact .of_displayed rfl (fun _ => rfl) fun h => (by cases h)
  | work p paused next =>
    have busy := Chapter.isBusy_of_leadsTo next
    exact goesOn p busy.1 busy.2 (funext (Chapter.allows_of_leadsTo next)) rfl rfl rfl
  | raise p paused next push =>
    exact .of_displayed ((Chapter.allows_of_leadsTo next _).trans sound.allows)
      (fun _ => (Chapter.isBusy_of_leadsTo next).2) sound.face.errored
  | restore since next hp =>
    exact goesOn (.acquiring next) (by rw [hp]; rfl) rfl (by rw [hp]; rfl) rfl rfl rfl
  | mark w m p hp hs hm next =>
    exact goesOn p (by rw [hp]; rfl) (by rw [next]; rfl) (by rw [hp, next]; rfl) rfl rfl rfl
  | commit b hp =>
    exact goesOn (.safePoint true) (by rw [hp]; rfl) rfl (by rw [hp]; rfl) rfl rfl rfl
  | survey processed hp =>
    exact goesOn (.samplingRegions processed _) (by rw [hp]; rfl) rfl (by rw [hp]; rfl) rfl rfl rfl
  | sample processed region rest end_ _ hp answered =>
    exact goesOn (.samplingRegions processed rest) (by rw [hp]; rfl) rfl
      (by rw [hp]; rfl) rfl rfl rfl
  | bootstrap hp => exact .of_displayed rfl (fun _ => rfl) fun h => (by cases h)
  | goOnline processed paused hp hs _ =>
    exact .of_displayed rfl (fun _ => rfl) fun h => (by cases h)
  | halt busy => exact .of_displayed rfl (fun h => (by cases h)) fun _ => rfl
  | leave stops =>
    have live := stopping sound stops
    exact sound.of_same live.1 rfl rfl live.2 fun h => (by cases h)
  | retire hp => exact .of_displayed rfl (fun h => (by cases h)) fun h => (by cases h)

/-- What is over stays over. -/
theorem isOver (h : a.Turns g) (ended : a.replica.phase.isOver = true) : g.phase.isOver = true := by
  have idle : a.replica.phase.chapter.isBusy = true → False := by
    intro busy
    cases hp : a.replica.phase <;> rw [hp] at ended busy <;> cases ended <;> cases busy
  have other : ∀ {p : Phase}, a.replica.phase = p → p.isOver = false → g.phase.isOver = true := by
    intro p hp hn
    rw [hp, hn] at ended
    cases ended
  cases h with
  | rest | wake => exact ended
  | enter since hp => exact other hp rfl
  | work p paused next => exact (idle (Chapter.isBusy_of_leadsTo next).1).elim
  | raise p paused next push => exact (idle (Chapter.isBusy_of_leadsTo next).1).elim
  | restore since next hp => exact other hp rfl
  | mark w m p hp => exact other hp rfl
  | commit b hp => exact other hp rfl
  | survey processed hp => exact other hp rfl
  | sample processed region rest end_ _ hp => exact other hp rfl
  | bootstrap hp => exact other hp rfl
  | goOnline processed paused hp => exact other hp rfl
  | halt | leave | retire => rfl

end Turns

namespace StepsTo

theorem sound (h : a.StepsTo g) (sound : a.outlook.Sound) : g.Sound := by
  cases h with
  | turn turns => exact turns.sound sound
  | breakOff turns shown showing =>
    have broken := turns.sound sound
    refine ⟨rfl, fun h => (by cases h), fun hk => absurd rfl hk, broken.face, ?_⟩
    rcases showing with rfl | rfl
    · exact sound.shown
    · exact broken.shown

/-- A step goes at most one way on, and shows no more than that. -/
theorem follows (h : a.StepsTo g) (sound : a.outlook.Sound) :
    a.outlook.face.Follows a.outlook.endOfPush g.face ∧
      a.outlook.shown.Follows a.outlook.endOfPush g.shown := by
  have shown : ∀ {g : Outlook}, a.Turns g →
      a.outlook.shown.Follows a.outlook.endOfPush g.shown := by
    intro g turns
    rcases turns.shown with hs | ⟨live, hs⟩
    · rw [hs]
      exact .refl _ _
    · rw [hs, sound.shows live]
      exact turns.follows sound
  cases h with
  | turn turns => exact ⟨turns.follows sound, shown turns⟩
  | breakOff turns _ showing =>
    refine ⟨turns.follows sound, ?_⟩
    have shows := shown turns
    rcases showing with rfl | rfl
    · exact .refl _ _
    · exact shows

theorem endOfPush (h : a.StepsTo g) (push : a.outlook.endOfPush = true) : g.endOfPush = true := by
  cases h with
  | turn turns => exact turns.endOfPush push
  | breakOff turns => exact turns.endOfPush push

theorem isOver (h : a.StepsTo g) (ended : a.replica.phase.isOver = true) :
    g.phase.isOver = true := by
  cases h with
  | turn turns => exact turns.isOver ended
  | breakOff => rfl

end StepsTo

/-! ## A replica that is over -/

/-- Nothing was written, published, committed, or taken as a role, and no call was made but to drop
subscriptions. -/
structure Idles (a b : Run) : Prop where
  storage : b.site.storage = a.site.storage
  log : b.commons.log = a.commons.log
  role : b.replica.role = a.replica.role
  faults : ∀ op ≠ .unsubscribe, b.site.faults.find? op = a.site.faults.find? op

/-- What a replica that is over does leaves the log and the role. -/
theorem Performs.idle {v : Standing} (h : a.Performs v) (ended : a.replica.phase.isOver = true) :
    v.feed.log = a.feed.log ∧ v.feed.role = a.feed.role := by
  cases h with
  | wait =>
    obtain ⟨inbox, p, -, waited⟩ := a.course.waited_eq
    rw [waited]
    exact ⟨rfl, rfl⟩
  | detach | retire => exact ⟨rfl, rfl⟩
  | again p pushTimeout next => cases ended.symm.trans (Phase.live_of_retry? next).1
  | refuse op reason tried =>
    obtain ⟨p, next⟩ := Option.isSome_iff_exists.mp tried
    cases ended.symm.trans (Phase.live_of_retry? next).1
  | fail e mishap => cases ended.symm.trans (Phase.live_of_batching (batching_of_mishap? mishap))
  | _ => simp_all [Phase.isOver]

/-- A replica that is over is idle. -/
theorem step_idles (ended : a.replica.phase.isOver = true) : a.Idles a.step := by
  obtain ⟨stores, calls⟩ := Phase.calls_of_isOver ended
  have upholds := a.step_upholds
  have kept : a.step.feed.log = a.feed.log ∧ a.step.feed.role = a.feed.role := by
    show a.step.standing.feed.log = _ ∧ a.step.standing.feed.role = _
    cases a.step_takes with
    | rest waits same =>
      rw [same]
      exact ⟨rfl, rfl⟩
    | wake waits paused standing =>
      obtain ⟨pendingRole, stopRequested, inbox, p, -, woken⟩ := a.course.woken_eq
      rw [standing, woken]
      exact ⟨rfl, rfl⟩
    | act waits awake performs => exact performs.idle ended
    | breakOff waits awake breaks standing =>
      rw [standing]
      cases breaks with
      | done performs => exact performs.idle ended
      | _ => exact ⟨rfl, rfl⟩
  refine ⟨upholds.storage stores, kept.1, kept.2, fun op other => ?_⟩
  exact (upholds.faults op).resolve_right fun called => other (calls op called.1)

end Run

/-! ## The end of the push -/

/-- The next step of a replica brings the end of the push: its record is read, or it is found in the
last checkpoint. -/
inductive Run.Receives (a : Run) : Prop where
  | read (w : Work) (awake : a.replica.wakeAt = none) (phase : a.replica.phase = .working w)
      (stage : w.stage = .fresh) (payload : w.record.payload = .control .endOfPush)
      (version : w.topic.topic = a.replica.id.versionTopic.topic)
  | restored (since : Nat) (c : Checkpoint) (awake : a.replica.wakeAt = none)
      (phase : a.replica.phase = .restoring since)
      (answers : (a.site.faults.next .checkpoint).1 = none)
      (kept : a.site.storage.checkpoint? a.replica.id = some c) (push : c.endOfPush = true)

namespace Run

variable {a : Run} {v : Standing}

/-- To look at a record takes no call. -/
theorem not_stumbles_of_fresh {w : Work} (phase : a.replica.phase = .working w)
    (stage : w.stage = .fresh) : ¬ a.Stumbles :=
  not_stumbles_of_calls (by rw [phase, Phase.calls, stage]) (phase ▸ rfl)
    (mishap?_of_fresh phase stage)

/-- Only a planned fault keeps the last checkpoint from being read. -/
theorem not_stumbles_of_restoring {since : Nat} (phase : a.replica.phase = .restoring since)
    (answers : a.fault? .checkpoint = none) : ¬ a.Stumbles := by
  refine not_stumbles (fun op called => ?_) (by simp [phase, Phase.consumes])
    (mishap?_of_phase (by simp [phase, Phase.chapter]))
  rw [phase, Phase.calls, List.mem_singleton] at called
  subst called
  exact ⟨answers, fun log => by cases log⟩

/-- The record that ends the push is marked. -/
theorem Performs.endOfPush_of_read (h : a.Performs v) {w : Work}
    (reads : a.replica.phase = .working w)
    (fresh : w.stage = .fresh) (control : w.record.payload = .control .endOfPush)
    (version : a.feed.readsVersion w) : v.feed.tracker.endOfPush = true := by
  have fine := mishap?_of_fresh reads fresh
  cases h with
  | mark w' m phase stage payload =>
    cases reads.symm.trans phase
    cases control.symm.trans payload
    exact LagTracker.endOfPush_pastVersionRecord rfl w.record
  | look w' p phase stage looks =>
    cases reads.symm.trans phase
    cases looks <;> simp_all
  | startOver w' b e pushTimeout phase retries => cases fine.symm.trans retries.mishap
  | _ => simp_all [Phase.retry?]

/-- What the last checkpoint says of the push is restored. -/
theorem Performs.endOfPush_of_restored (h : a.Performs v) {since : Nat} {c : Checkpoint}
    (restores : a.replica.phase = .restoring since) (answers : a.fault? .checkpoint = none)
    (kept : a.feed.data.checkpoint = some c) (push : c.endOfPush = true) :
    v.feed.tracker.endOfPush = true := by
  cases h with
  | restore since' next phase =>
    obtain ⟨positions, restored⟩ := a.feed.tracker.restored_eq c
    show (a.feed.tracker.resumed a.feed.data.checkpoint).endOfPush = true
    rw [kept, LagTracker.resumed, restored, push]
    exact Bool.or_true _
  | again p pushTimeout next stumbles =>
    exact absurd stumbles (not_stumbles_of_restoring restores answers)
  | refuse op reason tried calls fault =>
    exact absurd (.planned op _ calls fault) (not_stumbles_of_restoring restores answers)
  | fail e mishap => exact absurd (.mishap e mishap) (not_stumbles_of_restoring restores answers)
  | _ => simp_all

/-- Where it is broken off, the record that ends the push is marked all the same. -/
theorem BreaksOff.endOfPush_of_read (h : a.BreaksOff v) {w : Work}
    (reads : a.replica.phase = .working w) (fresh : w.stage = .fresh)
    (control : w.record.payload = .control .endOfPush) (version : a.feed.readsVersion w) :
    v.feed.tracker.endOfPush = true := by
  cases h with
  | done performs => exact performs.endOfPush_of_read reads fresh control version
  | rest asked heavy weighs =>
    rcases weighs with stumbles | weighs
    · exact absurd stumbles (not_stumbles_of_fresh reads fresh)
    · rw [reads] at weighs
      cases weighs
  | far sought =>
    rw [a.sought?_of_phase (by simp [reads])] at sought
    cases sought
  | mark w' m positions phase stage payload =>
    cases reads.symm.trans phase
    cases control.symm.trans payload
    rfl
  | pass w' m phase stage payload realTime =>
    cases reads.symm.trans phase
    exact absurd version realTime
  | store w' value offset positions phase stage =>
    cases reads.symm.trans phase
    cases fresh.symm.trans stage

/-- A step that brings the end of the push leaves it received. -/
theorem Receives.endOfPush (h : a.Receives) : a.step.outlook.endOfPush = true := by
  show a.step.standing.feed.tracker.endOfPush = true
  cases h with
  | read w awake phase stage payload version =>
    rcases step_acts awake (phase ▸ rfl) with performs | ⟨v, breaks, standing⟩
    · exact performs.endOfPush_of_read phase stage payload version
    · rw [standing]
      exact breaks.endOfPush_of_read phase stage payload version
  | restored since c awake phase answers kept push =>
    obtain ⟨v, performs, standing⟩ := step_performs awake (phase ▸ rfl)
      (not_stumbles_of_restoring phase answers) (phase ▸ rfl) (a.sought?_of_phase (by simp [phase]))
      (by simp [phase])
    have received := performs.endOfPush_of_restored phase answers kept push
    rcases standing with same | ⟨-, same⟩ <;> rw [same] <;> exact received

end Run

/-! ## Lives -/

/-- What happens next: the replica takes a step, or its surroundings change and commands arrive. -/
inductive Happening where
  | step
  | around (site : Site) (commons : Commons) (commands : List Command) (connected : Bool)

/-- The surroundings of a replica changed, but for what its host keeps for it. -/
def Run.surrounded (run : Run) (site : Site) (commons : Commons) (commands : List Command)
    (connected : Bool) : Run :=
  { replica := { run.replica with inbox := run.replica.inbox ++ commands, connected }
    site := { site with storage := { site.storage with
      replicas := site.storage.replicas.insert run.replica.id
        (run.site.storage.data run.replica.id) } }
    commons }

/-- What comes after a happening. -/
def Run.happen (run : Run) : Happening → Run
  | .step => run.step
  | .around site commons commands connected => run.surrounded site commons commands connected

/-- What others do is no part of an outlook. -/
theorem Run.outlook_surrounded (run : Run) (site : Site) (commons : Commons)
    (commands : List Command) (connected : Bool) :
    (run.surrounded site commons commands connected).outlook = run.outlook := by
  have kept : (run.surrounded site commons commands connected).site.storage.checkpoint?
      run.replica.id = run.site.storage.checkpoint? run.replica.id := by
    simp [surrounded, Storage.checkpoint?, Storage.data, SortedMap.findD]
  exact congrArg (fun checkpoint => { run.outlook with checkpoint }) kept

/-- A life of a replica: how it began, and what happened since. -/
structure Life where
  id : ReplicaId
  settings : VersionSettings
  role : Role
  site : Site
  commons : Commons
  happenings : List Happening

namespace Life

/-- The replica about to start. -/
def start (l : Life) : Run :=
  ⟨Replica.create l.id l.settings l.role l.site.settings l.commons.now, l.site, l.commons⟩

/-- The replica with its surroundings after the first `n` happenings. -/
def moment (l : Life) (n : Nat) : Run := (l.happenings.take n).foldl Run.happen l.start

/-- The state that a replica is in. -/
def state (l : Life) (n : Nat) : ReplicaState := (l.moment n).replica.state

/-- What a replica shows. -/
def status (l : Life) (n : Nat) : ReplicaStatus := (l.moment n).replica.status

/-- The replica takes a step at a moment. -/
def Steps (l : Life) (n : Nat) : Prop := l.happenings[n]? = some .step

/-- The step of a replica at a moment brings the end of the push. -/
def Receives (l : Life) (n : Nat) : Prop := l.Steps n ∧ (l.moment n).Receives

theorem moment_succ (l : Life) (n : Nat) : l.moment (n + 1) =
    match l.happenings[n]? with
    | some h => (l.moment n).happen h
    | none => l.moment n := by
  unfold moment
  rw [List.take_add_one, List.foldl_append]
  cases l.happenings[n]? <;> rfl

theorem moment_succ_of_steps {l : Life} {n : Nat} (h : l.Steps n) :
    l.moment (n + 1) = (l.moment n).step := by
  rw [moment_succ, h]
  rfl

/-- From one moment to the next the replica takes a step, or its outlook stays. -/
theorem steps_or_same (l : Life) (n : Nat) :
    l.Steps n ∨ (l.moment (n + 1)).outlook = (l.moment n).outlook ∧
      (l.moment (n + 1)).replica.role = (l.moment n).replica.role := by
  rw [moment_succ]
  cases h : l.happenings[n]? with
  | none => exact .inr ⟨rfl, rfl⟩
  | some happening =>
    cases happening with
    | step => exact .inl h
    | around site commons commands connected => exact .inr ⟨Run.outlook_surrounded .., rfl⟩

/-- What holds at first and is kept by every step holds throughout. -/
theorem outlook_induction (l : Life) {P : Outlook → Prop} (start : P l.start.outlook)
    (step : ∀ a : Run, P a.outlook → P a.step.outlook) (n : Nat) : P (l.moment n).outlook := by
  induction n with
  | zero => exact start
  | succ n ih =>
    rcases l.steps_or_same n with h | ⟨h, -⟩
    · rw [moment_succ_of_steps h]
      exact step _ ih
    · rw [h]
      exact ih

theorem sound (l : Life) (n : Nat) : (l.moment n).outlook.Sound :=
  l.outlook_induction (Outlook.sound_create ..)
    (fun _ sound => (Run.step_stepsTo sound.killed_or_shows).sound sound) n

/-- From one moment to the next a life goes at most one way on. -/
theorem follows (l : Life) (n : Nat) :
    (l.moment n).outlook.face.Follows (l.moment n).outlook.endOfPush
    (l.moment (n + 1)).outlook.face ∧
      (l.moment n).outlook.shown.Follows (l.moment n).outlook.endOfPush
        (l.moment (n + 1)).outlook.shown := by
  rcases l.steps_or_same n with h | ⟨h, -⟩
  · rw [moment_succ_of_steps h]
    exact (Run.step_stepsTo (l.sound n).killed_or_shows).follows (l.sound n)
  · rw [h]
    exact ⟨.refl _ _, .refl _ _⟩

/-- What every next moment keeps is kept for ever. -/
theorem kept {P : Nat → Prop} (step : ∀ n, P n → P (n + 1)) {n m : Nat} (hnm : n ≤ m) (h : P n) :
    P m := by
  induction hnm with
  | refl => exact h
  | step _ ih => exact step _ ih

theorem endOfPush_kept (l : Life) (n : Nat) (push : (l.moment n).outlook.endOfPush = true) :
    (l.moment (n + 1)).outlook.endOfPush = true := by
  rcases l.steps_or_same n with h | ⟨h, -⟩
  · rw [moment_succ_of_steps h]
    exact (Run.step_stepsTo (l.sound n).killed_or_shows).endOfPush push
  · rw [h]
    exact push

theorem isOver_kept (l : Life) (n : Nat) (ended : (l.moment n).replica.phase.isOver = true) :
    (l.moment (n + 1)).replica.phase.isOver = true := by
  rcases l.steps_or_same n with h | ⟨h, -⟩
  · rw [moment_succ_of_steps h]
    exact (Run.step_stepsTo (l.sound n).killed_or_shows).isOver ended
  · rw [show (l.moment (n + 1)).replica.phase = _ from congrArg Outlook.phase h]
    exact ended

/-- A replica in its error is over. -/
theorem isOver_of_error (l : Life) {n : Nat} (h : l.state n = .error) :
    (l.moment n).replica.phase.isOver = true := by
  have allows : (l.moment n).replica.phase.chapter.allows .error = true := h ▸ (l.sound n).allows
  exact Phase.isOver_of_allows_error allows

/-- The stages of a life. -/
structure Lawful (l : Life) : Prop where
  begins : l.state 0 = .notSubscribed
  /-- The states are a path. -/
  path : ∀ n, l.state (n + 1) = l.state n ∨ (l.state n).Leads (l.state (n + 1))
  /-- What is shown is a path too, the same one unless the task was ended by an overflow. -/
  shownPath : ∀ n, (l.status (n + 1)).state = (l.status n).state ∨
    (l.status n).state.Leads (l.status (n + 1)).state
  shown : ∀ n, (l.moment n).replica.phase ≠ .killed → (l.status n).state = l.state n
  /-- Nothing comes after the end. -/
  last : ∀ n m, n ≤ m → l.state n = .unsubscribed → l.state m = .unsubscribed
  ready : ∀ n, (l.status n).ready = true ↔ (l.status n).state = .online
  errored : ∀ n, (l.status n).state = .error → (l.status n).errored = true
  erroredStays : ∀ n m, n ≤ m → (l.status n).errored = true → (l.status m).errored = true
  pushTimeoutStays : ∀ n m, n ≤ m →
    (l.status n).pushTimeout = true → (l.status m).pushTimeout = true
  /-- Once the end of the push was received, the push-timeout flag is not raised any more. -/
  pushTimeoutNotRaised : ∀ n m, l.Receives n → n < m →
    (l.status m).pushTimeout = true → (l.status (n + 1)).pushTimeout = true
  /-- In its error a replica does nothing more. -/
  halted : ∀ n m, n ≤ m → l.state n = .error → l.Steps m → (l.moment m).Idles (l.moment (m + 1))
  haltedRole : ∀ n m, n ≤ m → l.state n = .error →
    (l.moment m).replica.role = (l.moment n).replica.role

/-- Every life is lawful, whatever records, failures and commands come. -/
theorem lawful (l : Life) : l.Lawful where
  begins := rfl
  path n := (l.follows n).1.state
  shownPath n := (l.follows n).2.state
  shown n live := congrArg Face.state ((l.sound n).shows live)
  last n m hnm h := by
    refine kept (P := fun m => l.state m = .unsubscribed) (fun m hm => ?_) hnm h
    rcases (l.follows m).1.state with same | leads
    · exact same.trans hm
    · rw [show (l.moment m).outlook.face.state = .unsubscribed from hm] at leads
      exact (ReplicaState.not_leads_of_unsubscribed _ leads).elim
  ready n := (l.sound n).shown.ready
  errored n := (l.sound n).shown.errored
  erroredStays _ _ hnm h :=
    kept (P := fun m => (l.status m).errored = true) (fun m => (l.follows m).2.errored) hnm h
  pushTimeoutStays _ _ hnm h :=
    kept (P := fun m => (l.status m).pushTimeout = true)
      (fun m => (l.follows m).2.pushTimeout) hnm h
  pushTimeoutNotRaised n m hr hnm h := by
    have push : (l.moment (n + 1)).outlook.endOfPush = true := by
      rw [moment_succ_of_steps hr.1]
      exact hr.2.endOfPush
    have both := kept (n := n + 1) (m := m)
      (P := fun m => (l.moment m).outlook.endOfPush = true ∧
        ((l.status m).pushTimeout = true → (l.status (n + 1)).pushTimeout = true))
      (fun m hm => ⟨l.endOfPush_kept m hm.1, fun raised => ?_⟩) hnm
      ⟨push, fun raised => raised⟩
    · exact both.2 h
    · rcases (l.follows m).2.raised raised with before | notYet
      · exact hm.2 before
      · rw [hm.1] at notYet
        cases notYet
  halted n m hnm h hs := by
    have ended := kept (P := fun m => (l.moment m).replica.phase.isOver = true) l.isOver_kept hnm
      (l.isOver_of_error h)
    rw [moment_succ_of_steps hs]
    exact Run.step_idles ended
  haltedRole n m hnm h := by
    -- That the role stays rests on the replica being over all along, so both are kept together.
    have both := kept (n := n) (m := m)
      (P := fun m => (l.moment m).replica.phase.isOver = true ∧
        (l.moment m).replica.role = (l.moment n).replica.role)
      (fun m hm => ⟨l.isOver_kept m hm.1, ?_⟩) hnm ⟨l.isOver_of_error h, rfl⟩
    · exact both.2
    · rcases l.steps_or_same m with hs | ⟨-, hs⟩
      · rw [moment_succ_of_steps hs]
        exact (Run.step_idles hm.1).role.trans hm.2
      · exact hs.trans hm.2

end Life

end StoreFeed
