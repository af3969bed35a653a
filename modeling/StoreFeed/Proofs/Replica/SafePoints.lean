import StoreFeed.Proofs.Replica.ErrorPolicy

/-!
# Safe points

A batch is handled as a whole: between its poll and the safe point behind it every record is
finished or passed over, and what was finished is committed. Only there commands take effect,
whether they were still in the queue or had ended a pause before: the last role asked for is taken,
unless a stop came too, wherever among them. `Life.safePoints` says so of every life.
-/

namespace StoreFeed

/-- What is left of a batch, as long as a replica is in one. -/
def Phase.left? : Phase → Option (List (TopicPartition × ChangeRecord))
  | .working w => some ((w.topic, w.record) :: w.rest)
  | .committing _ | .safePoint _ => some []
  | _ => none

theorem Phase.left?_of_isFree {p : Phase} (h : p.isFree = true) : p.left? = none := by
  cases p <;> first | rfl | cases h

theorem Phase.left?_of_isOver {p : Phase} (h : p.isOver = true) : p.left? = none := by
  cases p <;> first | rfl | cases h

namespace Feed

/-- A record that was polled is passed over: its partition is not subscribed any more, or it is
below the position in the version topic. -/
def PassesOver (f : Feed) (e : TopicPartition × ChangeRecord) : Prop :=
  f.subscriptions.contains e.1 = false ∨
    e.1 = f.id.versionTopic ∧ e.2.offset < f.tracker.versionPosition

/-- Records are passed over up to one that is taken up, or to the end of the batch. -/
theorem nextPhase_split (f : Feed) (b : Backoff) (batch : List (TopicPartition × ChangeRecord))
    (processed : Bool) : ∃ passed left, batch = passed ++ left ∧ (∀ e ∈ passed, f.PassesOver e) ∧
      (f.nextPhase b batch processed).left? = some left ∧
      ∀ p, f.nextPhase b batch processed = .safePoint p → p = false ∧ processed = false := by
  induction batch with
  | nil =>
    refine ⟨[], [], rfl, fun e he => (List.not_mem_nil he).elim, ?_, fun p hp => ?_⟩
    · cases processed <;> rfl
    · cases processed with
      | true => cases hp
      | false =>
        cases hp
        exact ⟨rfl, rfl⟩
  | cons e rest ih =>
    obtain ⟨passed, left, split, passes, hleft, safe⟩ := ih
    have skip : f.PassesOver e → ∃ passed left, e :: rest = passed ++ left ∧
        (∀ e ∈ passed, f.PassesOver e) ∧ (f.nextPhase b rest processed).left? = some left ∧
        ∀ p, f.nextPhase b rest processed = .safePoint p → p = false ∧ processed = false := by
      intro he
      refine ⟨e :: passed, left, by rw [split]; rfl, fun e' he' => ?_, hleft, safe⟩
      rcases List.mem_cons.mp he' with rfl | he'
      · exact he
      · exact passes e' he'
    unfold nextPhase
    split
    · rename_i unsubscribed
      exact skip (.inl (Bool.not_eq_true' _ ▸ unsubscribed))
    · split
      · rename_i below
        exact skip (.inr below)
      · exact ⟨[], e :: rest, rfl, fun e he => (List.not_mem_nil he).elim, rfl,
          fun p hp => by cases hp⟩

/-- A value is prepared without another look at the rest of the batch. -/
theorem left?_settled (f : Feed) (w : Work) (value : Option ByteArray) :
    (f.settled w value).left? = some ((w.topic, w.record) :: w.rest) := by
  unfold settled
  split <;> rfl

theorem role_inRole (f : Feed) (role : Role) : (f.inRole role).role = role := by
  unfold inRole
  split
  · rfl
  · rename_i same
    exact (Decidable.not_not.mp same).symm

end Feed

namespace Run

/-! ## Batches -/

/-- How a replica came to what is left of its batch. -/
inductive Batches (a : Run) (g : Course) (left : List (TopicPartition × ChangeRecord)) : Prop where
  | polls (passed : List (TopicPartition × ChangeRecord)) (awake : a.replica.wakeAt = none)
      (phase : a.replica.phase = .polling) (polled : a.batch? = some (passed ++ left))
      (passes : ∀ e ∈ passed, g.feed.PassesOver e) (fresh : g.feed.phase ≠ .safePoint true)
  | stays (same : a.replica.phase.left? = some left)
      (safe : ∀ p, g.feed.phase = .safePoint p → g.feed = a.feed)
  | commits (same : a.replica.phase.left? = some left) (phase : g.feed.phase = .safePoint true)
      (kept : g.feed.data.checkpoint = some g.feed.checkpoint)
  | finishes (w : Work) (passed : List (TopicPartition × ChangeRecord)) (finishes : a.Finishes w)
      (rest : w.rest = passed ++ left) (passes : ∀ e ∈ passed, g.feed.PassesOver e)
      (committing : ∀ p, g.feed.phase ≠ .safePoint p)

variable {a : Run} {g : Course} {left : List (TopicPartition × ChangeRecord)}

/-- With the record in hand its rest is left. -/
theorem batches_of_working {w : Work} {p : Phase} (phase : a.replica.phase = .working w)
    (same : p.left? = some ((w.topic, w.record) :: w.rest)) (hl : p.left? = some left)
    (safe : ∀ q, p ≠ .safePoint q) {paused : Bool} :
    a.Batches { a.course.inPhase p with paused } left := by
  cases same.symm.trans hl
  exact .stays (by rw [phase]; rfl) fun q hq => absurd hq (safe q)

theorem batches_settled {w : Work} (value : Option ByteArray) (phase : a.replica.phase = .working w)
    (hl : (a.feed.settled w value).left? = some left) :
    a.Batches (a.course.inPhase (a.feed.settled w value)) left := by
  refine batches_of_working phase (a.feed.left?_settled w value) hl fun q hq => ?_
  unfold Feed.settled at hq
  split at hq <;> cases hq

theorem batches_finished {w : Work} (finishes : a.Finishes w) (f : Feed)
    (t : LagTracker) (b : Backoff) (hl : (f.finished t b w).phase.left? = some left) :
    a.Batches { a.course with feed := f.finished t b w } left := by
  obtain ⟨passed, left', split, passes, hleft, safe⟩ :=
    { f with tracker := t }.nextPhase_split b w.rest true
  cases hleft.symm.trans hl
  exact .finishes w passed finishes split passes fun p hp => by cases (safe p hp).2

theorem Does.batches (awake : a.replica.wakeAt = none) (h : a.Does g)
    (hl : g.feed.phase.left? = some left) : g.feed.role = a.feed.role ∧ a.Batches g left := by
  cases h with
  | rest phase =>
    cases (Phase.left?_of_isOver phase).symm.trans hl
  | drift f paused like phase phase' => cases (Phase.left?_of_isFree phase').symm.trans hl
  | poll consumer b batch phase polled =>
    obtain ⟨passed, left', rfl, passes, hleft, safe⟩ :=
      { a.feed with consumer }.nextPhase_split b batch false
    cases hleft.symm.trans hl
    exact ⟨rfl, .polls passed awake phase polled passes fun hp => by cases (safe true hp).1⟩
  | look w p phase stage looks =>
    refine ⟨rfl, ?_⟩
    cases looks with
    | put value => exact batches_settled _ phase hl
    | delete => exact batches_settled _ phase hl
    | update u => exact batches_of_working phase rfl hl fun _ => Phase.noConfusion
  | merge w u value phase => exact ⟨rfl, batches_settled _ phase hl⟩
  | openTopic w value phase =>
    exact ⟨rfl, batches_of_working phase rfl hl fun _ => Phase.noConfusion⟩
  | publish w value offset log phase =>
    cases hl
    refine ⟨rfl, .stays (by rw [phase]; rfl) fun q hq => ?_⟩
    cases hq
  | mark w m b phase stage payload | pass w m b phase stage payload =>
    have fine := mishap?_of_fresh phase stage
    exact ⟨rfl, batches_finished ⟨awake, phase, fine, .inl ⟨m, stage, payload⟩⟩ _ _ _ hl⟩
  | store w value offset b phase stage fine =>
    exact ⟨rfl, batches_finished ⟨awake, phase, fine, .inr ⟨value, offset, stage⟩⟩ _ _ _ hl⟩
  | startOver w b e phase =>
    exact ⟨rfl, batches_of_working phase rfl hl fun _ => Phase.noConfusion⟩
  | commit b phase =>
    cases hl
    exact ⟨rfl, .commits (by rw [phase]; rfl) rfl rfl⟩
  | commitAgain b b' e phase =>
    cases hl
    refine ⟨rfl, .stays (by rw [phase]; rfl) fun q hq => ?_⟩
    cases hq
  | obey processed =>
    -- A safe point leads to the rest of the cycle or to the end, and no batch is left in either.
    obtain ⟨_, _, _, phase, _, rfl | rfl, h⟩ := a.course.obeyed_eq processed <;>
      · rw [h] at hl
        cases hl
  | wait phase =>
    obtain ⟨_, p, hp, h⟩ := a.course.waited_eq
    rw [h] at hl
    have ended : p.isOver = true := by
      rcases hp with rfl | rfl
      · rw [show a.course.feed.phase = .parked from phase]
        rfl
      · rfl
    cases (Phase.left?_of_isOver ended).symm.trans hl
  | detach consumer subscriptions phase =>
    have ended : a.replica.phase.isOver = true := by rw [phase]; rfl
    cases (Phase.left?_of_isOver ended).symm.trans hl
  | restore | halt | retire => cases hl

/-- In a batch the role stays, and its records are gone through one after the other. -/
theorem Goes.batches (h : a.Goes g) (hl : g.feed.phase.left? = some left) :
    g.feed.role = a.feed.role ∧ a.Batches g left := by
  cases h with
  | rest => exact ⟨rfl, .stays hl fun _ _ => rfl⟩
  | wake =>
    obtain ⟨_, _, _, _, rfl | rfl, h⟩ := a.course.woken_eq
    · rw [h] at hl ⊢
      exact ⟨rfl, .stays hl fun _ _ => rfl⟩
    · rw [h] at hl
      cases hl
  | act awake does => exact does.batches (awake_of_paused awake) hl
  | breakOff awake breaks => cases breaks <;> cases hl

/-! ## Roles -/

/-- A role changes at a safe point only. -/
theorem Goes.role (h : a.Goes g) : g.feed.role = a.feed.role ∨
    a.replica.wakeAt = none ∧ ∃ processed, a.replica.phase = .safePoint processed := by
  have does : ∀ {g : Course}, a.Does g → g.feed.role = a.feed.role ∨
      ∃ processed, a.replica.phase = .safePoint processed := by
    intro g does
    cases does with
    | drift f paused like => exact .inl like.role
    | obey processed phase => exact .inr ⟨processed, phase⟩
    | wait =>
      obtain ⟨_, _, _, h⟩ := a.course.waited_eq
      rw [h]
      exact .inl rfl
    | restore => exact .inl rfl
    | _ => exact .inl rfl
  cases h with
  | rest => exact .inl rfl
  | wake =>
    obtain ⟨_, _, _, _, _, h⟩ := a.course.woken_eq
    rw [h]
    exact .inl rfl
  | act awake h => exact (does h).imp id fun safe => ⟨awake_of_paused awake, safe⟩
  | breakOff awake breaks =>
    cases breaks with
    | done h => exact (does h).imp id fun safe => ⟨awake_of_paused awake, safe⟩
    | rest | mark | store => exact .inl rfl

end Run

/-! ## Commands -/

namespace Course

/-- Of all commands that have come so far some had their effect at a safe point and some were taken
to heart since; the others are in the queue. None of those that were taken was a stop. -/
structure Heeds (o : Course) (first : Role) (commands : List Command) : Prop where
  goesOn : o.stopRequested = false
  told : ∃ done heeded, commands = done ++ heeded ++ o.inbox ∧ .stop ∉ done ++ heeded ∧
    o.pendingRole = lastRole? heeded ∧ o.feed.role = (lastRole? done).getD first

variable {o g : Course} {first : Role} {commands : List Command}

/-- Orders that stay as they are. -/
theorem Heeds.of_same (h : o.Heeds first commands) (goesOn : g.stopRequested = o.stopRequested)
    (inbox : g.inbox = o.inbox) (pending : g.pendingRole = o.pendingRole)
    (role : g.feed.role = o.feed.role) : g.Heeds first commands :=
  ⟨goesOn.trans h.goesOn, by rw [inbox, pending, role]; exact h.told⟩

/-- A pause ends by a command that is taken to heart. -/
theorem Heeds.woken (h : o.Heeds first commands) (live : o.woken.feed.phase.isOver = false) :
    o.woken.Heeds first commands := by
  obtain ⟨done, heeded, hcommands, unstopped, pending, role⟩ := h.told
  have goesOn := h.goesOn
  unfold Course.woken at live ⊢
  split at live
  · cases live
  · rename_i goes
    rw [if_neg goes]
    unfold roused at goes ⊢
    cases hi : o.inbox with
    | nil =>
      rw [hi] at goes hcommands
      exact ⟨Bool.eq_false_iff.mpr goes, done, heeded, hcommands, unstopped, pending, role⟩
    | cons c rest =>
      rw [hi] at goes hcommands
      cases c with
      | stop => exact absurd rfl goes
      | changeRole asked =>
        refine ⟨goesOn, done, heeded ++ [.changeRole asked], ?_, ?_, ?_, role⟩
        · simpa using hcommands
        · simpa using unstopped
        · rw [lastRole?_append]
          rfl

/-- A stop is heard wherever it came among the commands. -/
theorem Heeds.stopRequested_informed (h : o.Heeds first commands) :
    o.informed.stopRequested = (decide (.stop ∈ commands) || !o.connected) := by
  obtain ⟨done, heeded, hcommands, unstopped, -, -⟩ := h.told
  have here : (.stop ∈ commands) ↔ .stop ∈ o.inbox := by
    rw [hcommands, List.mem_append]
    exact or_iff_right unstopped
  rw [informed_eq]
  simp [h.goesOn, here]

/-- The last role asked for is taken, of all that were ever asked for. -/
theorem Heeds.role_steered (h : o.Heeds first commands) :
    o.informed.steered.feed.role = (lastRole? commands).getD first := by
  obtain ⟨done, heeded, hcommands, -, pending, role⟩ := h.told
  have last : lastRole? commands = (lastRole? (heeded ++ o.inbox)).or (lastRole? done) := by
    rw [hcommands, List.append_assoc, lastRole?_append]
  have asked : o.informed.pendingRole = lastRole? (heeded ++ o.inbox) := by
    rw [informed_eq, lastRole?_append, pending]
  have kept : o.informed.feed = o.feed := by rw [informed_eq]
  unfold steered
  rw [asked, last]
  cases lastRole? (heeded ++ o.inbox) with
  | some asked => exact Feed.role_inRole _ asked
  | none =>
    rw [kept, Option.none_or]
    exact role

theorem Heeds.obeyed (h : o.Heeds first commands) {processed : Bool}
    (live : (o.obeyed processed).feed.phase.isOver = false) :
    (o.obeyed processed).Heeds first commands := by
  have role := h.role_steered
  have steered_eq : o.informed.steered.stopRequested = o.informed.stopRequested ∧
      o.informed.steered.inbox = [] ∧ o.informed.steered.pendingRole = none := by
    unfold steered
    split
    · exact ⟨rfl, rfl, rfl⟩
    · rename_i none
      exact ⟨rfl, rfl, none⟩
  have stop := h.stopRequested_informed
  unfold Course.obeyed at live ⊢
  split at live
  · cases live
  · rename_i goes
    rw [if_neg goes]
    have unstopped : .stop ∉ commands := by
      intro stopped
      rw [stop, decide_eq_true stopped] at goes
      exact goes rfl
    refine ⟨steered_eq.1.trans (Bool.eq_false_iff.mpr goes), commands, [], ?_, ?_,
      steered_eq.2.2, role⟩
    · rw [show (o.informed.steered.inPhase (.promoting processed)).inbox = [] from steered_eq.2.1]
      simp
    · simpa using unstopped

end Course

/-- Every step heeds the commands. -/
theorem Run.Goes.heeds {a : Run} {g : Course} (h : a.Goes g) {first : Role}
    {commands : List Command}
    (heeds : a.course.Heeds first commands) (live : g.feed.phase.isOver = false) :
    g.Heeds first commands := by
  cases h with
  | rest => exact heeds
  | wake => exact heeds.woken live
  | breakOff awake breaks => cases breaks <;> cases live
  | act awake does =>
    cases does with
    | drift f paused like => exact heeds.of_same rfl rfl rfl like.role
    | obey processed => exact heeds.obeyed live
    | wait phase =>
      obtain ⟨_, p, hp, h⟩ := a.course.waited_eq
      rw [h] at live
      rcases hp with rfl | rfl
      · rw [show (a.course.inPhase a.course.feed.phase).feed.phase = .parked from phase] at live
        cases live
      · cases live
    | _ => exact heeds.of_same rfl rfl rfl rfl

/-! ## Lives -/

namespace Life

/-- The role of a replica. -/
def roleAt (l : Life) (n : Nat) : Role := (l.moment n).replica.role

/-- A replica polls a batch. -/
structure Polls (l : Life) (k : Nat) (batch : List (TopicPartition × ChangeRecord)) : Prop where
  steps : l.Steps k
  awake : (l.moment k).replica.wakeAt = none
  phase : (l.moment k).replica.phase = .polling
  batch : (l.moment k).batch? = some batch

/-- Between two moments a record that was polled was finished, or passed over. -/
inductive Disposes (l : Life) (k n : Nat) (e : TopicPartition × ChangeRecord) : Prop where
  | finished (m : Nat) (hk : k < m) (hm : m < n) (w : Work) (steps : l.Steps m)
      (finishes : (l.moment m).Finishes w) (same : e = (w.topic, w.record))
  | passedOver (m : Nat) (hk : k < m) (hm : m ≤ n) (passes : (l.moment m).feed.PassesOver e)

/-- Since a moment a replica has been in the batch that it polled then. -/
structure InBatch (l : Life) (k n : Nat)
    (batch left : List (TopicPartition × ChangeRecord)) : Prop where
  later : k < n
  polls : l.Polls k batch
  inside : ∀ m, k < m → m ≤ n → (l.moment m).replica.phase.left?.isSome
  role : ∀ m, k ≤ m → m ≤ n → l.roleAt m = l.roleAt k
  done : ∃ done, batch = done ++ left ∧ ∀ e ∈ done, l.Disposes k n e
  /-- Where no record was processed none was finished. -/
  untouched : (l.moment n).replica.phase = .safePoint false →
    ∀ m w, k < m → m < n → l.Steps m → ¬ (l.moment m).Finishes w

/-- A replica is at a safe point and lets commands take effect. -/
structure AtSafePoint (l : Life) (n : Nat) (processed : Bool) : Prop where
  steps : l.Steps n
  awake : (l.moment n).replica.wakeAt = none
  phase : (l.moment n).replica.phase = .safePoint processed

/-- When commands take effect, and what effect they have. -/
structure SafePoints (l : Life) : Prop where
  changes : ∀ n, l.roleAt (n + 1) ≠ l.roleAt n → ∃ processed, l.AtSafePoint n processed
  /-- Behind a safe point lies a batch that was polled in the same role. All of it is finished or
  passed over, and if any record was finished the checkpoint is the one that the replica has come
  to. -/
  behind : ∀ n processed, l.AtSafePoint n processed → ∃ k batch, l.InBatch k n batch [] ∧
    ((∃ m w, k < m ∧ m < n ∧ l.Steps m ∧ (l.moment m).Finishes w) →
      (l.moment n).feed.data.checkpoint = some (l.moment n).replica.checkpoint)
  /-- A record is worked on in the role in which it was polled. -/
  handled : ∀ n w, (l.moment n).replica.phase = .working w →
    ∃ k batch, l.InBatch k n batch ((w.topic, w.record) :: w.rest)
  /-- The last command counts, -/
  obeys : ∀ n processed, l.AtSafePoint n processed → .stop ∉ l.commands n →
    (l.moment n).replica.connected = true →
      l.roleAt (n + 1) = (lastRole? (l.commands n)).getD (l.roleAt n)
  /-- unless there is a stop among them, or nobody left who could send one. -/
  leaves : ∀ n processed, l.AtSafePoint n processed →
    .stop ∈ l.commands n ∨ (l.moment n).replica.connected = false →
      (l.moment (n + 1)).replica.phase = .leaving ∧ l.roleAt (n + 1) = l.roleAt n
  stopped : ∀ n m, n ≤ m → .stop ∈ l.commands n → l.roleAt m = l.roleAt n

variable (l : Life)

/-- What is disposed of stays so. -/
theorem Disposes.succ {l : Life} {k n : Nat} {e : TopicPartition × ChangeRecord}
    (h : l.Disposes k n e) : l.Disposes k (n + 1) e := by
  cases h with
  | finished m hk hm w steps finishes same =>
    exact .finished m hk (Nat.lt_succ_of_lt hm) w steps finishes same
  | passedOver m hk hm passes => exact .passedOver m hk (Nat.le_succ_of_le hm) passes

/-- A batch goes on. -/
theorem InBatch.succ {l : Life} {k n : Nat}
    {batch left more left' : List (TopicPartition × ChangeRecord)}
    (h : l.InBatch k n batch left) (hl : (l.moment (n + 1)).replica.phase.left? = some left')
    (role : l.roleAt (n + 1) = l.roleAt n) (split : left = more ++ left')
    (disposes : ∀ e ∈ more, l.Disposes k (n + 1) e)
    (untouched : (l.moment (n + 1)).replica.phase = .safePoint false →
      (l.moment n).replica.phase = .safePoint false) : l.InBatch k (n + 1) batch left' where
  later := Nat.lt_succ_of_lt h.later
  polls := h.polls
  inside m hk hm := by
    rcases Nat.lt_or_eq_of_le hm with hm | rfl
    · exact h.inside m hk (Nat.le_of_lt_succ hm)
    · rw [hl]
      rfl
  role m hk hm := by
    rcases Nat.lt_or_eq_of_le hm with hm | rfl
    · exact h.role m hk (Nat.le_of_lt_succ hm)
    · exact role.trans (h.role n (Nat.le_of_lt h.later) (Nat.le_refl n))
  done := by
    obtain ⟨done, hbatch, hdone⟩ := h.done
    refine ⟨done ++ more, by rw [hbatch, split, List.append_assoc], fun e he => ?_⟩
    rcases List.mem_append.mp he with he | he
    · exact (hdone e he).succ
    · exact disposes e he
  untouched safe m w hk hm steps finishes := by
    have was := untouched safe
    rcases Nat.lt_or_eq_of_le (Nat.le_of_lt_succ hm) with hm | rfl
    · exact h.untouched was m w hk hm steps finishes
    · cases was.symm.trans finishes.phase

/-- Whatever is left belongs to a batch. -/
theorem inBatch (n : Nat) (left : List (TopicPartition × ChangeRecord))
    (hl : (l.moment n).replica.phase.left? = some left) : ∃ k batch, l.InBatch k n batch left := by
  -- The poll that a batch came from is found by going back to it, step by step.
  induction n generalizing left with
  | zero => cases hl
  | succ n ih =>
    rcases l.goes_or_around n with ⟨steps, -, goes⟩ | ⟨log, connected, h⟩
    · obtain ⟨role, batches⟩ := goes.batches hl
      cases batches with
      | polls passed awake phase polled passes =>
        refine ⟨n, passed ++ left, Nat.lt_succ_self n, ⟨steps, awake, phase, polled⟩,
          fun m hk hm => ?_,
          fun m hk hm => ?_, ⟨passed, rfl, fun e he => ?_⟩, fun _ m w hk hm => ?_⟩
        · rw [show m = n + 1 by omega, hl]
          rfl
        · rcases Nat.lt_or_eq_of_le hm with hm | rfl
          · rw [show m = n by omega]
          · exact role
        · exact .passedOver (n + 1) (Nat.lt_succ_self n) (Nat.le_refl _) (passes e he)
        · omega
      | stays same safe =>
        obtain ⟨k, batch, inBatch⟩ := ih left same
        refine ⟨k, batch, inBatch.succ hl role (List.nil_append left).symm
          (fun e he => (List.not_mem_nil he).elim) fun hs => ?_⟩
        exact (congrArg Feed.phase (safe false hs)).symm.trans hs
      | commits same phase =>
        obtain ⟨k, batch, inBatch⟩ := ih left same
        refine ⟨k, batch, inBatch.succ hl role (List.nil_append left).symm
          (fun e he => (List.not_mem_nil he).elim) fun hs => ?_⟩
        cases phase.symm.trans hs
      | finishes w passed finishes rest passes committing =>
        obtain ⟨k, batch, inBatch⟩ :=
          ih ((w.topic, w.record) :: w.rest) (by rw [finishes.phase]; rfl)
        have split : (w.topic, w.record) :: w.rest = ((w.topic, w.record) :: passed) ++ left := by
          rw [rest]
          rfl
        refine ⟨k, batch, inBatch.succ hl role split (fun e he => ?_)
          fun hs => absurd hs (committing false)⟩
        rcases List.mem_cons.mp he with rfl | he
        · exact .finished n inBatch.later (Nat.lt_succ_self n) w steps finishes rfl
        · exact .passedOver (n + 1) (Nat.lt_succ_of_lt inBatch.later) (Nat.le_refl _) (passes e he)
    · have hp : (l.moment (n + 1)).replica.phase = (l.moment n).replica.phase :=
        congrArg (·.feed.phase) h
      obtain ⟨k, batch, inBatch⟩ := ih left (hp ▸ hl)
      exact ⟨k, batch, inBatch.succ hl (congrArg (·.feed.role) h) (List.nil_append left).symm
        (fun e he => (List.not_mem_nil he).elim) fun hs => hp.symm.trans hs⟩

/-- At a safe point behind records that were processed the checkpoint is committed. -/
theorem committed_of_processed (n : Nat) (phase : (l.moment n).replica.phase = .safePoint true) :
    (l.moment n).feed.data.checkpoint = some (l.moment n).replica.checkpoint := by
  induction n with
  | zero => cases phase
  | succ n ih =>
    rcases l.goes_or_around n with ⟨-, -, goes⟩ | ⟨log, connected, h⟩
    · have hl : (l.moment (n + 1)).replica.phase.left? = some [] := by rw [phase]; rfl
      cases (goes.batches hl).2 with
      | polls passed awake polling polled passes fresh => exact absurd phase fresh
      | stays same safe =>
        have kept : (l.moment (n + 1)).feed = (l.moment n).feed := safe true phase
        have was := ih ((congrArg Feed.phase kept).symm.trans phase)
        exact (congrArg (·.data.checkpoint) kept).trans
          (was.trans (congrArg (fun f => some f.checkpoint) kept).symm)
      | commits same phase kept => exact kept
      | finishes w passed finishes rest passes committing => exact absurd phase (committing true)
    · have was := ih ((congrArg (·.feed.phase) h).symm.trans phase)
      exact (congrArg (·.feed.data.checkpoint) h).trans
        (was.trans (congrArg (fun o : Course => some o.feed.checkpoint) h).symm)

/-- A replica that goes on heeds all commands that have come. -/
theorem heeds (n : Nat) (live : (l.moment n).replica.phase.isOver = false) :
    (l.moment n).course.Heeds l.role (l.commands n) := by
  induction n with
  | zero => exact ⟨rfl, [], [], rfl, List.not_mem_nil, rfl, rfl⟩
  | succ n ih =>
    have was : (l.moment n).replica.phase.isOver = false := by
      cases ended : (l.moment n).replica.phase.isOver with
      | false => rfl
      | true =>
        rw [l.isOver_kept n ended] at live
        cases live
    rcases l.goes_or_around n with ⟨-, none, goes⟩ | ⟨log, connected, h⟩
    · rw [commands_succ, none, List.append_nil]
      exact goes.heeds (ih was) live
    · obtain ⟨goesOn, done, heeded, hcommands, unstopped, pending, role⟩ := ih was
      rw [h]
      refine ⟨goesOn, done, heeded, ?_, unstopped, pending, role⟩
      rw [commands_succ, hcommands, List.append_assoc]
      rfl

/-- Commands that have come stay. -/
theorem commands_prefix {n m : Nat} (hnm : n ≤ m) : l.commands n <+: l.commands m := by
  induction hnm with
  | refl => exact List.prefix_refl _
  | step _ ih =>
    rw [commands_succ]
    exact ih.trans (List.prefix_append _ _)

variable {l}

theorem changes {n : Nat} (changes : l.roleAt (n + 1) ≠ l.roleAt n) :
    ∃ processed, l.AtSafePoint n processed := by
  rcases l.goes_or_around n with ⟨steps, -, goes⟩ | ⟨log, connected, h⟩
  · rcases goes.role with same | ⟨awake, processed, phase⟩
    · exact absurd same changes
    · exact ⟨processed, steps, awake, phase⟩
  · exact absurd (congrArg (·.feed.role) h) changes

theorem obeys {n : Nat} {processed : Bool} (safe : l.AtSafePoint n processed)
    (unstopped : .stop ∉ l.commands n) (connected : (l.moment n).replica.connected = true) :
    l.roleAt (n + 1) = (lastRole? (l.commands n)).getD (l.roleAt n) := by
  have heeds := l.heeds n (by rw [safe.phase]; rfl)
  have goesOn : (l.moment n).course.informed.stopRequested = false := by
    rw [heeds.stopRequested_informed, decide_eq_false unstopped]
    show (!(l.moment n).replica.connected) = false
    rw [connected]
    rfl
  have taken : ((l.moment n).course.obeyed processed).feed.role =
      (lastRole? (l.commands n)).getD l.role := by
    unfold Course.obeyed
    rw [goesOn]
    exact heeds.role_steered
  have role : l.roleAt (n + 1) = (lastRole? (l.commands n)).getD l.role := by
    have stepped := Run.step_obeyed safe.awake safe.phase
    rw [← moment_succ_of_steps safe.steps] at stepped
    rcases stepped with h | ⟨-, h⟩
    · exact (congrArg (·.feed.role) h).trans taken
    · exact (congrArg (·.feed.role) h).trans taken
  rw [role]
  cases hlast : lastRole? (l.commands n) with
  | some asked => rfl
  | none =>
    -- Nobody ever asked for another role.
    obtain ⟨done, heeded, hcommands, -, -, first⟩ := heeds.told
    rw [hcommands, List.append_assoc, lastRole?_append, Option.or_eq_none_iff] at hlast
    rw [hlast.2] at first
    exact first.symm

theorem leaves {n : Nat} {processed : Bool} (safe : l.AtSafePoint n processed)
    (stop : .stop ∈ l.commands n ∨ (l.moment n).replica.connected = false) :
    (l.moment (n + 1)).replica.phase = .leaving ∧ l.roleAt (n + 1) = l.roleAt n := by
  have heeds := l.heeds n (by rw [safe.phase]; rfl)
  have stops : (l.moment n).course.informed.stopRequested = true := by
    rw [heeds.stopRequested_informed]
    rcases stop with stop | left
    · rw [decide_eq_true stop]
      rfl
    · rw [show (l.moment n).course.connected = false from left]
      exact Bool.or_true _
  have stepped := Run.step_obeyed safe.awake safe.phase
  rw [← moment_succ_of_steps safe.steps] at stepped
  rcases stepped with h | ⟨goesOn, -⟩
  · unfold Course.obeyed at h
    rw [if_pos stops, Course.informed_eq] at h
    exact ⟨congrArg (·.feed.phase) h, congrArg (·.feed.role) h⟩
  · cases stops.symm.trans goesOn

/-- In every life commands take effect at safe points only, all of them, and the last one counts. -/
theorem safePoints (l : Life) : l.SafePoints where
  changes _ := changes
  behind n processed safe := by
    obtain ⟨k, batch, inBatch⟩ := l.inBatch n [] (by rw [safe.phase]; rfl)
    refine ⟨k, batch, inBatch, fun ⟨m, w, hk, hm, steps, finishes⟩ => ?_⟩
    cases processed with
    | true => exact l.committed_of_processed n safe.phase
    | false => exact absurd finishes (inBatch.untouched safe.phase m w hk hm steps)
  handled n w phase := l.inBatch n _ (by rw [phase]; rfl)
  obeys _ _ := obeys
  leaves _ _ := leaves
  stopped n m hnm stop := by
    induction hnm with
    | refl => rfl
    | step hnm ih =>
      rename_i m
      refine Eq.trans ?_ ih
      by_contra moved
      obtain ⟨processed, safe⟩ := changes moved
      exact moved (leaves safe (.inl ((l.commands_prefix hnm).subset stop))).2

end Life

end StoreFeed
