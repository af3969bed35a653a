import StoreFeed.Proofs.Replica.Course
import StoreFeed.Proofs.Stats.Aggregator

/-!
# The books that a replica keeps

A replica is counted by its state, reports to its host's statistics, and raises the error flag of
its version there. `Run.Books` says that counts and reports went along with what the replica did,
`Run.Flags` that no flag changed. Most of what a step does keeps both (`Run.Keeps`). Halting raises
the flag (`Run.Alarms`), and who retires is counted no more and takes its report along
(`Run.Retires`). That a step does one of the three, also where an overflow breaks it off
(`Run.Accounts`), is shown in `StoreFeed.Proofs.Replica.Walk`.
-/

namespace StoreFeed

/-- Whether a report of a scope is the replica's own. -/
def Replica.Owns (r : Replica) (key : Stats.ScopeKey) (pk : Stats.PartitionKey) : Prop :=
  Stats.Aggregator.Owns r.id.store r.id.version r.id.partition key pk

/-- What a replica adds to the count of a state. -/
def Replica.share (r : Replica) (s : ReplicaState) : Int := if r.state = s then 1 else 0

namespace Metrics.ReplicaMetrics

/-- The number of replicas in a state. -/
def inState (m : ReplicaMetrics) (s : ReplicaState) : Int := m.states.findD s 0

theorem inState_moveState (m : ReplicaMetrics) (s s' : ReplicaState) (change : Int) :
    (m.moveState s change).inState s' = m.inState s' + if s = s' then change else 0 := by
  unfold inState moveState SortedMap.findD
  by_cases h : s' = s
  · subst h
    simp
  · rw [SortedMap.find?_insert_of_ne _ h, if_neg (Ne.symm h), Int.add_zero]

theorem inState_changeState (m : ReplicaMetrics) (before after s : ReplicaState) :
    (m.changeState before after).inState s =
      m.inState s + (if before = s then -1 else 0) + if after = s then 1 else 0 := by
  unfold changeState
  rw [inState_moveState, inState_moveState]
  rfl

end Metrics.ReplicaMetrics

namespace Run

/-- Counts and reports went along with the replica. -/
structure Books (a b : Run) : Prop where
  id : b.replica.id = a.replica.id
  sound : b.site.stats.Sound
  active : b.commons.metrics.active = a.commons.metrics.active
  balance : ∀ s, b.commons.metrics.inState s - b.replica.share s =
    a.commons.metrics.inState s - a.replica.share s
  reports : ∀ key pk, b.site.stats.Holds key pk → a.site.stats.Holds key pk ∨ a.replica.Owns key pk
  reporters : ∀ key, b.site.stats.registry.reporter? key = a.site.stats.registry.reporter? key
  runs : b.replica.phase = .stopped → a.replica.phase = .stopped

/-- No flag changed. -/
structure Flags (a b : Run) : Prop where
  flags : ∀ key, b.site.stats.flag? key = a.site.stats.flag? key
  errored : b.replica.errored = a.replica.errored
  state : b.replica.state = .error → a.replica.state = .error

/-- Neither books nor flags show what was done. -/
structure Keeps (a b : Run) : Prop extends a.Books b, a.Flags b

/-- The replica raised its flag and that of its version. -/
structure Alarms (a b : Run) : Prop extends a.Books b where
  raised : b.replica.errored = true
  flags : ∀ key, b.site.stats.flag? key =
    if key = ⟨a.replica.id.store, .version a.replica.id.version⟩ then
      (a.site.stats.flag? key).map fun _ => true
    else a.site.stats.flag? key

/-- The replica went to a state, where it is counted. -/
structure Enters (a : Run) (state : ReplicaState) (b : Run) : Prop extends a.Books b where
  stats : b.site.stats = a.site.stats
  errored : b.replica.errored = a.replica.errored
  state : b.replica.state = state

/-- The replica is counted no more, and its report is gone. -/
structure Retires (a b : Run) : Prop extends a.Flags b where
  id : b.replica.id = a.replica.id
  sound : b.site.stats.Sound
  active : b.commons.metrics.active = a.commons.metrics.active
  balance : ∀ s, b.commons.metrics.inState s = a.commons.metrics.inState s - a.replica.share s
  reports : ∀ key pk, b.site.stats.Holds key pk →
    a.site.stats.Holds key pk ∧ ¬ a.replica.Owns key pk
  reporters : ∀ key, b.site.stats.registry.reporter? key = a.site.stats.registry.reporter? key
  stopped : b.replica.phase = .stopped

variable {a b c : Run}

theorem Books.trans (hab : a.Books b) (hbc : b.Books c) : a.Books c where
  id := hbc.id.trans hab.id
  sound := hbc.sound
  active := hbc.active.trans hab.active
  balance s := (hbc.balance s).trans (hab.balance s)
  reports key pk h := by
    rcases hbc.reports key pk h with before | own
    · exact hab.reports key pk before
    · unfold Replica.Owns at own
      rw [hab.id] at own
      exact .inr own
  reporters key := (hbc.reporters key).trans (hab.reporters key)
  runs h := hab.runs (hbc.runs h)

theorem Flags.trans (hab : a.Flags b) (hbc : b.Flags c) : a.Flags c where
  flags key := (hbc.flags key).trans (hab.flags key)
  errored := hbc.errored.trans hab.errored
  state h := hab.state (hbc.state h)

theorem Keeps.trans (hab : a.Keeps b) (hbc : b.Keeps c) : a.Keeps c :=
  ⟨hab.toBooks.trans hbc.toBooks, hab.toFlags.trans hbc.toFlags⟩

/-- The run once a replica raised its flag and that of its version. -/
def raised (run : Run) : Run :=
  { run with
    replica := { run.replica with errored := true }
    site := { run.site with
      stats := run.site.stats.setErrored run.replica.id.store run.replica.id.version true } }

theorem alarms_raised (sound : a.site.stats.Sound) : a.Alarms a.raised where
  id := rfl
  sound := sound.modifyHeld _ _
  active := rfl
  balance _ := rfl
  reports key pk h := .inl ((sound.holds_setErrored _ _ _ key pk).mp h)
  reporters key := Stats.Registry.reporter?_modifyHeld _ _ key _
  runs := id
  raised := rfl
  flags key := sound.flag?_setErrored _ _ _ key

theorem Keeps.alarms (hab : a.Keeps b) (hbc : b.Alarms c) : a.Alarms c where
  toBooks := hab.toBooks.trans hbc.toBooks
  raised := hbc.raised
  flags key := by
    rw [hbc.flags key, hab.id, hab.flags key]

theorem Alarms.keeps (hab : a.Alarms b) (hbc : b.Keeps c) : a.Alarms c where
  toBooks := hab.toBooks.trans hbc.toBooks
  raised := hbc.errored.trans hab.raised
  flags key := (hbc.flags key).trans (hab.flags key)

theorem Enters.keeps {state : ReplicaState} (h : a.Enters state b) (fine : state ≠ .error) :
    a.Keeps b :=
  ⟨h.toBooks, ⟨fun key => by rw [h.stats], h.errored, fun he =>
    absurd (h.state.symm.trans he) fine⟩⟩

theorem Alarms.enters {state : ReplicaState} (hab : a.Alarms b) (hbc : b.Enters state c) :
    a.Alarms c :=
  ⟨hab.toBooks.trans hbc.toBooks, hbc.errored.trans hab.raised, fun key => by
    rw [hbc.stats]
    exact hab.flags key⟩

/-- The report of a replica is forgotten. -/
def unreported (run : Run) : Run :=
  { run with site := { run.site with
    stats := run.site.stats.removePartition run.replica.id.store run.replica.id.version
      run.replica.id.partition } }

theorem Keeps.unreported (sound : a.site.stats.Sound) : a.Keeps a.unreported where
  id := rfl
  sound := sound.withBoth _ _ _
  active := rfl
  balance _ := rfl
  reports key pk h := .inl ((sound.holds_removePartition _ _ _ key pk).mp h).1
  reporters key := Stats.Registry.reporter?_withBoth _ _ _ key _
  runs h := h
  flags key := sound.flag?_removePartition _ _ _ key
  errored := rfl
  state h := h

/-- Whose report is gone and who is counted as unsubscribed retires once it is not counted there. -/
theorem Keeps.retires (h : a.Keeps b) (sound : a.site.stats.Sound)
    (stats : b.site.stats = a.unreported.site.stats) (state : b.replica.state = .unsubscribed) :
    a.Retires { b with
      replica := { b.replica with phase := .stopped }
      commons := { b.commons with
        metrics := b.commons.metrics.moveState .unsubscribed (-1) } } where
  toFlags := ⟨h.flags, h.errored, h.state⟩
  id := h.id
  sound := h.sound
  active := h.active
  balance s := by
    have balance := h.balance s
    rw [Replica.share, state] at balance
    rw [Metrics.ReplicaMetrics.inState_moveState]
    split at balance <;> rename_i same
    · rw [if_pos same]
      omega
    · rw [if_neg same]
      omega
  reports key pk held := by
    have held : b.site.stats.Holds key pk := held
    rw [stats] at held
    exact (sound.holds_removePartition _ _ _ key pk).mp held
  reporters := h.reporters
  stopped := rfl

/-- What is neither counted nor flagged nor reported. -/
theorem Keeps.of_same (sound : a.site.stats.Sound) (stats : b.site.stats = a.site.stats)
    (id : b.replica.id = a.replica.id) (state : b.replica.state = a.replica.state)
    (errored : b.replica.errored = a.replica.errored)
    (phase : b.replica.phase = .stopped → a.replica.phase = .stopped)
    (active : b.commons.metrics.active = a.commons.metrics.active)
    (states : b.commons.metrics.states = a.commons.metrics.states) : a.Keeps b where
  id := id
  sound := stats ▸ sound
  active := active
  balance s := by
    unfold Metrics.ReplicaMetrics.inState Replica.share
    rw [states, state]
  reports key pk h := .inl (stats ▸ h)
  reporters key := by rw [stats]
  runs := phase
  flags key := by rw [stats]
  errored := errored
  state h := state ▸ h

theorem Keeps.refl (sound : a.site.stats.Sound) : a.Keeps a :=
  .of_same sound rfl rfl rfl rfl id rfl rfl

/-- What is recorded is no part of the accounts. -/
theorem Keeps.of_ledger {stats : Stats.Aggregator} (sound : stats.Sound)
    (same : ∀ key, stats.ledger? key = a.site.stats.ledger? key)
    (reporters : ∀ key, stats.registry.reporter? key = a.site.stats.registry.reporter? key) :
    a.Keeps { a with site := { a.site with stats } } where
  id := rfl
  sound := sound
  active := rfl
  balance _ := rfl
  reports key _ h := .inl ((Stats.Aggregator.holds_congr (same key)).mp h)
  reporters := reporters
  runs := id
  flags key := Stats.Aggregator.flag?_congr (same key)
  errored := rfl
  state := id

/-- Whose task is ended by an overflow stays in the books. -/
theorem Books.killed (h : a.Books b) :
    a.Books { b with replica := { b.replica with phase := .killed, wakeAt := none } } :=
  ⟨h.id, h.sound, h.active, h.balance, h.reports, h.reporters, fun h => by cases h⟩

theorem Keeps.killed (h : a.Keeps b) :
    a.Keeps { b with replica := { b.replica with phase := .killed, wakeAt := none } } :=
  ⟨h.toBooks.killed, ⟨h.flags, h.errored, h.state⟩⟩

theorem Alarms.killed (h : a.Alarms b) :
    a.Alarms { b with replica := { b.replica with phase := .killed, wakeAt := none } } :=
  ⟨h.toBooks.killed, h.raised, h.flags⟩

end Run

/-- A step keeps books and flags, or the replica halts, or it retires. -/
inductive Run.Accounts (a b : Run) : Prop where
  | keeps (keeps : a.Keeps b)
  | alarms (live : a.replica.phase.isOver = false) (alarms : a.Alarms b)
  | retires (retires : a.Retires b)

namespace Run

variable {a b : Run}

theorem Accounts.id (h : a.Accounts b) : b.replica.id = a.replica.id := by
  cases h with
  | keeps keeps => exact keeps.id
  | alarms _ alarms => exact alarms.id
  | retires retires => exact retires.id

theorem Accounts.sound (h : a.Accounts b) : b.site.stats.Sound := by
  cases h with
  | keeps keeps => exact keeps.sound
  | alarms _ alarms => exact alarms.sound
  | retires retires => exact retires.sound

/-- No flag is lost. -/
theorem Accounts.isSome_flag? (h : a.Accounts b) (key : Stats.ScopeKey) :
    (b.site.stats.flag? key).isSome = (a.site.stats.flag? key).isSome := by
  cases h with
  | keeps keeps => rw [keeps.flags]
  | alarms _ alarms =>
    rw [alarms.flags]
    split <;> simp
  | retires retires => rw [retires.flags]

/-- A replica that is in error has raised its flag. -/
theorem Accounts.errored_of_error (h : a.Accounts b)
    (shown : a.replica.state = .error → a.replica.errored = true)
    (error : b.replica.state = .error) : b.replica.errored = true := by
  cases h with
  | keeps keeps => exact keeps.errored.trans (shown (keeps.state error))
  | alarms _ alarms => exact alarms.raised
  | retires retires => exact retires.errored.trans (shown (retires.state error))

end Run

end StoreFeed
