import Mathlib.Algebra.BigOperators.Group.List.Basic
import Mathlib.Algebra.Ring.Int.Defs
import StoreFeed.Sensor.Rate

/-!
# How long a rate counts a value

The buckets of a rate roll only when it is used, by one bucket or by both, and only the second
empties them from the instant of the call on. What stays through all that (`Rate.Holds`): the
current bucket started less than a window ago, the previous one directly before it or not at all,
and each holds exactly the values that were recorded in its time, added in order. So a value counts
for one window at least and for less than two (`Rate.retention`).

The order of additions is part of the invariant, so it holds of floats as well, whose sums are not
exact.
-/

namespace StoreFeed.Sensor.Rate

variable {α β : Type}

/-! ## Calls -/

/-- What a sum over some time, in milliseconds, reads as. -/
def perSecond (sum : Float) (covered : Nat) : Float :=
  if sum == 0 then 0 else sum / (if seconds covered < 1 then 1 else seconds covered)

/-- Measure values of any kind. Of floats this is `measure` (`measure_eq_measureBy`). -/
def measureBy [Zero α] [Add α] (read : α → Nat → β) (r : Rate α) (now : Int) : β × Rate α :=
  let r := r.roll now
  (read r.total (elapsed r.oldestStart now), r)

theorem measure_eq_measureBy (r : Rate Float) (now : Int) :
    r.measure now = r.measureBy perSecond now := by
  simp only [measure, measureBy, perSecond]
  split <;> rfl

/-- A call on a rate. -/
inductive Call (α : Type) where
  | record (now : Int) (value : α)
  | measure (now : Int)

namespace Call

/-- When a call is made. -/
def time : Call α → Int
  | .record now _ => now
  | .measure now => now

/-- What a call records, and when. -/
def recorded : Call α → List (Int × α)
  | .record now value => [(now, value)]
  | .measure _ => []

end Call

/-- What some calls record, in order. -/
def recorded (calls : List (Call α)) : List (Int × α) := calls.flatMap Call.recorded

/-- The buckets after a call. -/
def after [Zero α] [Add α] (r : Rate α) : Call α → Rate α
  | .record now value => r.record now value
  | .measure now => (r.measureBy (fun sum _ => sum) now).2

/-- The buckets after some calls. -/
def afterAll [Zero α] [Add α] (r : Rate α) (calls : List (Call α)) : Rate α := calls.foldl after r

/-! ## What the buckets hold -/

/-- The values that were recorded at an instant or later. -/
def since (start : Int) (values : List (Int × α)) : List α :=
  (values.filter (start ≤ ·.1)).map (·.2)

theorem since_eq_nil {start : Int} {values : List (Int × α)} (h : ∀ e ∈ values, e.1 < start) :
    since start values = [] := by
  rw [since, List.filter_eq_nil_iff.mpr, List.map_nil]
  intro e he
  simpa using h e he

theorem since_append (start : Int) (values values' : List (Int × α)) :
    since start (values ++ values') = since start values ++ since start values' := by
  rw [since, List.filter_append, List.map_append]
  rfl

/-- The values of both buckets are those since the start of the older one. -/
theorem since_split (values : List (Int × α)) {oldest current : Int} (h : oldest ≤ current) :
    (since oldest (values.filter (·.1 < current)) ++ since current values).Perm
    (since oldest values) := by
  have early : (values.filter (·.1 < current)).filter (oldest ≤ ·.1) =
      (values.filter (oldest ≤ ·.1)).filter (·.1 < current) := by
    rw [List.filter_filter, List.filter_filter]
    exact List.filter_congr fun e _ => Bool.and_comm _ _
  have late : values.filter (current ≤ ·.1) =
      (values.filter (oldest ≤ ·.1)).filter fun e => !decide (e.1 < current) := by
    rw [List.filter_filter]
    refine List.filter_congr fun e _ => ?_
    rw [Bool.eq_iff_iff]
    simp
    omega
  rw [since, since, since, ← List.map_append, early, late]
  exact (List.filter_append_perm _ _).map _

section Buckets

variable [Zero α] [Add α]

/-- The sum of values, added in order. -/
def sumOf (values : List α) : α := values.foldl (· + ·) 0

/-- The buckets of a rate at the instant of a call, when they are rolled. -/
structure Holds (length : Nat) (values : List (Int × α)) (now : Int) (r : Rate α) : Prop where
  window : r.window = length
  /-- The current bucket started less than a window ago. -/
  started : r.currentStart ≤ now
  fresh : now < r.currentStart + length
  /-- The previous bucket lies directly before the current one, or is empty. -/
  adjacent : r.oldestStart = r.currentStart ∨ r.oldestStart = r.currentStart - length
  past : ∀ e ∈ values, e.1 ≤ now
  /-- What neither bucket holds is a window old. -/
  dropped : ∀ e ∈ values, e.1 < r.oldestStart → e.1 + length ≤ now
  previous : r.previous = sumOf (since r.oldestStart (values.filter (·.1 < r.currentStart)))
  current : r.current = sumOf (since r.currentStart values)

variable {length : Nat} {values : List (Int × α)} {now now' : Int} {r : Rate α}

/-- A rate starts with empty buckets. -/
theorem holds_start (positive : 0 < length) (created : Int) :
    (start length created : Rate α).Holds length [] created where
  window := rfl
  started := Int.le_refl _
  fresh := by
    show created < created + length
    omega
  adjacent := .inl rfl
  past := by simp
  dropped := by simp
  previous := rfl
  current := rfl

/-- Rolling drops no value before it is a window old. -/
theorem Holds.roll (h : r.Holds length values now) (positive : 0 < length) (later : now ≤ now') :
    (r.roll now').Holds length values now' := by
  obtain ⟨rfl, started, fresh, adjacent, past, dropped, previous, current⟩ := h
  have age : (elapsed r.currentStart now' : Int) = now' - r.currentStart := by
    unfold elapsed
    omega
  unfold Rate.roll
  dsimp only
  split
  · -- Both buckets are emptied: all values are older than the current one's end.
    rename_i long
    have older : ∀ e ∈ values, e.1 < now' := fun e he => by
      have := past e he
      omega
    refine ⟨rfl, Int.le_refl _, ?_, .inl rfl, fun e he => Int.le_of_lt (older e he),
      fun e he _ => ?_, ?_, ?_⟩
    · show now' < now' + r.window
      omega
    · have := past e he
      omega
    · have none : since now' (values.filter (·.1 < now')) = [] := since_eq_nil fun e he => by
        simpa using (List.mem_filter.mp he).2
      exact (congrArg sumOf none).symm
    · exact (congrArg sumOf (since_eq_nil older)).symm
  · split
    · -- The current bucket becomes the previous one.
      rename_i short long
      have older : ∀ e ∈ values, e.1 < r.currentStart + r.window := fun e he =>
        Int.lt_of_le_of_lt (past e he) fresh
      refine ⟨rfl, ?_, ?_, .inr ?_, fun e he => Int.le_trans (past e he) later,
        fun e he before => ?_, ?_, ?_⟩
      · show r.currentStart + r.window ≤ now'
        omega
      · show now' < r.currentStart + r.window + r.window
        omega
      · show r.currentStart = r.currentStart + r.window - r.window
        omega
      · have before : e.1 < r.currentStart := before
        omega
      · have all : values.filter (·.1 < r.currentStart + r.window) = values :=
          List.filter_eq_self.mpr fun e he => by simpa using older e he
        show r.current = sumOf (since r.currentStart
            (values.filter (·.1 < r.currentStart + r.window)))
        rw [all, current]
      · exact (congrArg sumOf (since_eq_nil older)).symm
    · rename_i short
      refine ⟨rfl, Int.le_trans started later, by omega, adjacent, fun e he =>
        Int.le_trans (past e he) later, fun e he before => ?_, previous, current⟩
      exact Int.le_trans (dropped e he before) later

theorem Holds.oldest_le (h : r.Holds length values now) : r.oldestStart ≤ r.currentStart := by
  rcases h.adjacent with same | before <;> omega

/-- A value goes to the current bucket. -/
theorem Holds.record (h : r.Holds length values now) (value : α) :
    { r with current := r.current + value }.Holds length (values ++ [(now, value)]) now := by
  refine ⟨h.window, h.started, h.fresh, h.adjacent, ?_, ?_, ?_, ?_⟩
  · intro e he
    rcases List.mem_append.mp he with he | he
    · exact h.past e he
    · cases List.mem_singleton.mp he
      exact Int.le_refl _
  · intro e he before
    rcases List.mem_append.mp he with he | he
    · exact h.dropped e he before
    · cases List.mem_singleton.mp he
      exact absurd before (Int.not_lt.mpr (Int.le_trans h.oldest_le h.started))
  · have not_before : ¬ now < r.currentStart := Int.not_lt.mpr h.started
    have same : (values ++ [(now, value)]).filter (·.1 < r.currentStart) =
        values.filter (·.1 < r.currentStart) := by
      simp [List.filter_append, not_before]
    show r.previous = sumOf (since r.oldestStart
        ((values ++ [(now, value)]).filter (·.1 < r.currentStart)))
    rw [same, h.previous]
  · have one : since r.currentStart [(now, value)] = [value] := by
      simp [since, h.started]
    show r.current + value = sumOf (since r.currentStart (values ++ [(now, value)]))
    rw [since_append, one, sumOf, List.foldl_append, ← sumOf, ← h.current]
    rfl

/-- A call keeps what the buckets hold, and adds what it records. -/
theorem Holds.after (h : r.Holds length values now) (positive : 0 < length) {call : Call α}
    (later : now ≤ call.time) :
    (r.after call).Holds length (values ++ call.recorded) call.time := by
  have rolled := h.roll positive later
  cases call with
  | record now' value => exact rolled.record value
  | measure now' =>
    rw [Call.recorded, List.append_nil]
    exact rolled

/-- Calls in order of time keep what the buckets hold. -/
theorem Holds.afterAll (h : r.Holds length values now) (positive : 0 < length)
    {calls : List (Call α)} (ordered : (now :: (calls.map Call.time ++ [now'])).Pairwise (· ≤ ·)) :
    ((r.afterAll calls).roll now').Holds length (values ++ Rate.recorded calls) now' := by
  induction calls generalizing r values now with
  | nil =>
    rw [Rate.recorded, List.flatMap_nil, List.append_nil]
    exact h.roll positive (List.rel_of_pairwise_cons ordered List.mem_cons_self)
  | cons call rest ih =>
    have later := List.rel_of_pairwise_cons ordered List.mem_cons_self
    have := ih (h.after positive later) (List.Pairwise.of_cons ordered)
    rwa [List.append_assoc] at this

/-- What is a window old at most is held. -/
theorem Holds.oldest_le_of_recent (h : r.Holds length values now) {e : Int × α} (he : e ∈ values)
    (recent : now < e.1 + length) : r.oldestStart ≤ e.1 := by
  by_contra before
  have := h.dropped e he (Int.not_le.mp before)
  omega

/-- What is two windows old is not held. -/
theorem Holds.lt_oldest_of_old (h : r.Holds length values now) {e : Int × α}
    (old : e.1 + 2 * length ≤ now) : e.1 < r.oldestStart := by
  have := h.fresh
  rcases h.adjacent with same | before <;> omega

end Buckets

/-! ## What a measurement counts -/

/-- The buckets of a rate with exact values, at the instant of a call. -/
structure Retains [AddCommMonoid α] (length : Nat) (values : List (Int × α))
    (now : Int) (r : Rate α) :
    Prop where
  /-- Both buckets hold together what was recorded since the start of the older one. -/
  held : r.total = (since r.oldestStart values).sum
  /-- The current one started less than a window ago, and the older one a window before it or with
  it. -/
  started : r.currentStart ≤ now
  fresh : now < r.currentStart + length
  adjacent : r.oldestStart = r.currentStart ∨ r.oldestStart = r.currentStart - length
  /-- So a value counts for one window, and not any more after two. -/
  counted : ∀ e ∈ values, now < e.1 + length → r.oldestStart ≤ e.1
  expired : ∀ e ∈ values, e.1 + 2 * length ≤ now → e.1 < r.oldestStart

theorem Holds.retains [AddCommMonoid α] {length : Nat} {values : List (Int × α)}
    {now : Int} {r : Rate α} (h : r.Holds length values now) : r.Retains length values now where
  held := by
    have sums : ∀ vs : List α, sumOf vs = vs.sum := fun vs => List.sum_eq_foldl.symm
    rw [total, h.previous, h.current, sums, sums, ← List.sum_append]
    exact (since_split values h.oldest_le).sum_eq
  started := h.started
  fresh := h.fresh
  adjacent := h.adjacent
  counted _ he := h.oldest_le_of_recent he
  expired _ _ := h.lt_oldest_of_old

/-- Whenever a rate is used after calls in order of time, its buckets have rolled so that they
retain each value for one to two windows; and what it measures is read off the values that they
retain. -/
theorem retention [AddCommMonoid α] (read : α → Nat → β) {length : Nat} (positive : 0 < length)
    {created now : Int} {calls : List (Call α)}
    (ordered : (created :: (calls.map Call.time ++ [now])).Pairwise (· ≤ ·)) :
    let r := ((start length created).afterAll calls).roll now
    r.Retains length (recorded calls) now ∧
    ((start length created).afterAll calls).measureBy read now =
      (read (since r.oldestStart (recorded calls)).sum (elapsed r.oldestStart now), r) := by
  have holds := (holds_start positive created).afterAll positive ordered
  rw [List.nil_append] at holds
  refine ⟨holds.retains, ?_⟩
  rw [measureBy, holds.retains.held]

/-- Recorded at 0, 12 and 19 with windows of 10: at 25 the first value is gone, the others are
counted. -/
theorem retention_secondWindow :
    let calls : List (Call Int) := [.record 0 100, .measure 5, .record 12 3, .record 19 4]
    let r := ((start 10 0).afterAll calls).roll 25
    0 < 10 ∧ ((0 : Int) :: (calls.map Call.time ++ [25])).Pairwise (· ≤ ·) ∧
    r.Retains 10 (recorded calls) 25 ∧ r.total = 7 ∧ r.oldestStart = 10 ∧
    (((start 10 0).afterAll calls).measureBy (fun sum covered => (sum, covered)) 25).1 =
    (7, 15) := by
  intro calls r
  have ordered : ((0 : Int) :: (calls.map Call.time ++ [25])).Pairwise (· ≤ ·) := by decide
  obtain ⟨retains, measured⟩ :=
    retention (fun sum covered => (sum, covered)) (by decide : 0 < 10) ordered
  exact ⟨by decide, ordered, retains, rfl, rfl, by rw [measured]; rfl⟩

/-- Two windows after the last value a rate of floats is exactly zero as well. -/
theorem measure_of_quiet {length : Nat} (positive : 0 < length) {created now : Int}
    {calls : List (Call Float)}
    (ordered : (created :: (calls.map Call.time ++ [now])).Pairwise (· ≤ ·))
    (quiet : ∀ e ∈ recorded calls, e.1 + 2 * length ≤ now) :
    (((start length created).afterAll calls).measure now).1 = 0 := by
  have holds := (holds_start positive created).afterAll positive ordered
  rw [List.nil_append] at holds
  have gone : ∀ e ∈ recorded calls, e.1 < _ := fun e he => holds.lt_oldest_of_old (quiet e he)
  have empty : (((start length created).afterAll calls).roll now).total = (0 : Float) + 0 := by
    rw [total, holds.previous, holds.current,
      since_eq_nil fun e he => gone e (List.mem_of_mem_filter he),
      since_eq_nil fun e he => Int.lt_of_lt_of_le (gone e he) holds.oldest_le]
    rfl
  have zero : ((0 : Float) + 0 == 0) = true := by decide
  rw [measure_eq_measureBy, measureBy, empty, perSecond, if_pos zero]

end StoreFeed.Sensor.Rate
