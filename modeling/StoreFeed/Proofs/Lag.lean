import Mathlib.Data.List.Induction
import StoreFeed.Lag
import StoreFeed.Proofs.SortedMap
import StoreFeed.Proofs.Word

/-!
# What a lag snapshot says

A tracker recalls of its changes the last position and end of the version topic, and the furthest
position and the last sampled end of every real-time topic; a lag is what lies between the two
(`LagTracker.Recalls`). Its snapshot puts one lag into the family of its role and phase and leaves
the other families at zero, and whether the replica may serve reads is decided on the same real-time
lag that the snapshot shows and splits into regions (`LagTracker.Shows`). All of that needs one
bound only, on the real-time lag itself: no other sum over lags has two terms that are not zero.
-/

namespace StoreFeed

open Decimal (maxWord64)

/-- A family of lags. -/
inductive LagSnapshot.Family where
  | batch (role : Role)
  | hybrid (role : Role)
deriving DecidableEq

/-- The lag in a family. -/
def LagSnapshot.lag (s : LagSnapshot) : Family → Nat
  | .batch .leader => s.leaderBatch
  | .batch .standby => s.followerBatch
  | .hybrid .leader => s.leaderHybrid
  | .hybrid .standby => s.followerHybrid

namespace LagTracker

/-! ## Changes -/

/-- A change of a tracker. -/
inductive Change where
  | setRole (role : Role)
  | endOfPush
  | startOfBufferReplay
  | versionPosition (next : UInt64)
  | versionEnd (end_ : UInt64)
  | realTimePosition (region : Option RegionId) (next : UInt64)
  | realTimeEnd (region : Option RegionId) (end_ : UInt64)

namespace Change

/-- The role that a change sets. -/
def role? : Change → Option Role
  | .setRole role => some role
  | _ => none

/-- The position in the version topic that a change records. -/
def versionPosition? : Change → Option Nat
  | .versionPosition next => some next.toNat
  | _ => none

/-- The end of the version topic that a change samples. -/
def versionEnd? : Change → Option Nat
  | .versionEnd end_ => some end_.toNat
  | _ => none

/-- The position in a real-time topic that a change records. -/
def position? (region : Option RegionId) : Change → Option Nat
  | .realTimePosition region' next => if region' = region then some next.toNat else none
  | _ => none

/-- The end of a real-time topic that a change samples. -/
def end? (region : Option RegionId) : Change → Option Nat
  | .realTimeEnd region' end_ => if region' = region then some end_.toNat else none
  | _ => none

end Change

/-- A tracker after a change. -/
def after (t : LagTracker) : Change → LagTracker
  | .setRole role => { t with role }
  | .endOfPush => { t with endOfPush := true }
  | .startOfBufferReplay => { t with startOfBufferReplay := true }
  | .versionPosition next => t.atVersionPosition next.toNat
  | .versionEnd end_ => t.withVersionEnd end_.toNat
  | .realTimePosition region next => t.atRealTimePosition region next.toNat
  | .realTimeEnd region end_ => t.withRealTimeEnd region end_.toNat

/-- A tracker after some changes. -/
def afterAll (t : LagTracker) (changes : List Change) : LagTracker := changes.foldl after t

section After

variable (t : LagTracker) (change : Change) (region : Option RegionId)

theorem role_after : (t.after change).role = change.role?.getD t.role := by
  cases change <;> rfl

theorem threshold_after : (t.after change).threshold = t.threshold := by
  cases change <;> rfl

theorem endOfPush_after :
    (t.after change).endOfPush = true ↔ t.endOfPush = true ∨ change = .endOfPush := by
  cases change <;>
    simp [after, atVersionPosition, withVersionEnd, atRealTimePosition, withRealTimeEnd]

/-- The last position in the version topic replaces those before it. -/
theorem versionPosition_after :
    (t.after change).versionPosition = change.versionPosition?.getD t.versionPosition := by
  cases change <;> rfl

theorem versionEnd_after : (t.after change).versionEnd = change.versionEnd?.getD t.versionEnd := by
  cases change <;> rfl

/-- A position in a real-time topic moves forward only. -/
theorem realTimePosition?_after : (t.after change).realTimePosition? region =
    (change.position? region).elim (t.realTimePosition? region) fun next =>
      some (max ((t.realTimePosition? region).getD 0) next) := by
  cases change with
  | realTimePosition region' next =>
    by_cases same : region' = region
    · subst same
      simp [after, Change.position?]
    · simp [after, Change.position?, same,
        realTimePosition?_atRealTimePosition_of_ne t (Ne.symm same)]
  | _ => rfl

/-- The last sample of an end replaces those before it. -/
theorem find?_realTimeEnds_after : (t.after change).realTimeEnds.find? region =
    (change.end? region).or (t.realTimeEnds.find? region) := by
  cases change with
  | realTimeEnd region' end_ =>
    by_cases same : region' = region
    · subst same
      simp [after, Change.end?, withRealTimeEnd]
    · simp [after, Change.end?, same, withRealTimeEnd,
        SortedMap.find?_insert_of_ne _ (Ne.symm same)]
  | _ => rfl

end After

section Last

variable {α β : Type}

theorem getLast?_filterMap_concat (f : α → Option β) (xs : List α) (x : α) :
    ((xs ++ [x]).filterMap f).getLast? = (f x).or (xs.filterMap f).getLast? := by
  rw [List.filterMap_append, List.getLast?_append]
  cases h : f x <;> simp [List.filterMap, h]

theorem max?_filterMap_concat (f : α → Option Nat) (xs : List α) (x : α) :
    ((xs ++ [x]).filterMap f).max? =
      (f x).elim (xs.filterMap f).max? fun n => some (max ((xs.filterMap f).max?.getD 0) n) := by
  rw [List.filterMap_append]
  cases h : f x with
  | none => simp [h]
  | some n =>
    rw [show [x].filterMap f = [n] by simp [h]]
    cases xs.filterMap f with
    | nil => simp
    | cons m ns =>
      rw [List.cons_append, List.max?_cons', List.max?_cons', List.foldl_append]
      rfl

end Last

/-- What some changes recorded last. -/
def lastOf (recorded? : Change → Option Nat) (changes : List Change) : Option Nat :=
  (changes.filterMap recorded?).getLast?

/-- The furthest that some changes recorded. -/
def furthestOf (recorded? : Change → Option Nat) (changes : List Change) : Option Nat :=
  (changes.filterMap recorded?).max?

/-- What a tracker recalls of the changes since it was created. -/
structure Recalls (t : LagTracker) (role : Role) (threshold : Option Nat) (changes : List Change) :
    Prop where
  role : t.role = (changes.filterMap Change.role?).getLast?.getD role
  threshold : t.threshold = threshold
  endOfPush : t.endOfPush = true ↔ Change.endOfPush ∈ changes
  /-- The version topic is at the position that was recorded last. -/
  versionPosition : t.versionPosition = (lastOf Change.versionPosition? changes).getD 0
  /-- It ends where it did when it was sampled last. -/
  versionEnd : t.versionEnd = (lastOf Change.versionEnd? changes).getD 0
  versionLag : t.versionLag =
    (lastOf Change.versionEnd? changes).getD 0 - (lastOf Change.versionPosition? changes).getD 0
  /-- A real-time topic is at the furthest position that was recorded. -/
  positions : ∀ region, t.realTimePosition? region = furthestOf (Change.position? region) changes
  /-- It ends where it did when it was sampled last. -/
  ends : ∀ region, t.realTimeEnds.find? region = lastOf (Change.end? region) changes
  regionLag : ∀ region, t.regionLag region =
    (lastOf (Change.end? region) changes).getD 0 -
      (furthestOf (Change.position? region) changes).getD 0

section Recalls

variable {t : LagTracker} {role : Role} {threshold : Option Nat} {changes : List Change}

/-- A lag is recalled with the end and the position that it lies between. -/
theorem Recalls.of_positions (role_ : t.role = (changes.filterMap Change.role?).getLast?.getD role)
    (threshold_ : t.threshold = threshold)
    (endOfPush : t.endOfPush = true ↔ Change.endOfPush ∈ changes)
    (versionPosition : t.versionPosition = (lastOf Change.versionPosition? changes).getD 0)
    (versionEnd : t.versionEnd = (lastOf Change.versionEnd? changes).getD 0)
    (positions : ∀ region, t.realTimePosition? region =
      furthestOf (Change.position? region) changes)
    (ends : ∀ region, t.realTimeEnds.find? region = lastOf (Change.end? region) changes) :
    t.Recalls role threshold changes where
  role := role_
  threshold := threshold_
  endOfPush
  versionPosition
  versionEnd
  versionLag := by rw [← versionEnd, ← versionPosition, LagTracker.versionLag, offsetLag]
  positions
  ends
  regionLag region := by
    rw [← ends, ← positions]
    rfl

theorem recalls_create (role : Role) (threshold : Option Nat) :
    (create role threshold).Recalls role threshold [] :=
  .of_positions rfl rfl (by simp [create]) rfl rfl (fun _ => rfl) fun _ => rfl

/-- A change is recalled with those before it. -/
theorem Recalls.after (h : t.Recalls role threshold changes) (change : Change) :
    (t.after change).Recalls role threshold (changes ++ [change]) := by
  have last : ∀ recorded? : Change → Option Nat, lastOf recorded? (changes ++ [change]) =
      (recorded? change).or (lastOf recorded? changes) := fun recorded? =>
    getLast?_filterMap_concat recorded? changes change
  refine .of_positions ?_ ((t.threshold_after change).trans h.threshold) ?_ ?_ ?_ (fun region => ?_)
    fun region => ?_
  · rw [role_after, getLast?_filterMap_concat, h.role]
    cases change.role? <;> rfl
  · rw [endOfPush_after, h.endOfPush, List.mem_append, List.mem_singleton, eq_comm (b := change)]
  · rw [versionPosition_after, last, h.versionPosition]
    cases change.versionPosition? <;> rfl
  · rw [versionEnd_after, last, h.versionEnd]
    cases change.versionEnd? <;> rfl
  · rw [realTimePosition?_after, furthestOf, max?_filterMap_concat, h.positions]
    rfl
  · rw [find?_realTimeEnds_after, last, h.ends]

theorem recalls_afterAll (role : Role) (threshold : Option Nat) (changes : List Change) :
    ((create role threshold).afterAll changes).Recalls role threshold changes := by
  induction changes using List.reverseRecOn with
  | nil => exact recalls_create role threshold
  | append_singleton changes change ih =>
    rw [afterAll, List.foldl_append]
    exact ih.after change

/-- The end of the version topic is a number of 64 bits. -/
theorem Recalls.versionEnd_le (h : t.Recalls role threshold changes) :
    t.versionEnd ≤ maxWord64 := by
  rw [h.versionEnd]
  cases sampled : lastOf Change.versionEnd? changes with
  | none => exact Nat.zero_le _
  | some n =>
    obtain ⟨change, -, samples⟩ := List.mem_filterMap.mp (List.mem_of_getLast? sampled)
    cases change with
    | versionEnd end_ =>
      cases samples
      exact Nat.le_of_lt_succ end_.toNat_lt
    | _ => cases samples

end Recalls

/-! ## The real-time lag -/

/-- Lag behind all sampled real-time topics together, however large. -/
def realTimeTotal (t : LagTracker) : Nat := (t.realTimeEnds.keys.map t.regionLag).sum

/-- The real-time lag of a hybrid version of which an end was sampled. -/
def realTimeTotal? (t : LagTracker) : Option Nat :=
  if t.isHybrid && !t.realTimeEnds.isEmpty then some t.realTimeTotal else none

theorem realTimeTotal?_le (t : LagTracker) : t.realTimeTotal?.getD 0 ≤ t.realTimeTotal := by
  unfold realTimeTotal?
  split
  · exact Nat.le_refl _
  · exact Nat.zero_le _

theorem realTimeLag_of_fits {t : LagTracker} (fits : t.realTimeTotal?.getD 0 ≤ maxWord64) :
    t.realTimeLag = .ok t.realTimeTotal? := by
  by_cases known : (t.isHybrid && !t.realTimeEnds.isEmpty) = true
  · have total : t.realTimeTotal? = some t.realTimeTotal := if_pos known
    have summed : ¬ (!t.isHybrid || t.realTimeEnds.isEmpty) = true := by simpa using known
    rw [total] at fits ⊢
    have fits : t.realTimeTotal ≤ maxWord64 := fits
    rw [realTimeLag, if_neg summed, Word.sum, Word.total_eq_sum, ← realTimeTotal, if_pos fits]
    rfl
  · have none : t.realTimeTotal? = none := if_neg known
    have skipped : (!t.isHybrid || t.realTimeEnds.isEmpty) = true := by
      simpa [Decidable.imp_iff_not_or] using known
    rw [none, realTimeLag, if_pos skipped]

/-- A sum over what may be missing, the missing one apart. -/
theorem sum_map_option {α : Type} [DecidableEq α] {xs : List (Option α)} (distinct : xs.Nodup)
    (f : Option α → Nat) :
    (xs.map f).sum = (xs.filterMap fun x => x.map fun a => f (some a)).sum +
      if none ∈ xs then f none else 0 := by
  induction xs with
  | nil => rfl
  | cons x xs ih =>
    obtain ⟨new, distinct⟩ := List.nodup_cons.mp distinct
    rw [List.map_cons, List.sum_cons, ih distinct]
    cases x with
    | none => simp [new, Nat.add_comm]
    | some a => simp [Nat.add_assoc]

/-- The sampled regions with their lags. -/
def regionEntries (t : LagTracker) : Entries RegionId Nat :=
  t.realTimeEnds.keys.filterMap fun region => region.map fun r => (r, t.regionLag (some r))

theorem sorted_regionEntries (t : LagTracker) : t.regionEntries.Sorted := by
  have keys : t.realTimeEnds.keys.Pairwise fun a b => compare a b = .lt :=
    List.pairwise_map.mpr t.realTimeEnds.sorted
  refine keys.filterMap _ fun a b below e he e' he' => ?_
  obtain ⟨r, rfl, rfl⟩ := Option.map_eq_some_iff.mp he
  obtain ⟨r', rfl, rfl⟩ := Option.map_eq_some_iff.mp he'
  exact below

theorem entries_regionLags (t : LagTracker) : t.regionLags.entries = t.regionEntries :=
  Entries.ofList_of_sorted t.sorted_regionEntries

theorem mem_regionEntries {t : LagTracker} {region : RegionId} {lag : Nat} :
    (region, lag) ∈ t.regionEntries ↔
      t.realTimeEnds.contains (some region) ∧ t.regionLag (some region) = lag := by
  rw [← SortedMap.mem_keys]
  constructor
  · intro h
    obtain ⟨known, sampled, same⟩ := List.mem_filterMap.mp h
    obtain ⟨r, rfl, entry⟩ := Option.map_eq_some_iff.mp same
    cases entry
    exact ⟨sampled, rfl⟩
  · rintro ⟨sampled, rfl⟩
    exact List.mem_filterMap.mpr ⟨some region, sampled, rfl⟩

/-- The lag of a region is shown if it was sampled. -/
theorem find?_regionLags {t : LagTracker} {region : RegionId} {lag : Nat} :
    t.regionLags.find? region = some lag ↔
      t.realTimeEnds.contains (some region) ∧ t.regionLag (some region) = lag := by
  rw [← SortedMap.mem_entries, entries_regionLags, mem_regionEntries]

/-- What the regions and the topic of no region add to the real-time lag. -/
theorem realTimeTotal_eq (t : LagTracker) : t.realTimeTotal =
    t.regionLags.values.sum + if t.realTimeEnds.contains none then t.regionLag none else 0 := by
  have values : t.regionLags.values =
      t.realTimeEnds.keys.filterMap fun region => region.map fun r => t.regionLag (some r) := by
    rw [SortedMap.values, entries_regionLags, regionEntries, List.map_filterMap]
    simp [Function.comp_def]
  rw [realTimeTotal, sum_map_option t.realTimeEnds.nodup_keys, values]
  simp only [SortedMap.mem_keys]

/-! ## Snapshots -/

/-- The family in which a tracker shows its lag. -/
def family? (t : LagTracker) : Option LagSnapshot.Family :=
  if !t.endOfPush then some (.batch t.role)
  else if t.isHybrid then some (.hybrid t.role)
  else none

/-- What a family is measured on. -/
def measure (t : LagTracker) : LagSnapshot.Family → Nat
  | .hybrid .leader => t.realTimeTotal?.getD 0
  | _ => t.versionLag

/-- The real-time lag above the threshold, if both are known. -/
def excess? (t : LagTracker) : Option Nat :=
  t.threshold.bind fun threshold => t.realTimeTotal?.map (overThreshold · threshold)

section Fits

variable {t : LagTracker} (fits : t.realTimeTotal?.getD 0 ≤ maxWord64)
include fits

theorem lagOverThreshold_of_fits : t.lagOverThreshold = .ok t.excess? := by
  unfold lagOverThreshold excess?
  rw [realTimeLag_of_fits fits]
  cases t.threshold <;> rfl

theorem isCaughtUp_of_fits :
    t.isCaughtUp = .ok (t.endOfPush && (!t.isHybrid || t.excess? == some 0)) := by
  unfold isCaughtUp excess? isHybrid
  rw [realTimeLag_of_fits fits]
  cases t.endOfPush with
  | false => rfl
  | true =>
    cases t.threshold with
    | none => rfl
    | some threshold =>
      cases t.realTimeTotal? with
      | none => rfl
      | some lag =>
        show Except.ok (decide (lag ≤ threshold)) = Except.ok (some (lag - threshold) == some 0)
        congr 1
        rw [Bool.eq_iff_iff]
        simp [Nat.sub_eq_zero_iff_le]

/-- A snapshot shows the lag in one family, and the real-time lag with its parts. -/
theorem snapshot_of_fits : ∃ s, t.snapshot = .ok s ∧
    (∀ family, s.lag family = if t.family? = some family then t.measure family else 0) ∧
    s.realTime = t.realTimeTotal? ∧ s.threshold = t.threshold.getD 0 ∧
      s.regions = t.regionLags := by
  unfold snapshot family?
  rw [realTimeLag_of_fits fits]
  -- The phase, the version and the role decide which family is set; the others stay as they start,
  -- at zero.
  cases t.endOfPush <;> cases t.isHybrid <;> cases t.role <;>
    refine ⟨_, rfl, fun family => ?_, rfl, rfl, rfl⟩ <;>
    obtain role | role := family <;> cases role <;> rfl

end Fits

section Families

variable {t : LagTracker} {s : LagSnapshot}
  (families : ∀ family, s.lag family = if t.family? = some family then t.measure family else 0)
include families

theorem eq_of_lag_ne_zero {family family' : LagSnapshot.Family} (h : s.lag family ≠ 0)
    (h' : s.lag family' ≠ 0) : family = family' := by
  have shown : ∀ family, s.lag family ≠ 0 → t.family? = some family := fun family nonzero => by
    by_contra other
    exact nonzero (by rw [families, if_neg other])
  exact Option.some.inj ((shown _ h).symm.trans (shown _ h'))

theorem lag_le (fits : t.realTimeTotal?.getD 0 ≤ maxWord64) (end_ : t.versionEnd ≤ maxWord64)
    (family : LagSnapshot.Family) : s.lag family ≤ maxWord64 := by
  have version : t.versionLag ≤ maxWord64 := Nat.le_trans (Nat.sub_le _ _) end_
  rw [families]
  split
  · obtain role | role := family <;> cases role <;> assumption
  · exact Nat.zero_le _

/-- Of two families one has no lag, so their sum is the lag of the other. -/
theorem add_lag (fits : t.realTimeTotal?.getD 0 ≤ maxWord64) (end_ : t.versionEnd ≤ maxWord64)
    (family family' : LagSnapshot.Family) (ne : family ≠ family') :
    Word.add (s.lag family) (s.lag family') = .ok (s.lag family + s.lag family') := by
  have one : s.lag family = 0 ∨ s.lag family' = 0 := by
    by_contra both
    obtain ⟨h, h'⟩ := not_or.mp both
    exact ne (eq_of_lag_ne_zero families h h')
  have := lag_le families fits end_ family
  have := lag_le families fits end_ family'
  exact Word.add_eq_ok_iff.mpr ⟨rfl, by omega⟩

end Families

/-- What a snapshot shows of a tracker. -/
structure Shows (t : LagTracker) (s : LagSnapshot) : Prop where
  /-- The family of the role and the phase has the lag that it measures, all others have none. -/
  families : ∀ family, s.lag family = if t.family? = some family then t.measure family else 0
  single : ∀ family family', s.lag family ≠ 0 → s.lag family' ≠ 0 → family = family'
  leader : s.leader = .ok (s.leaderBatch + s.leaderHybrid)
  follower : s.follower = .ok (s.followerBatch + s.followerHybrid)
  batch : s.batch = .ok (s.leaderBatch + s.followerBatch)
  realTime : s.realTime = t.realTimeTotal?
  /-- The real-time lag is that of the regions, and of the topic of no region if it was sampled. -/
  parts : t.isHybrid = true → t.realTimeEnds.isEmpty = false → s.realTime =
    some (s.regions.values.sum + if t.realTimeEnds.contains none then t.regionLag none else 0)
  regions : ∀ region lag, s.regions.find? region = some lag ↔
    t.realTimeEnds.contains (some region) ∧ t.regionLag (some region) = lag
  /-- A replica may serve reads after the push, if its version has no real-time topics or nothing of
  their lag is above the threshold; and what is above it is shown. -/
  readiness : ∃ excess? caughtUp, t.lagOverThreshold = .ok excess? ∧ t.isCaughtUp = .ok caughtUp ∧
    (caughtUp = true ↔ t.endOfPush = true ∧ (t.isHybrid = false ∨ excess? = some 0)) ∧
    s.realTimeOverThreshold = excess?.getD 0

/-- Every tracker whose real-time lag fits has a snapshot, which shows it. -/
theorem exists_shows {t : LagTracker} (fits : t.realTimeTotal?.getD 0 ≤ maxWord64)
    (end_ : t.versionEnd ≤ maxWord64) : ∃ s, t.snapshot = .ok s ∧ t.Shows s := by
  obtain ⟨s, taken, families, realTime, threshold, regions⟩ := snapshot_of_fits fits
  have sums := add_lag families fits end_
  refine ⟨s, taken, ?_⟩
  exact {
    families
    single := fun _ _ => eq_of_lag_ne_zero families
    leader := sums (.batch .leader) (.hybrid .leader) nofun
    follower := sums (.batch .standby) (.hybrid .standby) nofun
    batch := sums (.batch .leader) (.batch .standby) nofun
    realTime
    parts := fun hybrid sampled => by
      rw [realTime, regions, ← realTimeTotal_eq, realTimeTotal?, hybrid, sampled]
      rfl
    regions := fun region lag => by rw [regions, find?_regionLags]
    readiness := by
      refine ⟨t.excess?, _, lagOverThreshold_of_fits fits, isCaughtUp_of_fits fits, by simp, ?_⟩
      rw [LagSnapshot.realTimeOverThreshold, realTime, threshold, excess?, realTimeTotal?, isHybrid]
      cases t.threshold with
      | none => rfl
      | some threshold => cases t.realTimeEnds.isEmpty <;> rfl }

/-- Whatever happened to a tracker whose real-time lag fits, it recalls the changes, with the lags
that they leave, and its snapshot shows these, in one family and split into regions. -/
theorem snapshot_shows (role : Role) (threshold : Option Nat) (changes : List Change)
    (fits : ((create role threshold).afterAll changes).realTimeTotal ≤ maxWord64) :
    let t := (create role threshold).afterAll changes
    t.Recalls role threshold changes ∧ ∃ s, t.snapshot = .ok s ∧ t.Shows s :=
  have recalls := recalls_afterAll role threshold changes
  ⟨recalls, exists_shows (Nat.le_trans (realTimeTotal?_le _) fits) recalls.versionEnd_le⟩

/-- What a tracker goes through while a version is pushed. -/
def pushing : List Change := [.versionEnd 7, .versionPosition 2, .versionPosition 3]

/-- The push ends. -/
def pushed : List Change := pushing ++ [.endOfPush, .versionPosition 5]

/-- The replica becomes leader and samples the real-time topics. -/
def promoted : List Change := pushed ++ [.setRole .leader, .realTimeEnd (some 1) 10,
  .realTimeEnd (some 2) 30, .realTimeEnd none 5, .realTimePosition (some 1) 4,
  .realTimePosition (some 2) 30, .realTimePosition (some 1) 2]

/-- During the push a standby is four records behind, after it two. As a leader it is six records
behind in a region and five in the topic of none. -/
theorem snapshot_shows_promoted :
    (∀ changes ∈ [pushing, pushed, promoted],
      ((create .standby (some 8)).afterAll changes).realTimeTotal ≤ maxWord64) ∧
    (∃ s, ((create .standby (some 8)).afterAll pushing).snapshot = .ok s ∧
      s.followerBatch = 4 ∧ s.leaderBatch = 0 ∧ s.followerHybrid = 0 ∧ s.leaderHybrid = 0) ∧
    (∃ s, ((create .standby (some 8)).afterAll pushed).snapshot = .ok s ∧
      s.followerHybrid = 2 ∧ s.followerBatch = 0) ∧
    ∃ s, ((create .standby (some 8)).afterAll promoted).snapshot = .ok s ∧
      s.leaderHybrid = 11 ∧ s.followerHybrid = 0 ∧ s.regions.find? 1 = some 6 ∧
      s.realTimeOverThreshold = 3 := by
  have fits : ∀ changes ∈ [pushing, pushed, promoted],
      ((create .standby (some 8)).afterAll changes).realTimeTotal ≤ maxWord64 := by decide
  refine ⟨fits, ?_, ?_, ?_⟩
  · obtain ⟨recalls, s, taken, shows⟩ := snapshot_shows .standby (some 8) pushing (fits _ (by simp))
    have batch := (shows.families (.batch .standby)).trans recalls.versionLag
    exact ⟨s, taken, batch, shows.families (.batch .leader), shows.families (.hybrid .standby),
      shows.families (.hybrid .leader)⟩
  · obtain ⟨recalls, s, taken, shows⟩ := snapshot_shows .standby (some 8) pushed (fits _ (by simp))
    exact ⟨s, taken, (shows.families (.hybrid .standby)).trans recalls.versionLag,
      shows.families (.batch .standby)⟩
  · obtain ⟨recalls, s, taken, shows⟩ :=
      snapshot_shows .standby (some 8) promoted (fits _ (by simp))
    refine ⟨s, taken, (shows.families (.hybrid .leader)).trans (by decide),
      shows.families (.hybrid .standby),
        (shows.regions 1 6).mpr ⟨by decide, recalls.regionLag (some 1)⟩, ?_⟩
    obtain ⟨excess?, -, known, -, -, excess⟩ := shows.readiness
    have three : ((create .standby (some 8)).afterAll promoted).lagOverThreshold = .ok (some 3) :=
      rfl
    rw [three] at known
    cases known
    exact excess

end LagTracker

end StoreFeed
