import Mathlib.Algebra.BigOperators.Group.List.Basic
import Mathlib.Algebra.GroupWithZero.Nat
import Mathlib.Data.List.Induction
import Mathlib.Data.List.Nodup
import StoreFeed.Proofs.Stats.Calls
import StoreFeed.Proofs.Word

/-!
# The total of a store

A report is kept twice, with its version and with the store, and both come and go by calls of their
own. As long as versions report only while they are registered, each call keeps them in step
(`Balanced`): the total has each report of each version and no other. Then its lags are the sums
over the versions (`Aggregator.tallies`).

Figures are floats in the end. What is said of them is said of the numbers of 64 bits before.
-/

namespace StoreFeed.Stats

/-- A lag that is summed over reports. -/
inductive LagFamily where
  | batch
  | leader
  | leaderBatch
  | leaderHybrid
  | follower
  | followerBatch
  | followerHybrid
  | region (r : RegionId)

namespace LagFamily

/-- What a report adds to the sum. -/
def lag : LagFamily → LagSnapshot → Except Overflow Nat
  | .batch => LagSnapshot.batch
  | .leader => LagSnapshot.leader
  | .leaderBatch => (.ok ·.leaderBatch)
  | .leaderHybrid => (.ok ·.leaderHybrid)
  | .follower => LagSnapshot.follower
  | .followerBatch => (.ok ·.followerBatch)
  | .followerHybrid => (.ok ·.followerHybrid)
  | .region r => fun lag => .ok (lag.regions.findD r 0)

/-- The figure that shows the sum. -/
def figure : LagFamily → IngestionStats → Except Overflow Float
  | .batch => IngestionStats.batchLag
  | .leader => IngestionStats.leaderLag
  | .leaderBatch => IngestionStats.leaderBatchLag
  | .leaderHybrid => IngestionStats.leaderHybridLag
  | .follower => IngestionStats.followerLag
  | .followerBatch => IngestionStats.followerBatchLag
  | .followerHybrid => IngestionStats.followerHybridLag
  | .region r => (·.regionLag r)

/-- The sum over all reports, of 64 bits. -/
def sum (f : LagFamily) (s : IngestionStats) : Except Overflow Nat := do
  Word.sum (← s.partitions.values.mapM fun r => f.lag r.lag)

/-- The sum of the sums of some versions, of 64 bits. -/
def sumOver (f : LagFamily) (versions : List (UInt32 × IngestionStats)) : Except Overflow Nat := do
  Word.sum (← versions.mapM fun e => f.sum e.2)

/-- A figure is the sum as a float. -/
theorem figure_eq (f : LagFamily) (s : IngestionStats) :
    f.figure s = (f.sum s).map Word.toFloat := by
  have shown : f.figure s = s.sumLag f.lag := by cases f <;> rfl
  rw [shown, IngestionStats.sumLag, sum]
  cases s.partitions.values.mapM fun r => f.lag r.lag with
  | error e => rfl
  | ok lags => cases Word.sum lags <;> rfl

/-- What a report adds to the sum, however large. -/
def exact : LagFamily → LagSnapshot → Nat
  | .batch => fun lag => lag.leaderBatch + lag.followerBatch
  | .leader => fun lag => lag.leaderBatch + lag.leaderHybrid
  | .leaderBatch => (·.leaderBatch)
  | .leaderHybrid => (·.leaderHybrid)
  | .follower => fun lag => lag.followerBatch + lag.followerHybrid
  | .followerBatch => (·.followerBatch)
  | .followerHybrid => (·.followerHybrid)
  | .region r => fun lag => lag.regions.findD r 0

theorem lag_cases (f : LagFamily) (lag : LagSnapshot) :
    f.lag lag = .ok (f.exact lag) ∨
      f.lag lag = .error .addition ∧ Decimal.maxWord64 < f.exact lag := by
  have add : ∀ m n, Word.add m n = .ok (m + n) ∨
      Word.add m n = .error .addition ∧ Decimal.maxWord64 < m + n := by
    intro m n
    rw [Word.add]
    split
    · exact .inl rfl
    · exact .inr ⟨rfl, by omega⟩
  cases f with
  | batch | leader | follower => exact add _ _
  | _ => exact .inl rfl

theorem sum_eq (f : LagFamily) (s : IngestionStats) :
    f.sum s = Word.sum (s.partitions.values.map fun r => f.exact r.lag) :=
  Word.sum_mapM (fun r => f.lag_cases r.lag) _

end LagFamily

/-! ## Figures with a code for idleness -/

/-- What such a figure shows, before it is a float: a code, or a number of 64 bits. -/
inductive Shown where
  | code (n : Int)
  | count (n : Nat)

namespace Shown

/-- The number shown. -/
def number : Shown → Int
  | .code n => n
  | .count n => n

/-- The number as a float. -/
def value : Shown → Float
  | .code n => Float.ofInt n
  | .count n => Word.toFloat n

end Shown

/-- A figure that shows a code while no partition reports. -/
inductive CodedFigure where
  | realTimeLag
  | awaitingBufferReplay
  | mergeErrorCode
  | leaderStalled
deriving DecidableEq

namespace CodedFigure

/-- The figure. -/
def figure (now : Int) : CodedFigure → IngestionStats → Except Overflow Float
  | .realTimeLag, s => s.realTimeLag
  | .awaitingBufferReplay, s => .ok s.awaitingBufferReplay
  | .mergeErrorCode, s => .ok s.mergeErrorCode
  | .leaderStalled, s => (s.leaderStalled now).1

/-- What the figure shows. -/
def shown (now : Int) (f : CodedFigure) (s : IngestionStats) : Except Overflow Shown :=
  match f with
  | .realTimeLag =>
    if s.partitions.isEmpty then .ok (.code Sentinel.inactive.code)
    else if s.hybridReports.isEmpty then .ok (.code Sentinel.onlyHybrid.code)
    else .count <$> Word.sum (s.hybridReports.map fun r => r.lag.realTime.getD 0)
  | .awaitingBufferReplay =>
    if s.partitions.isEmpty then .ok (.code Sentinel.inactive.code)
    else .ok (.count (s.partitions.values.filter fun r =>
      r.lag.hybrid && !r.lag.startOfBufferReplay).length)
  | .mergeErrorCode =>
    match s.partitions.values.map (·.mergeErrorCode) with
    | [] => .ok (.code Sentinel.inactive.code)
    | code :: codes => .ok (.code (codes.foldl max code))
  | .leaderStalled =>
    if s.partitions.isEmpty then .ok (.code Sentinel.inactive.code)
    else s.leaderLag.map fun lag =>
      .code (if lag > 0 then if (s.leaderBytesConsumed.measure now).1 == 0 then 1 else 0 else 0)

/-- A figure is what it shows, as a float. -/
theorem figure_eq (now : Int) (f : CodedFigure) (s : IngestionStats) :
    f.figure now s = (f.shown now s).map Shown.value := by
  cases f with
  | realTimeLag =>
    simp only [figure, shown, IngestionStats.realTimeLag]
    split
    · rfl
    · split
      · rfl
      · cases Word.sum (s.hybridReports.map fun r => r.lag.realTime.getD 0) <;> rfl
  | awaitingBufferReplay =>
    simp only [figure, shown, IngestionStats.awaitingBufferReplay]
    split <;> rfl
  | mergeErrorCode =>
    simp only [figure, shown, IngestionStats.mergeErrorCode]
    cases s.partitions.values.map (·.mergeErrorCode) <;> rfl
  | leaderStalled =>
    simp only [figure, shown, IngestionStats.leaderStalled]
    split
    · rfl
    · cases s.leaderLag with
      | error e => rfl
      | ok lag =>
        simp only [Except.map]
        split
        · split <;> rfl
        · rfl

/-- Whether the figure shows that nothing is ingested. -/
def Inactive (now : Int) (f : CodedFigure) (s : IngestionStats) : Prop :=
  (f.shown now s).map Shown.number = .ok Sentinel.inactive.code

theorem foldl_max_mem (code : Int) (codes : List Int) : codes.foldl max code ∈ code :: codes := by
  induction codes generalizing code with
  | nil => exact List.mem_singleton_self _
  | cons c codes ih =>
    rcases List.mem_cons.mp (ih (max code c)) with here | there
    · rw [List.foldl_cons, here]
      rcases le_total code c with h | h
      · rw [max_eq_right h]
        simp
      · rw [max_eq_left h]
        simp
    · exact List.mem_cons_of_mem _ (List.mem_cons_of_mem _ there)

/-- A figure shows that nothing is ingested while no partition reports, and only then, as long as no
report carries the code for it. -/
theorem inactive_iff {now : Int} {f : CodedFigure} {s : IngestionStats}
    (clear : f = .mergeErrorCode →
      ∀ r ∈ s.partitions.values, r.mergeErrorCode ≠ Sentinel.inactive.code) :
    f.Inactive now s ↔ s.partitions.isEmpty = true := by
  -- What counts something is no negative number, so only the merge code can be mistaken.
  have counted : ∀ n : Nat, (n : Int) ≠ Sentinel.inactive.code := by
    intro n same
    rw [show Sentinel.inactive.code = -2 from rfl] at same
    omega
  cases f with
  | realTimeLag =>
    simp only [Inactive, shown]
    split
    · simp [*, Except.map, Shown.number]
    · split
      · simp [*, Except.map, Shown.number, Sentinel.code]
      · cases Word.sum (s.hybridReports.map fun r => r.lag.realTime.getD 0) with
        | error e => simp [*, Except.map]
        | ok n => exact iff_of_false (fun h => counted n (Except.ok.inj h)) ‹_›
  | awaitingBufferReplay =>
    simp only [Inactive, shown]
    split
    · simp [*, Except.map, Shown.number]
    · exact iff_of_false (fun h => counted _ (Except.ok.inj h)) ‹_›
  | mergeErrorCode =>
    have empty : s.partitions.isEmpty = true ↔ s.partitions.values.map (·.mergeErrorCode) = [] := by
      rw [SortedMap.isEmpty_iff, List.map_eq_nil_iff]
    rw [empty]
    simp only [Inactive, shown]
    cases codes : s.partitions.values.map (·.mergeErrorCode) with
    | nil => simp [Except.map, Shown.number]
    | cons code rest =>
      have among := foldl_max_mem code rest
      rw [← codes] at among
      obtain ⟨r, hr, same⟩ := List.mem_map.mp among
      refine iff_of_false (fun h => clear rfl r hr ?_) (List.cons_ne_nil code rest)
      exact same.trans (Except.ok.inj h)
  | leaderStalled =>
    simp only [Inactive, shown]
    split
    · simp [*, Except.map, Shown.number]
    · cases s.leaderLag with
      | error e => simp [*, Except.map]
      | ok lag =>
        simp only [Except.map, Shown.number, Sentinel.code]
        split
        · split <;> simp [*]
        · simp [*]

end CodedFigure

namespace IngestionStats

@[simp]
theorem partitions_ensureRegions (s : IngestionStats) (now : Int) (profile : ReplicaProfile) :
    (s.ensureRegions now profile).partitions = s.partitions :=
  congrArg Ledger.partitions (s.ledger_ensureRegions now profile)

@[simp]
theorem partitions_start (now : Int) (profile : ReplicaProfile) :
    (start now profile).partitions = SortedMap.empty :=
  congrArg Ledger.partitions (ledger_start now profile)

@[simp]
theorem partitions_record (s : IngestionStats) (now : Int) (e : Event) :
    (s.record now e).partitions = s.partitions := congrArg Ledger.partitions (s.ledger_record now e)

end IngestionStats

namespace Aggregator

variable {a : Aggregator}

/-! ## Which reports a scope has -/

/-- The report of a partition in a scope. -/
def reported? (a : Aggregator) (key : ScopeKey) (pk : PartitionKey) : Option PartitionReport :=
  (a.registry.payload? key).bind (·.partitions.find? pk)

/-- What a call makes of the report of a partition in a scope, which has statistics or not. -/
def Call.revise (key : ScopeKey) (pk : PartitionKey) (there : Bool) (old : Option PartitionReport) :
    Call → Option PartitionReport
  | .report store version partition latest =>
    if Registry.Covers store version key ∧ pk = ⟨version, partition⟩ ∧ there then some latest
    else old
  | .removePartition store version partition =>
    if Registry.Covers store version key ∧ pk = ⟨version, partition⟩ then none else old
  | .removeVersion store version =>
    if key = ⟨store, .version version⟩ ∨ key = ⟨store, .total⟩ ∧ pk.version = version then none
    else old
  | .removeStore store => if key.store = store then none else old
  | _ => old

theorem Aligned.reported?_after (aligned : a.Aligned) (c : Call) (key : ScopeKey)
    (pk : PartitionKey) :
    (a.after c).reported? key pk =
      c.revise key pk (a.registry.payload? key).isSome (a.reported? key pk) := by
  rw [reported?, reported?, aligned.payload?_after]
  -- From here on it matters only whether the key has statistics, not how the registry holds them.
  generalize a.registry.payload? key = s
  cases c with
  | register now store version profile =>
    simp only [Call.effect, Call.revise]
    split
    · cases s <;> simp
    · rfl
  | record now store version e =>
    simp only [Call.effect, Call.revise]
    split
    · cases s <;> simp
    · rfl
  | report store version partition latest =>
    simp only [Call.effect, Call.revise]
    by_cases covers : Registry.Covers store version key
    · cases s with
      | none => simp [covers]
      | some s =>
        by_cases hp : pk = ⟨version, partition⟩
        · simp [covers, hp, IngestionStats.report]
        · simp [covers, hp, IngestionStats.report, SortedMap.find?_insert_of_ne]
    · simp [covers]
  | removePartition store version partition =>
    simp only [Call.effect, Call.revise]
    by_cases covers : Registry.Covers store version key
    · cases s with
      | none => simp
      | some s =>
        by_cases hp : pk = ⟨version, partition⟩
        · simp [covers, hp, IngestionStats.removePartition]
        · simp [covers, hp, IngestionStats.removePartition, SortedMap.find?_erase_of_ne]
    · simp [covers]
  | setErrored store version raised | setPushTimeout store version raised =>
    simp only [Call.effect, Call.revise]
    split
    · cases s <;> rfl
    · rfl
  | removeVersion store version =>
    have kept : ∀ s : IngestionStats, (s.removeVersion version).partitions.find? pk =
        if pk.version = version then none else s.partitions.find? pk := by
      intro s
      refine (SortedMap.find?_filter s.partitions (fun pk => pk.version != version) pk).trans ?_
      by_cases hv : pk.version = version <;> simp [hv]
    simp only [Call.effect, Call.revise]
    by_cases hv : key = ⟨store, .version version⟩
    · simp [hv]
    · by_cases ht : key = ⟨store, .total⟩
      · subst ht
        cases s with
        | none => simp
        | some s => simp [kept]
      · simp [hv, ht]
  | removeStore store =>
    simp only [Call.effect, Call.revise]
    split <;> rfl

/-! ## The total follows the versions -/

/-- The total has each report of each version, and no other. -/
structure Balanced (a : Aggregator) : Prop extends a.Aligned where
  total : ∀ store pk, a.reported? ⟨store, .total⟩ pk = a.reported? ⟨store, .version pk.version⟩ pk
  own : ∀ store version pk, (a.reported? ⟨store, .version version⟩ pk).isSome = true →
    pk.version = version

theorem balanced_create (localRegion : String) : (create localRegion).Balanced where
  toAligned := aligned_create localRegion
  total store pk := rfl
  own store version pk h := by simp [create, Registry.empty, Registry.payload?, reported?] at h

/-- A version reports only while it has statistics. -/
def Call.Allowed (a : Aggregator) : Call → Prop
  | .report store version _ _ => (a.registry.payload? ⟨store, .version version⟩).isSome = true
  | _ => True

/-- Beside the statistics of a version there are those of its store. -/
theorem Aligned.isSome_total (aligned : a.Aligned) {store : String} {version : UInt32}
    (h : (a.registry.payload? ⟨store, .version version⟩).isSome = true) :
    (a.registry.payload? ⟨store, .total⟩).isSome = true := by
  rw [aligned.registry.toNeat.isSome_payload?] at h ⊢
  exact aligned.registry.total store version h

theorem Balanced.after (balanced : a.Balanced) {c : Call} (allowed : c.Allowed a) :
    (a.after c).Balanced where
  toAligned := balanced.toAligned.after c
  total store pk := by
    rw [balanced.reported?_after, balanced.reported?_after, balanced.total store pk]
    cases c with
    | report store' version partition latest =>
      simp only [Call.revise, Registry.covers_total, Registry.covers_version]
      by_cases here : store = store' ∧ pk = ⟨version, partition⟩
      · obtain ⟨rfl, rfl⟩ := here
        simp [show (a.registry.payload? ⟨store, .version version⟩).isSome = true from allowed,
          balanced.isSome_total allowed]
      · rw [if_neg fun h => here ⟨h.1, h.2.1⟩, if_neg fun h => here ⟨h.1.1, h.2.1⟩]
    | removePartition store' version partition =>
      simp only [Call.revise, Registry.covers_total, Registry.covers_version]
      by_cases here : store = store' ∧ pk = ⟨version, partition⟩
      · obtain ⟨rfl, rfl⟩ := here
        simp
      · rw [if_neg here, if_neg fun h => here ⟨h.1.1, h.2⟩]
    | removeVersion store' version => simp [Call.revise, ScopeKey.mk.injEq]
    | _ => rfl
  own store version pk h := by
    rw [balanced.reported?_after] at h
    cases c with
    | report store' version' partition latest =>
      simp only [Call.revise, Registry.covers_version] at h
      split at h
      · rename_i here
        rw [here.1.2, here.2.1]
      · exact balanced.own store version pk h
    | removePartition store' version' partition | removeVersion store' version'
    | removeStore store' =>
      simp only [Call.revise] at h
      split at h
      · cases h
      · exact balanced.own store version pk h
    | _ => exact balanced.own store version pk h

/-! ## Which versions are registered -/

/-- What a call says of whether a version is registered, if it says anything. -/
def Call.settles (store : String) (version : UInt32) : Call → Option Bool
  | .register _ store' version' _ => if store = store' ∧ version = version' then some true else none
  | .removeVersion store' version' =>
    if store = store' ∧ version = version' then some false else none
  | .removeStore store' => if store = store' then some false else none
  | _ => none

/-- Whether a version is registered after some calls. -/
def registered (store : String) (version : UInt32) (calls : List Call) : Bool :=
  calls.foldl (fun before c => (c.settles store version).getD before) false

/-- Whether versions report only while they are registered. -/
def Admissible (calls : List Call) : Prop :=
  ∀ earlier later store version partition latest,
    calls = earlier ++ .report store version partition latest :: later →
      registered store version earlier = true

theorem admissible_nil : Admissible [] := by
  rintro earlier later store version partition latest split
  simp at split

theorem admissible_append (calls : List Call) (c : Call) : Admissible (calls ++ [c]) ↔
    Admissible calls ∧ ∀ store version partition latest,
      c = .report store version partition latest →
      registered store version calls = true := by
  refine ⟨fun h => ⟨fun front back store version partition latest split => ?_, ?_⟩, fun h => ?_⟩
  · exact h front (back ++ [c]) store version partition latest (by rw [split]; simp)
  · rintro store version partition latest rfl
    exact h calls [] store version partition latest rfl
  · intro front back store version partition latest split
    rcases List.eq_nil_or_concat back with rfl | ⟨back, last, rfl⟩
    · obtain ⟨rfl, same⟩ := List.append_inj' split rfl
      exact h.2 store version partition latest (List.singleton_inj.mp same)
    · have same :
          calls ++ [c] = (front ++ .report store version partition latest :: back) ++ [last] := by
        rw [split]
        simp
      exact h.1 front back store version partition latest (List.append_inj' same rfl).1

/-- The versions of a store that have statistics. -/
def versions (a : Aggregator) (store : String) : List (UInt32 × IngestionStats) :=
  a.registry.held.keys.filterMap fun key =>
    match key.scope with
    | .version n =>
      if key.store = store then (a.registry.payload? key).map fun s => (n, s) else none
    | .total => none

theorem registered_append (store : String) (version : UInt32) (calls : List Call) (c : Call) :
    registered store version (calls ++ [c]) =
      (c.settles store version).getD (registered store version calls) := by
  rw [registered, List.foldl_append]
  rfl

theorem Aligned.isSome_after (aligned : a.Aligned) (c : Call) (store : String) (version : UInt32) :
    ((a.after c).registry.payload? ⟨store, .version version⟩).isSome =
      (c.settles store version).getD (a.registry.payload? ⟨store, .version version⟩).isSome := by
  rw [aligned.payload?_after]
  cases c with
  | register now store' version' profile =>
    simp only [Call.effect, Call.settles, Registry.covers_version]
    split <;> simp
  | removeVersion store' version' =>
    simp only [Call.effect, Call.settles, ScopeKey.mk.injEq, Scope.version.injEq]
    split <;> simp
  | _ =>
    simp only [Call.effect, Call.settles]
    split <;> simp

/-- A version has statistics while it is registered. -/
theorem isSome_payload?_iff (localRegion : String) (calls : List Call)
    (store : String) (version : UInt32) :
    (((create localRegion).afterAll calls).registry.payload? ⟨store, .version version⟩).isSome =
      registered store version calls := by
  induction calls using List.reverseRecOn with
  | nil => rfl
  | append_singleton calls c ih =>
    have aligned := (aligned_create localRegion).afterAll calls
    rw [afterAll_append, registered_append, ← ih]
    exact aligned.isSome_after c store version

/-- The total follows the versions in every run in which versions report only while they are
registered. -/
theorem balanced_afterAll (localRegion : String) {calls : List Call}
    (admissible : Admissible calls) :
    ((create localRegion).afterAll calls).Balanced := by
  induction calls using List.reverseRecOn with
  | nil => exact balanced_create localRegion
  | append_singleton calls c ih =>
    obtain ⟨earlier, last⟩ := (admissible_append calls c).mp admissible
    have allowed : c.Allowed ((create localRegion).afterAll calls) := by
      cases c with
      | report store version partition latest =>
        exact (isSome_payload?_iff localRegion calls store version).trans
          (last store version partition latest rfl)
      | _ => trivial
    rw [afterAll_append]
    exact (ih earlier).after allowed

theorem Aligned.mem_versions (aligned : a.Aligned) {store : String} {version : UInt32}
    {s : IngestionStats} :
    (version, s) ∈ a.versions store ↔ a.registry.payload? ⟨store, .version version⟩ = some s := by
  rw [versions, List.mem_filterMap]
  refine ⟨?_, fun h => ⟨⟨store, .version version⟩, ?_, ?_⟩⟩
  · rintro ⟨⟨store', scope⟩, -, found⟩
    cases scope with
    | total => cases found
    | version n =>
      simp only at found
      split at found
      · rename_i same
        obtain ⟨s', hs, same'⟩ := Option.map_eq_some_iff.mp found
        cases same'
        exact same ▸ hs
      · cases found
  · rw [SortedMap.mem_keys]
    have there := aligned.registry.toNeat.isSome_payload? ⟨store, .version version⟩
    rw [h] at there
    exact there.symm
  · simp [h]

theorem distinct_versions (a : Aggregator) (store : String) :
    (a.versions store).Pairwise fun e e' => e.1 ≠ e'.1 := by
  refine List.Pairwise.filterMap _ ?_ a.registry.held.nodup_keys
  rintro ⟨store₁, scope₁⟩ ⟨store₂, scope₂⟩ apart e₁ found₁ e₂ found₂ same
  cases scope₁ with
  | total => cases found₁
  | version n₁ =>
    cases scope₂ with
    | total => cases found₂
    | version n₂ =>
      simp only at found₁ found₂
      split at found₁
      · split at found₂
        · rename_i here₁ here₂
          obtain ⟨_, -, rfl⟩ := Option.map_eq_some_iff.mp found₁
          obtain ⟨_, -, rfl⟩ := Option.map_eq_some_iff.mp found₂
          exact apart (by rw [here₁, here₂, show n₁ = n₂ from same])
        · cases found₂
      · cases found₁

/-! ## Figures of the total -/

theorem Balanced.find?_iff (balanced : a.Balanced) {store : String} {t : IngestionStats}
    (ht : a.registry.payload? ⟨store, .total⟩ = some t) {pk : PartitionKey}
    {report : PartitionReport} :
    t.partitions.find? pk = some report ↔
      ∃ version s, (version, s) ∈ a.versions store ∧ s.partitions.find? pk = some report := by
  have same := balanced.total store pk
  rw [reported?, ht, Option.bind_some] at same
  rw [same]
  refine ⟨fun h => ?_, ?_⟩
  · obtain ⟨s, hs, found⟩ := Option.bind_eq_some_iff.mp h
    exact ⟨pk.version, s, balanced.mem_versions.mpr hs, found⟩
  · rintro ⟨version, s, listed, found⟩
    have mine : a.reported? ⟨store, .version version⟩ pk = some report := by
      rw [reported?, balanced.mem_versions.mp listed]
      exact found
    have own := balanced.own store version pk (by rw [mine]; rfl)
    rw [own]
    exact mine

/-- The reports of the total are those of all versions, each once. -/
theorem Balanced.values_perm (balanced : a.Balanced) {store : String} {t : IngestionStats}
    (ht : a.registry.payload? ⟨store, .total⟩ = some t) :
    t.partitions.values.Perm ((a.versions store).flatMap fun e => e.2.partitions.values) := by
  have entries : t.partitions.entries.Perm ((a.versions store).flatMap fun e =>
      e.2.partitions.entries) := by
    refine (List.perm_ext_iff_of_nodup t.partitions.nodup_entries ?_).mpr fun e => ?_
    · refine List.nodup_flatMap.mpr ⟨fun e _ => e.2.partitions.nodup_entries, ?_⟩
      refine List.Pairwise.imp_of_mem ?_ (a.distinct_versions store)
      rintro ⟨v, s⟩ ⟨v', s'⟩ listed listed' apart ⟨pk, report⟩ here here'
      have owner : ∀ {v s}, (v, s) ∈ a.versions store → (pk, report) ∈ s.partitions.entries →
          pk.version = v := by
        intro v s listed here
        refine balanced.own store v pk ?_
        rw [reported?, balanced.mem_versions.mp listed, Option.bind_some,
          SortedMap.mem_entries.mp here]
        rfl
      exact apart ((owner listed here).symm.trans (owner listed' here'))
    · obtain ⟨pk, report⟩ := e
      rw [SortedMap.mem_entries, balanced.find?_iff ht, List.mem_flatMap]
      simp only [Prod.exists, SortedMap.mem_entries]
  have values := entries.map (·.2)
  rwa [List.map_flatMap] at values

/-- A lag of the total is the sum over the versions, and overflows where that does. -/
theorem Balanced.sum_eq (balanced : a.Balanced) {store : String} {t : IngestionStats}
    (ht : a.registry.payload? ⟨store, .total⟩ = some t) (f : LagFamily) :
    f.sum t = f.sumOver (a.versions store) := by
  have parts := Word.sum_mapM (fun e : UInt32 × IngestionStats => f.sum_eq e.2 ▸ Word.sum_cases _)
    (a.versions store)
  rw [LagFamily.sumOver, parts, f.sum_eq]
  refine Word.sum_congr ?_
  rw [((balanced.values_perm ht).map _).sum_eq, List.map_flatMap, List.flatMap,
    List.sum_flatten, List.map_map]
  rfl

theorem Balanced.isEmpty_iff (balanced : a.Balanced) {store : String} {t : IngestionStats}
    (ht : a.registry.payload? ⟨store, .total⟩ = some t) :
    t.partitions.isEmpty = true ↔ ∀ e ∈ a.versions store, e.2.partitions.isEmpty = true := by
  simp only [SortedMap.isEmpty_iff]
  rw [← List.flatMap_eq_nil_iff]
  exact ⟨fun h => List.perm_nil.mp (h ▸ (balanced.values_perm ht).symm),
    fun h => List.perm_nil.mp (h ▸ balanced.values_perm ht)⟩

/-- What the total of a store says of the versions that some calls leave registered. -/
structure Tallies (calls : List Call) (store : String) (a : Aggregator) : Prop where
  /-- The versions with statistics are those that are registered, each once, -/
  registered : ∀ version, registered store version calls = true ↔ ∃ s,
    (version, s) ∈ a.versions store
  distinct : (a.versions store).Pairwise fun e e' => e.1 ≠ e'.1
  held : ∀ version s, (version, s) ∈ a.versions store ↔
    a.registry.payload? ⟨store, .version version⟩ = some s
  /-- and there is a total beside them. -/
  total : a.versions store ≠ [] → ∃ t, a.registry.payload? ⟨store, .total⟩ = some t
  /-- It has the reports of all versions, -/
  union : ∀ t, a.registry.payload? ⟨store, .total⟩ = some t → ∀ pk report,
    t.partitions.find? pk = some report ↔
      ∃ version s, (version, s) ∈ a.versions store ∧ s.partitions.find? pk = some report
  /-- none of which is one of two versions. -/
  own : ∀ version s, (version, s) ∈ a.versions store → ∀ pk, s.partitions.contains pk = true →
    pk.version = version
  /-- Its lags are the sums over the versions, -/
  lags : ∀ t, a.registry.payload? ⟨store, .total⟩ = some t → ∀ f : LagFamily,
    f.figure t = (f.sumOver (a.versions store)).map Word.toFloat
  /-- and it shows that nothing is ingested if all versions do. -/
  inactive : ∀ t, a.registry.payload? ⟨store, .total⟩ = some t → ∀ now (f : CodedFigure),
    (f = .mergeErrorCode → ∀ pk report, t.partitions.find? pk = some report →
      report.mergeErrorCode ≠ Sentinel.inactive.code) →
    (f.Inactive now t ↔ ∀ e ∈ a.versions store, f.Inactive now e.2)

/-- As long as versions report only while they are registered, the total of every store tallies. -/
theorem tallies (localRegion : String) {calls : List Call} (admissible : Admissible calls)
    (store : String) :
    Tallies calls store ((create localRegion).afterAll calls) := by
  have balanced := balanced_afterAll localRegion admissible
  refine
    { registered := fun version => ?_
      distinct := distinct_versions _ store
      held := fun version s => balanced.mem_versions
      total := fun some_ => ?_
      union := fun t ht pk report => balanced.find?_iff ht
      own := fun version s listed pk there => ?_
      lags := fun t ht f => by rw [f.figure_eq, balanced.sum_eq ht]
      inactive := fun t ht now f clear => ?_ }
  · rw [← isSome_payload?_iff localRegion, Option.isSome_iff_exists]
    exact exists_congr fun s => balanced.mem_versions.symm
  · obtain ⟨⟨version, s⟩, listed⟩ := List.exists_mem_of_ne_nil _ some_
    have there := balanced.mem_versions.mp listed
    exact Option.isSome_iff_exists.mp (balanced.isSome_total (by rw [there]; rfl))
  · refine balanced.own store version pk ?_
    rw [reported?, balanced.mem_versions.mp listed]
    exact there
  · have clearTotal : f = .mergeErrorCode →
        ∀ r ∈ t.partitions.values, r.mergeErrorCode ≠ Sentinel.inactive.code := by
      intro merge r hr
      obtain ⟨pk, found⟩ := SortedMap.mem_values.mp hr
      exact clear merge pk r found
    have clearVersion : ∀ e ∈ ((create localRegion).afterAll calls).versions store,
        f = .mergeErrorCode →
        ∀ r ∈ e.2.partitions.values, r.mergeErrorCode ≠ Sentinel.inactive.code := by
      intro e listed merge r hr
      obtain ⟨pk, found⟩ := SortedMap.mem_values.mp hr
      exact clear merge pk r ((balanced.find?_iff ht).mpr ⟨e.1, e.2, listed, found⟩)
    rw [CodedFigure.inactive_iff clearTotal, balanced.isEmpty_iff ht]
    exact forall₂_congr fun e listed => (CodedFigure.inactive_iff (clearVersion e listed)).symm

/-- Two versions register, with neither real-time topics nor regions. -/
def twoVersions : List Call :=
  [.register 0 "s" 1 ⟨false, false, SortedMap.empty⟩] ++
    [.register 0 "s" 2 ⟨false, false, SortedMap.empty⟩]

/-- Each of two versions reports a code. -/
def twoReports (code code' : Int) : List Call :=
  twoVersions ++ [.report "s" 1 0 ⟨.initial .leader, code⟩] ++
    [.report "s" 2 0 ⟨.initial .leader, code'⟩]

theorem admissible_twoReports (code code' : Int) : Admissible (twoReports code code') := by
  have registering : Admissible twoVersions :=
    (admissible_append _ _).mpr ⟨(admissible_append [] _).mpr ⟨admissible_nil, by simp⟩, by simp⟩
  refine (admissible_append _ _).mpr ⟨(admissible_append _ _).mpr ⟨registering, ?_⟩, ?_⟩
  · rintro _ _ _ _ ⟨⟩
    rfl
  · rintro _ _ _ _ ⟨⟩
    rfl

theorem twoReports_tallies : Admissible (twoReports 0 3) ∧
    Tallies (twoReports 0 3) "s" ((create "dc0").afterAll (twoReports 0 3)) :=
  ⟨admissible_twoReports 0 3, tallies "dc0" (admissible_twoReports 0 3) "s"⟩

/-- A report may carry the code for idleness. Where another version reports a smaller one the total
shows idleness, and that version does not. -/
theorem total_inactive_of_code : Admissible (twoReports (-2) (-3)) ∧ ∃ t s,
    ((create "dc0").afterAll (twoReports (-2) (-3))).registry.payload? ⟨"s", .total⟩ = some t ∧
      ((create "dc0").afterAll (twoReports (-2) (-3))).registry.payload?
        ⟨"s", .version 2⟩ = some s ∧
      CodedFigure.mergeErrorCode.Inactive 0 t ∧ ¬ CodedFigure.mergeErrorCode.Inactive 0 s := by
  refine ⟨admissible_twoReports _ _, _, _, rfl, rfl, rfl, fun inactive => ?_⟩
  exact absurd (Except.ok.inj inactive) (by decide)

end Aggregator

end StoreFeed.Stats
