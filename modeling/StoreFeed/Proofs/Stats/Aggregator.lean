import Mathlib.Tactic.FinCases
import StoreFeed.Proofs.Stats.Reporters
import StoreFeed.Stats.Aggregator

/-!
# Flags and reports in the statistics of a host

Of all that is recorded for a version and its store only two things depend on what replicas are: the
error flag, and which partitions have a report. `Aggregator.ledger?` is the account of these, and
there is one equation for each way in which the statistics change. The last part says what the
gauges read.
-/

namespace StoreFeed.Stats

/-- The error flag of a scope and its reports. -/
structure Ledger where
  errored : Bool
  partitions : SortedMap PartitionKey PartitionReport

namespace IngestionStats

/-- What the statistics of a scope say of its replicas. -/
def ledger (s : IngestionStats) : Ledger := ⟨s.errored, s.partitions⟩

@[simp]
theorem ledger_record (s : IngestionStats) (now : Int) (e : Event) :
    (s.record now e).ledger = s.ledger := by
  cases e with
  | recordsConsumedAs role | bytesConsumedAs role => cases role <;> rfl
  | stepTook step => cases step <;> rfl
  | _ => rfl

@[simp]
theorem ledger_ensureRegions (s : IngestionStats) (now : Int) (profile : ReplicaProfile) :
    (s.ensureRegions now profile).ledger = s.ledger := by
  unfold ensureRegions
  split <;> rfl

@[simp]
theorem ledger_start (now : Int) (profile : ReplicaProfile) :
    (start now profile).ledger = ⟨false, SortedMap.empty⟩ := ledger_ensureRegions _ _ _

end IngestionStats

namespace Reporter

/-- The gauges of every scope are there, and under the names of hybrid versions no others. -/
structure Shows (r : Reporter IngestionStats) : Prop where
  base : ∀ name g, gaugeOf? IngestionStats.baseGauges name = some g → r.gauges.find? name = some g
  hybrid : ∀ e ∈ IngestionStats.hybridGauges,
    r.gauges.find? e.1 = none ∨ r.gauges.find? e.1 = gaugeOf? IngestionStats.hybridGauges e.1
  /-- Once the gauges of hybrid versions were registered they are there. -/
  complete : r.groups.contains Aggregator.hybridGroup = true →
    ∀ e ∈ IngestionStats.hybridGauges, (r.gauges.find? e.1).isSome = true

/-- It does not matter which payload is read. -/
theorem Shows.withBound {r : Reporter IngestionStats} (h : r.Shows) (bound : Option PayloadId) :
    { r with bound }.Shows := ⟨h.base, h.hybrid, h.complete⟩

theorem shows_base : (Reporter.empty.registerAll IngestionStats.baseGauges).Shows where
  base name g h := by
    rw [find?_registerAll, h]
    rfl
  hybrid e he := by
    refine .inl ?_
    rw [find?_registerAll]
    fin_cases he <;> rfl
  complete h := by
    rw [registerAll_eq] at h
    cases h

/-- Of further gauges none takes a name of hybrid versions, unless it is theirs. -/
theorem Shows.registerAll {r : Reporter IngestionStats} (h : r.Shows)
    {gauges : List (String × Gauge IngestionStats)}
    (own : ∀ e ∈ IngestionStats.hybridGauges, gaugeOf? gauges e.1 = none ∨
      gaugeOf? gauges e.1 = gaugeOf? IngestionStats.hybridGauges e.1) :
        (r.registerAll gauges).Shows where
  base name g hg := by
    rw [find?_registerAll, h.base name g hg]
    rfl
  hybrid e he := by
    rw [find?_registerAll]
    rcases h.hybrid e he with missing | there
    · rw [missing, Option.none_or]
      exact own e he
    · obtain ⟨g, hg⟩ := Option.isSome_iff_exists.mp (isSome_gaugeOf? he)
      rw [there, hg]
      exact .inr rfl
  complete known e he := by
    rw [registerAll_eq] at known
    rw [find?_registerAll, Option.isSome_or, h.complete known e he]
    rfl

/-- The group of hybrid versions has their gauges, and no other group has any of their names. -/
theorem Shows.registerOnce {r : Reporter IngestionStats} (h : r.Shows) (group : String)
    {gauges : List (String × Gauge IngestionStats)}
    (own : group = Aggregator.hybridGroup ∧ gauges = IngestionStats.hybridGauges ∨
      group ≠ Aggregator.hybridGroup ∧
        ∀ e ∈ IngestionStats.hybridGauges, gaugeOf? gauges e.1 = none) :
    (r.registerOnce group gauges).2.Shows := by
  unfold Reporter.registerOnce
  split
  · exact h
  · have all : (r.registerAll gauges).Shows := h.registerAll fun e he => by
      rcases own with ⟨-, rfl⟩ | ⟨-, others⟩
      · exact .inr rfl
      · exact .inl (others e he)
    have gauged : group = Aggregator.hybridGroup → ∀ e ∈ IngestionStats.hybridGauges,
        ((r.registerAll gauges).gauges.find? e.1).isSome = true := by
      intro same e he
      have mine := (own.resolve_right fun other => other.1 same).2
      rw [find?_registerAll, Option.isSome_or, mine, isSome_gaugeOf? he, Bool.or_true]
    refine ⟨all.base, all.hybrid, fun known e he => ?_⟩
    rcases SortedMap.contains_insert.mp known with same | before
    · exact gauged same.symm e he
    · exact all.complete before e he

/-- Gauges and groups are only added. -/
structure Extends (r r' : Reporter IngestionStats) : Prop where
  bound : r'.bound = r.bound
  gauges : ∀ name, (r.gauges.find? name).isSome = true → (r'.gauges.find? name).isSome = true
  groups : ∀ group, r.groups.contains group = true → r'.groups.contains group = true

theorem Extends.refl (r : Reporter IngestionStats) : r.Extends r :=
  ⟨rfl, fun _ h => h, fun _ h => h⟩

theorem Extends.trans {r r' r'' : Reporter IngestionStats} (h : r.Extends r')
    (h' : r'.Extends r'') :
    r.Extends r'' :=
  ⟨h'.bound.trans h.bound, fun name hn => h'.gauges name (h.gauges name hn),
    fun group hg => h'.groups group (h.groups group hg)⟩

theorem extends_registerOnce (r : Reporter IngestionStats) (group : String)
    (gauges : List (String × Gauge IngestionStats)) :
    r.Extends (r.registerOnce group gauges).2 := by
  unfold registerOnce
  split
  · exact .refl r
  · refine ⟨?_, fun name h => ?_, fun group' h => SortedMap.contains_insert.mpr (.inr ?_)⟩
    · show (r.registerAll gauges).bound = r.bound
      rw [registerAll_eq]
    · show ((r.registerAll gauges).gauges.find? name).isSome = true
      rw [find?_registerAll, Option.isSome_or, h]
      rfl
    · rw [registerAll_eq]
      exact h

end Reporter

/-- No figure of a region has a name of hybrid versions. -/
theorem IngestionStats.gaugeOf?_regionGauges (stem : String) (region : RegionId) :
    ∀ e ∈ IngestionStats.hybridGauges, gaugeOf?
      (IngestionStats.regionGauges stem region) e.1 = none := by
  have ends : ∀ e ∈ IngestionStats.hybridGauges,
      ∀ suffix ∈ ["_rt_lag", "_rt_bytes_consumed", "_rt_records_consumed"],
        stem ++ suffix ≠ e.1 := by
    intro e he suffix hs same
    have tail : suffix.toList <:+ e.1.toList := by
      rw [← same, String.toList_append]
      exact List.suffix_append _ _
    fin_cases he <;> fin_cases hs <;> exact absurd tail (by decide)
  intro e he
  unfold gaugeOf?
  rw [Option.map_eq_none_iff, List.find?_eq_none]
  intro g hg same
  have same : g.1 = e.1 := by simpa using same
  fin_cases hg
  · exact ends e he "_rt_lag" (by simp) same
  · exact ends e he "_rt_bytes_consumed" (by simp) same
  · exact ends e he "_rt_records_consumed" (by simp) same

namespace Aggregator

theorem regionGroup_ne (region : RegionId) : regionGroup region ≠ hybridGroup := by
  intro same
  have first := congrArg (fun s => s.toList.head?) same
  simp [regionGroup, hybridGroup, String.toList_append] at first

/-- What is registered with one profile after the other. -/
theorem extend_induction {P : Reporter IngestionStats → Prop} (localRegion : String)
    (profile : ReplicaProfile) {r : Reporter IngestionStats} (init : profile.hybrid = false → P r)
    (hybrid : profile.hybrid = true → P (r.registerOnce hybridGroup IngestionStats.hybridGauges).2)
    (region : ∀ r region name, P r → P (r.registerOnce (regionGroup region)
      (IngestionStats.regionGauges (regionStem localRegion name) region)).2) :
    P (extend localRegion profile r) := by
  have regions : ∀ (regions : List (RegionId × String)) (r : Reporter IngestionStats), P r →
      P (regions.foldl (fun r e => (r.registerOnce (regionGroup e.1)
        (IngestionStats.regionGauges (regionStem localRegion e.2) e.1)).2) r) := by
    intro regions
    induction regions with
    | nil => exact fun _ h => h
    | cons e rest ih => exact fun r h => ih _ (region r e.1 e.2 h)
  have first : P (if profile.hybrid then (r.registerOnce hybridGroup IngestionStats.hybridGauges).2
      else r) := by
    split
    · exact hybrid ‹_›
    · rename_i plain
      exact init (Bool.eq_false_iff.mpr plain)
  unfold extend
  dsimp only
  split
  · exact regions _ _ first
  · exact first

theorem extends_extend (localRegion : String) (profile : ReplicaProfile)
    (r : Reporter IngestionStats) :
    r.Extends (extend localRegion profile r) :=
  extend_induction localRegion profile (fun _ => .refl r) (fun _ => r.extends_registerOnce _ _)
    fun r' _ _ h => h.trans (r'.extends_registerOnce _ _)

theorem shows_extend {r : Reporter IngestionStats} (h : r.Shows) (localRegion : String)
    (profile : ReplicaProfile) : (extend localRegion profile r).Shows :=
  extend_induction localRegion profile (fun _ => h) (fun _ => h.registerOnce _ (.inl ⟨rfl, rfl⟩))
    fun _ region _ h => h.registerOnce _
      (.inr ⟨regionGroup_ne region, IngestionStats.gaugeOf?_regionGauges _ region⟩)

/-- With a hybrid profile the group of hybrid versions gets known. -/
theorem contains_extend (localRegion : String) {profile : ReplicaProfile}
    (hybrid : profile.hybrid = true) (r : Reporter IngestionStats) :
    (extend localRegion profile r).groups.contains hybridGroup = true :=
  extend_induction (P := fun r => r.groups.contains hybridGroup = true) localRegion profile
    (fun plain => by
      rw [hybrid] at plain
      cases plain)
    (fun _ => r.contains_registerOnce _ _) fun r _ _ h => (r.extends_registerOnce _ _).groups _ h

/-- The statistics of a host that removes no version and no store. -/
structure Sound (a : Aggregator) : Prop where
  registry : a.registry.Sound
  base : a.registry.baseGauges = IngestionStats.baseGauges
  shows : ∀ key reporter, a.registry.reporter? key = some reporter → reporter.Shows

/-- What the statistics of a host say of the replicas of a scope. -/
def ledger? (a : Aggregator) (key : ScopeKey) : Option Ledger :=
  (a.registry.payload? key).map IngestionStats.ledger

/-- The error flag of a scope, once there are statistics of it. -/
def flag? (a : Aggregator) (key : ScopeKey) : Option Bool := (a.ledger? key).map Ledger.errored

/-- Whether a scope has a report of a partition. -/
def Holds (a : Aggregator) (key : ScopeKey) (pk : PartitionKey) : Prop :=
  ∃ l, a.ledger? key = some l ∧ l.partitions.contains pk = true

/-- Whether a partition of a version reports under a name in a scope. -/
def Owns (store : String) (version partition : UInt32) (key : ScopeKey)
    (pk : PartitionKey) : Prop :=
  Registry.Covers store version key ∧ pk = ⟨version, partition⟩

/-- Whether a scope has a gauge of a name. -/
def Offers (a : Aggregator) (key : ScopeKey) (name : String) : Prop :=
  ∃ r, a.registry.reporter? key = some r ∧ (r.gauges.find? name).isSome = true

variable {a : Aggregator}

theorem flag?_congr {a' : Aggregator} {key : ScopeKey} (h : a'.ledger? key = a.ledger? key) :
    a'.flag? key = a.flag? key := congrArg _ h

theorem holds_congr {a' : Aggregator} {key : ScopeKey} {pk : PartitionKey}
    (h : a'.ledger? key = a.ledger? key) : a'.Holds key pk ↔ a.Holds key pk := by
  unfold Holds
  rw [h]

theorem offers_setErrored (store : String) (version : UInt32) (raised : Bool)
    (key : ScopeKey) (name : String) :
    (a.setErrored store version raised).Offers key name ↔ a.Offers key name := by
  unfold Offers setErrored modify
  rw [Registry.reporter?_modifyHeld]

theorem sound_create (localRegion : String) : (create localRegion).Sound where
  registry := Registry.sound_empty _
  base := rfl
  shows key reporter h := by simp [create, Registry.empty, Registry.reporter?] at h

theorem ledger?_create (localRegion : String) (key : ScopeKey) :
    (create localRegion).ledger? key = none := by
  simp [ledger?, create, Registry.empty, Registry.payload?]

/-! ## Registering a version -/

/-- What a registration does to a registry, one thing after the other. -/
theorem registry_register (a : Aggregator) (now : Int) (store : String) (version : UInt32)
    (profile : ReplicaProfile) : (a.register now store version profile).registry =
      (((a.registry.getOrCreate store version
        (IngestionStats.start now profile)).withBoth store version
        (·.ensureRegions now profile)).modifyReporter ⟨store, .version version⟩
          (extend a.localRegion profile)).modifyReporter ⟨store, .total⟩
            (extend a.localRegion profile) :=
  rfl

/-- What reporters of a registered version were, before they got further gauges. -/
theorem reporter?_register (neat : a.registry.Neat)
    (base : a.registry.baseGauges = IngestionStats.baseGauges) (now : Int)
    (store : String) (version : UInt32) (profile : ReplicaProfile) (key : ScopeKey) :
    (Registry.Covers store version key →
      ∃ bound, (a.register now store version profile).registry.reporter? key =
        some (extend a.localRegion profile { (a.registry.reporter? key).getD
          (Reporter.empty.registerAll IngestionStats.baseGauges) with bound })) ∧
    (¬ Registry.Covers store version key →
      (a.register now store version profile).registry.reporter? key =
        a.registry.reporter? key) := by
  obtain ⟨-, bound, same⟩ :=
    neat.getOrCreate store version (IngestionStats.start now profile)
  have extended : (a.register now store version profile).registry.reporter? key =
      let created := a.registry.getOrCreate store version (IngestionStats.start now profile)
      if Registry.Covers store version key then
        (created.reporter? key).map (extend a.localRegion profile)
      else created.reporter? key := by
    rw [registry_register, Registry.reporter?_modifyReporter, Registry.reporter?_modifyReporter,
      Registry.reporter?_withBoth]
    unfold Registry.Covers
    by_cases ht : key = ⟨store, .total⟩
    · subst ht
      simp
    · simp [ht]
  rw [base] at bound
  refine ⟨fun covers => ?_, fun other => ?_⟩
  · obtain ⟨id, -, reporter⟩ := bound key covers
    rw [extended, if_pos covers, reporter]
    exact ⟨some id, rfl⟩
  · rw [extended, if_neg other]
    exact (same key other).2

namespace Sound

theorem modifyHeld (sound : a.Sound) (key : ScopeKey) (f : IngestionStats → IngestionStats) :
    (a.modify (·.modifyHeld key f)).Sound where
  registry := sound.registry.modifyHeld key f
  base := (Registry.baseGauges_modifyHeld _ _ _).trans sound.base
  shows key' reporter h := by
    unfold Aggregator.modify at h
    rw [Registry.reporter?_modifyHeld] at h
    exact sound.shows key' reporter h

theorem withBoth (sound : a.Sound) (store : String) (version : UInt32)
    (f : IngestionStats → IngestionStats) : (a.modify (·.withBoth store version f)).Sound :=
  (sound.modifyHeld ⟨store, .total⟩ f).modifyHeld ⟨store, .version version⟩ f

theorem ledger?_modifyHeld (sound : a.Sound) {f : IngestionStats → IngestionStats}
    {g : Ledger → Ledger} (h : ∀ s, (f s).ledger = g s.ledger) (key key' : ScopeKey) :
    (a.modify (·.modifyHeld key f)).ledger? key' =
      if key' = key then (a.ledger? key').map g else a.ledger? key' := by
  unfold ledger? Aggregator.modify
  rw [sound.registry.toNeat.payload?_modifyHeld]
  split
  · cases a.registry.payload? key' with
    | none => rfl
    | some s => exact congrArg some (h s)
  · rfl

theorem ledger?_withBoth (sound : a.Sound) {f : IngestionStats → IngestionStats}
    {g : Ledger → Ledger}
    (h : ∀ s, (f s).ledger = g s.ledger) (store : String) (version : UInt32) (key : ScopeKey) :
    (a.modify (·.withBoth store version f)).ledger? key =
      if Registry.Covers store version key then (a.ledger? key).map g else a.ledger? key := by
  unfold ledger? Aggregator.modify
  rw [sound.registry.toNeat.payload?_withBoth]
  split
  · cases a.registry.payload? key with
    | none => rfl
    | some s => exact congrArg some (h s)
  · rfl

/-! ## What changes the account -/

/-- What is recorded leaves the account as it is. -/
theorem ledger?_record (sound : a.Sound) (now : Int) (store : String) (version : UInt32) (e : Event)
    (key : ScopeKey) : (a.record now store version e).ledger? key = a.ledger? key := by
  have both := sound.ledger?_withBoth (g := id) (fun s => s.ledger_record now e) store version key
  refine both.trans ?_
  split
  · exact congrFun Option.map_id _
  · rfl

theorem ledger?_setPushTimeout (sound : a.Sound) (store : String) (version : UInt32) (raised : Bool)
    (key : ScopeKey) : (a.setPushTimeout store version raised).ledger? key = a.ledger? key := by
  refine (sound.ledger?_modifyHeld (g := id) (f := fun s => { s with pushTimeout := raised })
    (fun _ => rfl) _ key).trans ?_
  split
  · exact congrFun Option.map_id _
  · rfl

theorem ledger?_setErrored (sound : a.Sound) (store : String) (version : UInt32) (raised : Bool)
    (key : ScopeKey) : (a.setErrored store version raised).ledger? key =
      if key = ⟨store, .version version⟩ then
        (a.ledger? key).map fun l => { l with errored := raised }
      else a.ledger? key :=
  sound.ledger?_modifyHeld (fun _ => rfl) _ key

theorem ledger?_report (sound : a.Sound) (store : String) (version partition : UInt32)
    (report : PartitionReport) (key : ScopeKey) :
    (a.report store version partition report).ledger? key =
      if Registry.Covers store version key then
        (a.ledger? key).map fun l =>
          { l with partitions := l.partitions.insert ⟨version, partition⟩ report }
      else a.ledger? key :=
  sound.ledger?_withBoth (fun _ => rfl) store version key

theorem ledger?_removePartition (sound : a.Sound) (store : String) (version partition : UInt32)
    (key : ScopeKey) : (a.removePartition store version partition).ledger? key =
      if Registry.Covers store version key then
        (a.ledger? key).map fun l =>
        { l with partitions := l.partitions.erase ⟨version, partition⟩ }
      else a.ledger? key :=
  sound.ledger?_withBoth (fun _ => rfl) store version key

/-- A version that is registered keeps its account, or starts with an empty one. -/
theorem ledger?_register (sound : a.Sound) (now : Int) (store : String) (version : UInt32)
    (profile : ReplicaProfile) (key : ScopeKey) :
    (a.register now store version profile).ledger? key =
      if Registry.Covers store version key then
        some ((a.ledger? key).getD ⟨false, SortedMap.empty⟩)
      else a.ledger? key := by
  have created := sound.registry.getOrCreate store version (IngestionStats.start now profile)
  unfold ledger?
  rw [registry_register, Registry.payload?_modifyReporter, Registry.payload?_modifyReporter,
    created.toNeat.payload?_withBoth, sound.registry.toNeat.payload?_getOrCreate]
  split
  · cases a.registry.payload? key <;> simp
  · rfl

theorem flag?_setErrored (sound : a.Sound) (store : String) (version : UInt32) (raised : Bool)
    (key : ScopeKey) : (a.setErrored store version raised).flag? key =
      if key = ⟨store, .version version⟩ then (a.flag? key).map fun _ =>
        raised else a.flag? key := by
  unfold flag?
  rw [sound.ledger?_setErrored]
  split
  · cases a.ledger? key <;> rfl
  · rfl

theorem holds_setErrored (sound : a.Sound) (store : String) (version : UInt32) (raised : Bool)
    (key : ScopeKey) (pk : PartitionKey) :
    (a.setErrored store version raised).Holds key pk ↔ a.Holds key pk := by
  unfold Holds
  rw [sound.ledger?_setErrored]
  split
  · cases a.ledger? key <;> simp
  · rfl

theorem flag?_report (sound : a.Sound) (store : String) (version partition : UInt32)
    (report : PartitionReport) (key : ScopeKey) :
    (a.report store version partition report).flag? key = a.flag? key := by
  unfold flag?
  rw [sound.ledger?_report]
  split
  · cases a.ledger? key <;> rfl
  · rfl

/-- A report adds one of its own partition. -/
theorem holds_report (sound : a.Sound) (store : String) (version partition : UInt32)
    (report : PartitionReport) {key : ScopeKey} {pk : PartitionKey}
    (h : (a.report store version partition report).Holds key pk) :
    a.Holds key pk ∨ Owns store version partition key pk := by
  obtain ⟨l, hl, hpk⟩ := h
  rw [sound.ledger?_report] at hl
  split at hl
  · rename_i covers
    obtain ⟨old, hold, rfl⟩ := Option.map_eq_some_iff.mp hl
    rcases SortedMap.contains_insert.mp hpk with own | before
    · exact .inr ⟨covers, own⟩
    · exact .inl ⟨old, hold, before⟩
  · exact .inl ⟨l, hl, hpk⟩

theorem flag?_removePartition (sound : a.Sound) (store : String) (version partition : UInt32)
    (key : ScopeKey) : (a.removePartition store version partition).flag? key = a.flag? key := by
  unfold flag?
  rw [sound.ledger?_removePartition]
  split
  · cases a.ledger? key <;> rfl
  · rfl

/-- A partition that is removed has no report, and the others keep theirs. -/
theorem holds_removePartition (sound : a.Sound) (store : String) (version partition : UInt32)
    (key : ScopeKey) (pk : PartitionKey) :
    (a.removePartition store version partition).Holds key pk ↔
      a.Holds key pk ∧ ¬ Owns store version partition key pk := by
  unfold Holds Owns
  rw [sound.ledger?_removePartition]
  split
  · rename_i covers
    cases a.ledger? key with
    | none => simp
    | some l => simp [covers, SortedMap.contains_erase, and_comm]
  · rename_i other
    simp [other]

theorem flag?_register (sound : a.Sound) (now : Int) (store : String) (version : UInt32)
    (profile : ReplicaProfile) (key : ScopeKey) : (a.register now store version profile).flag? key =
      if Registry.Covers store version key then some ((a.flag? key).getD false)
      else a.flag? key := by
  unfold flag?
  rw [sound.ledger?_register]
  split
  · cases a.ledger? key <;> rfl
  · rfl

theorem holds_register (sound : a.Sound) (now : Int) (store : String) (version : UInt32)
    (profile : ReplicaProfile) (key : ScopeKey) (pk : PartitionKey) :
    (a.register now store version profile).Holds key pk ↔ a.Holds key pk := by
  unfold Holds
  rw [sound.ledger?_register]
  split
  · cases a.ledger? key with
    | none => simp [SortedMap.contains]
    | some l => simp
  · rfl

theorem register (sound : a.Sound) (now : Int) (store : String) (version : UInt32)
    (profile : ReplicaProfile) : (a.register now store version profile).Sound where
  registry := by
    rw [registry_register]
    have kept : ∀ r, (extend a.localRegion profile r).bound = r.bound := fun r =>
      (extends_extend a.localRegion profile r).bound
    have created := sound.registry.getOrCreate store version (IngestionStats.start now profile)
    have extended := (created.withBoth store version (·.ensureRegions now profile)).modifyReporter
      ⟨store, .version version⟩ kept
    exact extended.modifyReporter ⟨store, .total⟩ kept
  base := by
    rw [registry_register, Registry.baseGauges_modifyReporter, Registry.baseGauges_modifyReporter,
      Registry.baseGauges_withBoth, Registry.baseGauges_getOrCreate]
    exact sound.base
  shows key reporter h := by
    obtain ⟨bound, same⟩ := reporter?_register sound.registry.toNeat sound.base now
      store version profile key
    by_cases covers : Registry.Covers store version key
    · obtain ⟨id, hr⟩ := bound covers
      have was : ((a.registry.reporter? key).getD
          (Reporter.empty.registerAll IngestionStats.baseGauges)).Shows := by
        cases old : a.registry.reporter? key with
        | none =>
          rw [Option.getD_none]
          exact Reporter.shows_base
        | some r =>
          rw [Option.getD_some]
          exact sound.shows key r old
      rw [← Option.some.inj (hr.symm.trans h)]
      exact shows_extend (was.withBound id) _ _
    · exact sound.shows key reporter ((same covers).symm.trans h)

/-- A gauge that is there stays there. -/
theorem offers_register (sound : a.Sound) (now : Int) (store : String) (version : UInt32)
    (profile : ReplicaProfile) {key : ScopeKey} {name : String} (h : a.Offers key name) :
    (a.register now store version profile).Offers key name := by
  obtain ⟨r, hr, gauge⟩ := h
  obtain ⟨bound, same⟩ := reporter?_register sound.registry.toNeat sound.base now
    store version profile key
  by_cases covers : Registry.Covers store version key
  · obtain ⟨id, hr'⟩ := bound covers
    rw [hr] at hr'
    exact ⟨_, hr', (extends_extend a.localRegion profile _).gauges name gauge⟩
  · exact ⟨r, (same covers).trans hr, gauge⟩

/-- A version that is registered has the gauges of every scope, and those of hybrid versions if it
is one; and so has its store. -/
theorem offers_registered (sound : a.Sound) (now : Int) {store : String} {version : UInt32}
    {profile : ReplicaProfile} {key : ScopeKey} (covers : Registry.Covers store version key)
    {e : String × Gauge IngestionStats} (he : e ∈ IngestionStats.baseGauges ∨
      profile.hybrid = true ∧ e ∈ IngestionStats.hybridGauges) :
    (a.register now store version profile).Offers key e.1 := by
  obtain ⟨id, hr⟩ :=
    (reporter?_register sound.registry.toNeat sound.base now store version profile key).1 covers
  have shows := (sound.register now store version profile).shows key _ hr
  refine ⟨_, hr, ?_⟩
  rcases he with base | ⟨hybrid, own⟩
  · obtain ⟨g, hg⟩ := Option.isSome_iff_exists.mp (isSome_gaugeOf? base)
    rw [shows.base e.1 g hg]
    rfl
  · exact shows.complete (contains_extend _ hybrid _) e own

/-! ## What gauges read -/

/-- Who has an account has a reporter. -/
theorem reporter_of_ledger? (sound : a.Sound) {key : ScopeKey} {s : IngestionStats}
    (h : a.registry.payload? key = some s) :
    ∃ reporter, a.registry.reporter? key = some reporter ∧ reporter.Shows := by
  cases held : a.registry.held.find? key with
  | none => simp [Registry.payload?, held] at h
  | some id =>
    obtain ⟨reporter, hr, _⟩ := sound.registry.bound key id held
    exact ⟨reporter, hr, sound.shows key reporter hr⟩

/-- A gauge of every scope reads its statistics. -/
theorem readGauge_of_base (sound : a.Sound) (now : Int) (key : ScopeKey) {name : String}
    {g : Gauge IngestionStats} (base : gaugeOf? IngestionStats.baseGauges name = some g) :
    (a.readGauge now key name).1 = (a.registry.payload? key).map fun s => (g.read now s).1 := by
  refine (sound.registry.read_fst now key name).trans ?_
  cases hs : a.registry.payload? key with
  | none => rfl
  | some s =>
    obtain ⟨reporter, hr, shows⟩ := sound.reporter_of_ledger? hs
    simp [hr, shows.base name g base]

/-- A gauge of hybrid versions is missing, or reads its statistics. -/
theorem readGauge_of_hybrid (sound : a.Sound) (now : Int) (key : ScopeKey) {name : String}
    {g : Gauge IngestionStats} (hybrid : (name, g) ∈ IngestionStats.hybridGauges)
    (own : gaugeOf? IngestionStats.hybridGauges name = some g) :
    (a.readGauge now key name).1 = none ∨
      (a.readGauge now key name).1 = (a.registry.payload? key).map fun s => (g.read now s).1 := by
  have read : (a.readGauge now key name).1 = _ := sound.registry.read_fst now key name
  rw [read]
  cases hs : a.registry.payload? key with
  | none => exact .inl rfl
  | some s =>
    obtain ⟨reporter, hr, shows⟩ := sound.reporter_of_ledger? hs
    rcases shows.hybrid _ hybrid with missing | there
    · simp [hr, missing]
    · simp [hr, there, own]

/-- The errored gauge of a version reads its flag. -/
theorem readGauge_errored (sound : a.Sound) (now : Int) (key : ScopeKey) :
    (a.readGauge now key "ingestion_task_errored_gauge").1 =
      (a.flag? key).map fun raised => .ok (if raised then 1 else 0) := by
  rw [sound.readGauge_of_base now key (g := IngestionStats.figure Sentinel.noStats.value
    fun s => .ok s.erroredFlag) rfl, flag?, ledger?, Option.map_map, Option.map_map]
  rfl

end Sound

/-- The gauges that tell whether a version is ready to be read. -/
def readinessGauges : List String :=
  ["rt_topic_offset_lag", "number_of_partitions_not_receive_SOBR",
    "write_compute_operation_failure", "leader_stalled_hybrid_ingestion"]

/-- Without reports the readiness gauges say that nothing is ingested. -/
theorem Sound.readGauge_readiness (sound : a.Sound) (now : Int) {key : ScopeKey} {name : String}
    (readiness : name ∈ readinessGauges) (offers : a.Offers key name)
    (idle : ∀ pk, ¬ a.Holds key pk) :
    (a.readGauge now key name).1 = some (.ok Sentinel.inactive.value) := by
  obtain ⟨reporter, hr, offered⟩ := offers
  obtain ⟨id, held⟩ := sound.registry.listed key reporter hr
  obtain ⟨s, -, hs⟩ := sound.registry.toNeat.payload?_of_held held
  have empty : s.partitions = SortedMap.empty := by
    have ledger : a.ledger? key = some s.ledger := by rw [ledger?, hs]; rfl
    refine SortedMap.ext fun pk => ?_
    cases h : s.partitions.find? pk with
    | none => rfl
    | some report =>
      refine absurd ⟨s.ledger, ledger, ?_⟩ (idle pk)
      show (s.partitions.find? pk).isSome = true
      rw [h]
      rfl
  -- The gauge is offered, so the reading that is left of the two is the one of its figure.
  have there : (a.readGauge now key name).1 ≠ none := by
    obtain ⟨g, hg⟩ := Option.isSome_iff_exists.mp offered
    have read : (a.readGauge now key name).1 = _ := sound.registry.read_fst now key name
    rw [read, hs, hr, Option.bind_some, Option.bind_some, hg]
    exact Option.some_ne_none _
  have reads : ∀ (g : Gauge IngestionStats),
      ((a.readGauge now key name).1 = none ∨
        (a.readGauge now key name).1 = (a.registry.payload? key).map fun s => (g.read now s).1) →
      (g.read now s).1 = .ok Sentinel.inactive.value →
      (a.readGauge now key name).1 = some (.ok Sentinel.inactive.value) := by
    intro g reading inactive
    rw [reading.resolve_left there, hs]
    exact congrArg some inactive
  fin_cases readiness
  · refine reads _ (sound.readGauge_of_hybrid now key (.head _) rfl) ?_
    show s.realTimeLag = _
    rw [IngestionStats.realTimeLag, empty]
    rfl
  · refine reads _ (sound.readGauge_of_hybrid now key (.tail _ (.tail _ (.head _))) rfl) ?_
    show Except.ok s.awaitingBufferReplay = _
    rw [IngestionStats.awaitingBufferReplay, empty]
    rfl
  · refine reads (IngestionStats.figure Sentinel.noStats.value fun s => .ok s.mergeErrorCode)
      (.inr (sound.readGauge_of_base now key rfl)) ?_
    show Except.ok s.mergeErrorCode = _
    rw [IngestionStats.mergeErrorCode, empty]
    rfl
  · refine reads _ (sound.readGauge_of_hybrid now key (.tail _ (.tail _ (.tail _ (.head _)))) rfl)
      ?_
    show (s.leaderStalled now).1 = _
    rw [IngestionStats.leaderStalled, empty]
    rfl

end Aggregator

end StoreFeed.Stats
