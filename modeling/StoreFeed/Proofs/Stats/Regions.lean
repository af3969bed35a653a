import Mathlib.Data.List.Find
import Mathlib.Data.List.Induction
import Mathlib.Data.List.Infix
import StoreFeed.Proofs.Stats.Calls

/-!
# Figures of regions

A profile lists regions under aliases. The figures of a region are registered under the alias, but
once for each region, and a name that is taken keeps its figure. So what a scope shows under an
alias depends on all that was listed for it before: it is the first region whose first alias this is
(`shown?`). That one is exported from then on (`Aggregator.exports`).
-/

namespace StoreFeed.Stats

/-! ## Names -/

/-- A figure of a region. -/
inductive RegionFigure where
  | lag
  | bytes
  | records
deriving DecidableEq

namespace RegionFigure

/-- How the name of the figure ends. -/
def suffix : RegionFigure → String
  | .lag => "_rt_lag"
  | .bytes => "_rt_bytes_consumed"
  | .records => "_rt_records_consumed"

/-- The name of the figure of a region that is listed under an alias. -/
def name (localRegion label : String) (f : RegionFigure) : String :=
  regionStem localRegion label ++ f.suffix

/-- How the figure is read. -/
def gauge (region : RegionId) : RegionFigure → Gauge IngestionStats
  | .lag => IngestionStats.figure 0 (·.regionLag region)
  | .bytes => ⟨fun now s => (.ok (s.regionBytes region now).1, (s.regionBytes region now).2), 0⟩
  | .records =>
    ⟨fun now s => (.ok (s.regionRecords region now).1, (s.regionRecords region now).2), 0⟩

/-- What the figure shows: the lag behind the region, or what is measured from it, if that is
recorded. -/
def reading (now : Int) (region : RegionId) (s : IngestionStats) :
    RegionFigure → Except Overflow Float
  | .lag => s.regionLag region
  | .bytes => .ok ((s.regions.find? region).elim 0 fun rates => (rates.bytes.measure now).1)
  | .records => .ok ((s.regions.find? region).elim 0 fun rates => (rates.records.measure now).1)

theorem read_gauge (f : RegionFigure) (now : Int) (region : RegionId) (s : IngestionStats) :
    ((f.gauge region).read now s).1 = f.reading now region s := by
  cases f with
  | lag => rfl
  | bytes =>
    simp only [gauge, reading, IngestionStats.regionBytes]
    cases s.regions.find? region <;> rfl
  | records =>
    simp only [gauge, reading, IngestionStats.regionRecords]
    cases s.regions.find? region <;> rfl

theorem regionGauges_eq (localRegion label : String) (region : RegionId) :
    IngestionStats.regionGauges (regionStem localRegion label) region =
      [lag, bytes, records].map fun f => (f.name localRegion label, f.gauge region) := rfl

theorem suffix_apart {f f' : RegionFigure} {s s' : String} (h : s ++ f.suffix = s' ++ f'.suffix) :
    f = f' ∧ s = s' := by
  have same := congrArg String.toList h
  rw [String.toList_append, String.toList_append] at same
  have figures : f = f' := by
    have nested := List.suffix_or_suffix_of_suffix (List.suffix_append s.toList f.suffix.toList)
      (same ▸ List.suffix_append s'.toList f'.suffix.toList)
    cases f <;> cases f' <;> first | rfl | exact absurd nested (by decide)
  subst figures
  exact ⟨rfl, String.toList_inj.mp (List.append_cancel_right same)⟩

theorem name_inj {localRegion label label' : String} {f f' : RegionFigure} :
    f.name localRegion label = f'.name localRegion label' ↔ f = f' ∧ label = label' := by
  refine ⟨fun h => ?_, fun ⟨figures, aliases⟩ => by rw [figures, aliases]⟩
  obtain ⟨figures, stems⟩ := suffix_apart h
  refine ⟨figures, ?_⟩
  have same := congrArg String.toList stems
  simp only [regionStem, String.toList_append] at same
  exact String.toList_inj.mp (List.append_cancel_left same)

/-- The figures of a region have the names of its alias, and no others. -/
theorem gaugeOf?_regionGauges (localRegion label label' : String)
    (region : RegionId) (f : RegionFigure) :
    gaugeOf? (IngestionStats.regionGauges (regionStem localRegion label) region)
      (f.name localRegion label') =
      if label = label' then some (f.gauge region) else none := by
  rw [regionGauges_eq, gaugeOf?, List.find?_map, Option.map_map]
  by_cases same : label = label'
  · cases f <;> simp [name_inj, same]
  · simp [name_inj, same]

/-- No other figure of a scope ends like one of a region. -/
theorem gaugeOf?_others {localRegion label : String} {f : RegionFigure}
    {gauges : List (String × Gauge IngestionStats)}
    (others : ∀ n ∈ gauges.map (·.1), ¬ f.suffix.toList <:+ n.toList) :
    gaugeOf? gauges (f.name localRegion label) = none := by
  rw [gaugeOf?, Option.map_eq_none_iff, List.find?_eq_none]
  intro e he same
  have same : e.1 = f.name localRegion label := by simpa using same
  refine others e.1 (List.mem_map_of_mem he) ?_
  rw [same, name, String.toList_append]
  exact List.suffix_append _ _

theorem gaugeOf?_base (localRegion label : String) (f : RegionFigure) :
    gaugeOf? IngestionStats.baseGauges (f.name localRegion label) = none :=
  gaugeOf?_others (by cases f <;> decide)

theorem gaugeOf?_hybrid (localRegion label : String) (f : RegionFigure) :
    gaugeOf? IngestionStats.hybridGauges (f.name localRegion label) = none :=
  gaugeOf?_others (by cases f <;> decide)

end RegionFigure

namespace Aggregator

theorem regionGroup_inj {region region' : RegionId} :
    regionGroup region = regionGroup region' ↔ region = region' := by
  refine ⟨fun h => ?_, congrArg regionGroup⟩
  have same := congrArg String.toList h
  simp only [regionGroup, String.toList_append] at same
  have digits := List.append_cancel_left same
  have numbers := congrArg (Nat.ofDigitChars 10 · 0) digits
  simpa [UInt32.toNat_inj] using numbers

end Aggregator

/-! ## Which region an alias shows -/

/-- The first of the listed regions whose first alias is the given one. -/
def shown? (listed : List (RegionId × String)) (label : String) : Option RegionId :=
  (listed.find? fun e => listed.lookup e.1 = some label).map (·.1)

theorem lookup_append_of_mem {listed : List (RegionId × String)}
    {e : RegionId × String} (h : e ∈ listed)
    (later : List (RegionId × String)) : (listed ++ later).lookup e.1 = listed.lookup e.1 := by
  rw [List.lookup_append, Option.or_of_isSome (List.lookup_isSome_iff.mpr ⟨e, h, BEq.rfl⟩)]

theorem lookup_singleton (region : RegionId) (e : RegionId × String) :
    [e].lookup region = if region = e.1 then some e.2 else none := by
  rw [List.lookup_cons, List.lookup_nil]
  by_cases same : region = e.1
  · simp [same]
  · simp [same, beq_eq_false_iff_ne.mpr same]

theorem find?_append_left (listed later : List (RegionId × String)) (label : String) :
    listed.find? (fun e => (listed ++ later).lookup e.1 = some label) =
      listed.find? fun e => listed.lookup e.1 = some label :=
  List.find?_congr fun e he => by rw [lookup_append_of_mem he]

/-- A further region shows under its alias if it had none, and no other region shows under it. -/
theorem shown?_snoc (listed : List (RegionId × String)) (e : RegionId × String) (label : String) :
    shown? (listed ++ [e]) label = (shown? listed label).or
      (if (listed.lookup e.1).isSome then none else if e.2 = label then some e.1 else none) := by
  rw [shown?, List.find?_append, find?_append_left, Option.map_or, ← shown?]
  cases known : listed.lookup e.1 with
  | none => by_cases same : e.2 = label <;> simp [List.lookup_append, lookup_singleton, known, same]
  | some first =>
    have there : ((listed ++ [e]).lookup e.1) = some first := by rw [List.lookup_append, known]; rfl
    by_cases same : first = label
    · subst same
      obtain ⟨e', he', same⟩ := List.lookup_isSome_iff.mp (Option.isSome_of_eq_some known)
      have taken : (shown? listed first).isSome = true := by
        rw [shown?, Option.isSome_map, List.find?_isSome]
        exact ⟨e', he', by rw [← eq_of_beq same, known]; exact decide_eq_true rfl⟩
      rw [Option.or_of_isSome taken, Option.or_of_isSome taken]
    · simp [there, same]

/-- What shows under an alias stays. -/
theorem shown?_append {listed : List (RegionId × String)} {region : RegionId} {label : String}
    (h : shown? listed label = some region) (later : List (RegionId × String)) :
    shown? (listed ++ later) label = some region := by
  rw [shown?, List.find?_append, find?_append_left, Option.map_or, ← shown?, h]
  rfl

/-! ## What a reporter has of the listed regions -/

/-- The regions that a reporter knows are those that were listed, and their figures have the names
of the aliases that show them. -/
structure Reporter.Lists (localRegion : String) (listed : List (RegionId × String))
    (p : Reporter IngestionStats) : Prop where
  groups : ∀ region, p.groups.contains (Aggregator.regionGroup region) =
    (listed.lookup region).isSome
  gauges : ∀ (f : RegionFigure) label,
    p.gauges.find? (f.name localRegion label) = (shown? listed label).map f.gauge

namespace Reporter

variable {p : Reporter IngestionStats} {localRegion : String} {listed : List (RegionId × String)}

theorem Lists.withBound (lists : p.Lists localRegion listed) (bound : Option PayloadId) :
    { p with bound }.Lists localRegion listed := ⟨lists.groups, lists.gauges⟩

theorem lists_base (localRegion : String) :
    (Reporter.empty.registerAll IngestionStats.baseGauges).Lists localRegion [] where
  groups region := by
    rw [registerAll_eq]
    rfl
  gauges f label := by
    rw [find?_registerAll, f.gaugeOf?_base]
    rfl

theorem Lists.registerHybrid (lists : p.Lists localRegion listed) :
    (p.registerOnce Aggregator.hybridGroup IngestionStats.hybridGauges).2.Lists
      localRegion listed where
  groups region := by
    rw [← lists.groups, Bool.eq_iff_iff, contains_groups_registerOnce]
    exact or_iff_right (Aggregator.regionGroup_ne region)
  gauges f label := by
    rw [find?_registerOnce, lists.gauges]
    split
    · rw [f.gaugeOf?_hybrid, Option.or_none]
    · exact Option.or_none

theorem Lists.addRegion (lists : p.Lists localRegion listed) (region : RegionId) (label : String) :
    (Aggregator.addRegion localRegion p (region, label)).Lists localRegion
      (listed ++ [(region, label)]) where
  groups region' := by
    rw [Aggregator.addRegion, Bool.eq_iff_iff, contains_groups_registerOnce, lists.groups,
      Aggregator.regionGroup_inj, List.lookup_append, Option.isSome_or, Bool.or_eq_true, or_comm]
    refine or_congr_right ?_
    by_cases same : region' = region <;> simp [lookup_singleton, same]
  gauges f label' := by
    rw [Aggregator.addRegion, find?_registerOnce, registerOnce_fst, lists.gauges,
      lists.groups, shown?_snoc, Option.map_or]
    cases (listed.lookup region).isSome with
    | true => rfl
    | false =>
      rw [if_pos (by rfl), f.gaugeOf?_regionGauges]
      by_cases same : label = label' <;> simp [same]

theorem Lists.foldl (lists : p.Lists localRegion listed) (further : List (RegionId × String)) :
    (further.foldl (Aggregator.addRegion localRegion) p).Lists localRegion (listed ++ further) := by
  induction further generalizing p listed with
  | nil => exact listed.append_nil.symm ▸ lists
  | cons e rest ih =>
    rw [List.foldl_cons, List.append_cons]
    exact ih (lists.addRegion e.1 e.2)

theorem Lists.extend (lists : p.Lists localRegion listed) (profile : ReplicaProfile) :
    (Aggregator.extend localRegion profile p).Lists localRegion
    (listed ++ Aggregator.listing profile) := by
  rw [Aggregator.extend_eq]
  refine Lists.foldl ?_ _
  split
  · exact lists.registerHybrid
  · exact lists

end Reporter

/-! ## Which regions are recorded -/

namespace IngestionStats

theorem contains_insertNew {m : SortedMap RegionId RegionRates} (region region' : RegionId)
    (rates : RegionRates) : (m.insertNew region rates).contains region' = true ↔
      region' = region ∨ m.contains region' = true := by
  rw [SortedMap.contains, SortedMap.find?_insertNew, SortedMap.contains]
  by_cases same : region' = region <;> simp [same]

/-- The regions of an active-active version are recorded besides those that are. -/
theorem contains_ensureRegions (s : IngestionStats) (now : Int) (profile : ReplicaProfile)
    (region : RegionId) : (s.ensureRegions now profile).regions.contains region = true ↔
      (profile.activeActive = true ∧ profile.regions.contains region = true) ∨
        s.regions.contains region = true := by
  have all : ∀ (keys : List RegionId) (m : SortedMap RegionId RegionRates) (rates : RegionRates),
      (keys.foldl (fun m r => m.insertNew r rates) m).contains region = true ↔
        region ∈ keys ∨ m.contains region = true := by
    intro keys m rates
    induction keys generalizing m with
    | nil => simp
    | cons r rest ih => rw [List.foldl_cons, ih, contains_insertNew, List.mem_cons]; tauto
  rw [ensureRegions]
  split
  · rename_i active
    refine (all _ _ _).trans ?_
    rw [SortedMap.mem_keys, active]
    tauto
  · rename_i inactive
    rw [Bool.eq_false_iff.mpr inactive]
    simp

/-- What is recorded keeps the regions that are recorded. -/
theorem contains_record (s : IngestionStats) (now : Int) (e : Event) (region : RegionId) :
    (s.record now e).regions.contains region = s.regions.contains region := by
  have modified : ∀ (region' : RegionId) (f : RegionRates → RegionRates),
      (s.regions.modify region' f).contains region = s.regions.contains region := by
    intro region' f
    rw [SortedMap.contains, SortedMap.find?_modify, SortedMap.contains]
    split
    · rw [Option.isSome_map]
    · rfl
  cases e with
  | recordsConsumedFrom region' n | bytesConsumedFrom region' n => exact modified _ _
  | recordsConsumedAs role n | bytesConsumedAs role n => cases role <;> rfl
  | stepTook step ms => cases step <;> rfl
  | _ => rfl

end IngestionStats

namespace Aggregator

variable {a : Aggregator}

/-- A call takes the statistics of a scope away. -/
def Call.Drops (key : ScopeKey) : Call → Prop
  | .removeVersion store version => key = ⟨store, .version version⟩
  | .removeStore store => key.store = store
  | _ => False

/-- A region that is recorded stays recorded as long as the statistics are not taken away. -/
theorem Call.effect_keeps {c : Call} {key : ScopeKey} (kept : ¬ c.Drops key) {region : RegionId}
    {s : IngestionStats} (h : s.regions.contains region = true) :
    ∃ s', c.effect key (some s) = some s' ∧ s'.regions.contains region = true := by
  cases c with
  | register now store version profile =>
    simp only [effect]
    split
    · exact ⟨_, rfl, (s.contains_ensureRegions now profile region).mpr (.inr h)⟩
    · exact ⟨s, rfl, h⟩
  | record now store version e =>
    simp only [effect]
    split
    · exact ⟨_, rfl, (s.contains_record now e region).trans h⟩
    · exact ⟨s, rfl, h⟩
  | report store version partition latest | removePartition store version partition
  | setErrored store version raised | setPushTimeout store version raised =>
    simp only [effect]
    split
    · exact ⟨_, rfl, h⟩
    · exact ⟨s, rfl, h⟩
  | removeVersion store version =>
    simp only [effect, if_neg (show ¬ key = ⟨store, .version version⟩ from kept)]
    split
    · exact ⟨_, rfl, h⟩
    · exact ⟨s, rfl, h⟩
  | removeStore store => exact ⟨s, if_neg kept, h⟩

theorem Aligned.recorded_afterAll (aligned : a.Aligned) {calls : List Call} {key : ScopeKey}
    (kept : ∀ c ∈ calls, ¬ c.Drops key) {region : RegionId} {s : IngestionStats}
    (held : a.registry.payload? key = some s) (h : s.regions.contains region = true) :
    ∃ s', (a.afterAll calls).registry.payload? key = some s' ∧
      s'.regions.contains region = true := by
  induction calls generalizing a s with
  | nil => exact ⟨s, held, h⟩
  | cons c rest ih =>
    obtain ⟨s', effect, h'⟩ := Call.effect_keeps (kept c List.mem_cons_self) h
    have here : (a.after c).registry.payload? key = some s' := by
      rw [aligned.payload?_after, held, effect]
    exact ih (aligned.after c) (fun c hc => kept c (List.mem_cons_of_mem _ hc)) here h'

/-! ## What a run exports -/

/-- The regions that a call lists for a scope. -/
def Call.lists (key : ScopeKey) : Call → List (RegionId × String)
  | .register _ store version profile =>
    if Registry.Covers store version key then listing profile else []
  | _ => []

/-- The regions that some calls list for a scope, in order. -/
def listed (key : ScopeKey) (calls : List Call) : List (RegionId × String) :=
  calls.flatMap (Call.lists key)

/-- The reporter of a scope. One that has none is like one with the gauges of every scope only. -/
def reporter (a : Aggregator) (key : ScopeKey) : Reporter IngestionStats :=
  (a.registry.reporter? key).getD (Reporter.empty.registerAll IngestionStats.baseGauges)

/-- A call adds to a reporter what it lists. -/
theorem Aligned.lists_after (aligned : a.Aligned) (c : Call) {key : ScopeKey}
    {before : List (RegionId × String)} (lists : (a.reporter key).Lists a.localRegion before) :
    ((a.after c).reporter key).Lists a.localRegion (before ++ c.lists key) := by
  obtain ⟨bound, after⟩ := aligned.reporter?_after c key
  have rebound : c.amend a.localRegion key (a.registry.reporter? key) = a.registry.reporter? key →
      ((a.after c).reporter key).Lists a.localRegion (before ++ []) := by
    intro same
    rw [List.append_nil, reporter, after, same]
    rw [reporter] at lists
    cases hp : a.registry.reporter? key with
    | none =>
      rw [hp] at lists
      exact lists
    | some p =>
      rw [hp] at lists
      exact lists.withBound bound
  cases c with
  | register now store version profile =>
    by_cases covers : Registry.Covers store version key
    · rw [reporter, after, Call.amend, if_pos covers, Call.lists, if_pos covers]
      exact (lists.extend profile).withBound bound
    · rw [Call.lists, if_neg covers]
      exact rebound (if_neg covers)
  | _ => exact rebound rfl

theorem lists_afterAll (localRegion : String) (calls : List Call) (key : ScopeKey) :
    (((create localRegion).afterAll calls).reporter key).Lists localRegion (listed key calls) := by
  induction calls using List.reverseRecOn with
  | nil =>
    have none : (create localRegion).registry.reporter? key = none := rfl
    rw [afterAll, List.foldl_nil, reporter, none, Option.getD_none, listed, List.flatMap_nil]
    exact Reporter.lists_base localRegion
  | append_singleton calls c ih =>
    have before : (((create localRegion).afterAll calls).reporter key).Lists
        ((create localRegion).afterAll calls).localRegion (listed key calls) := by
      rw [localRegion_afterAll]
      exact ih
    have step := ((aligned_create localRegion).afterAll calls).lists_after c before
    rw [localRegion_afterAll] at step
    rw [afterAll_append, listed, List.flatMap_append, List.flatMap_singleton]
    exact step

/-- Under an alias a scope has the figures of the region that the alias shows, if it shows any. -/
theorem gauge?_afterAll (localRegion : String) (calls : List Call)
    (key : ScopeKey) (f : RegionFigure)
    (label : String) : ((create localRegion).afterAll calls).registry.gauge? key
    (f.name localRegion label) =
      (shown? (listed key calls) label).map f.gauge := by
  rw [← (lists_afterAll localRegion calls key).gauges, Registry.gauge?, reporter]
  cases ((create localRegion).afterAll calls).registry.reporter? key with
  | some p => rfl
  | none =>
    rw [Option.getD_none, (Reporter.lists_base localRegion).gauges]
    rfl

/-- A scope exports a region under an alias, after calls since the region was listed. -/
structure Exports (a : Aggregator) (key : ScopeKey) (region : RegionId) (label : String)
    (since : List Call) : Prop where
  /-- The three figures are there. -/
  offered : ∀ f : RegionFigure,
    a.registry.gauge? key (f.name a.localRegion label) = some (f.gauge region)
  /-- They read the region from the statistics of the scope, and zero while there are none. -/
  reads : ∀ now (f : RegionFigure), (a.readGauge now key (f.name a.localRegion label)).1 =
    some ((a.registry.payload? key).elim (.ok 0) fun s => f.reading now region s)
  /-- There are statistics that record the region, unless they were taken away. -/
  recorded : (∀ c ∈ since, ¬ c.Drops key) →
    ∃ s, a.registry.payload? key = some s ∧ s.regions.contains region = true

/-- A region that an active-active version lists under an alias is exported under it by the version
and by its store, if of all regions that these have listed the alias shows this one. -/
theorem exports (localRegion : String) (earlier later : List Call) (now : Int) {store : String}
    {version : UInt32} {key : ScopeKey} (covers : Registry.Covers store version key)
    {profile : ReplicaProfile} (active : profile.activeActive = true)
    {region : RegionId} {label : String}
    (lists : profile.regions.find? region = some label)
    (shows : shown? (listed key earlier ++ profile.regions.entries) label = some region) :
    Exports
      ((create localRegion).afterAll (earlier ++ .register now store version profile :: later))
      key region label later := by
  have aligned := (aligned_create localRegion).afterAll
  have home : ∀ calls, ((create localRegion).afterAll calls).localRegion = localRegion :=
    localRegion_afterAll _
  have all : listed key (earlier ++ .register now store version profile :: later) =
      (listed key earlier ++ profile.regions.entries) ++ listed key later := by
    simp [listed, Call.lists, listing, covers, active]
  have offered : ∀ f : RegionFigure, ((create localRegion).afterAll
      (earlier ++ .register now store version profile :: later)).registry.gauge? key
        (f.name localRegion label) = some (f.gauge region) := by
    intro f
    rw [gauge?_afterAll, all, shown?_append shows]
    rfl
  refine ⟨fun f => by rw [home]; exact offered f, fun now f => ?_, fun kept => ?_⟩
  · rw [home]
    refine ((aligned _).registry.read_fst now key _).trans ?_
    rw [← Registry.gauge?, offered f, Option.map_some]
    generalize Registry.payload? _ key = held
    cases held with
    | none => cases f <;> rfl
    | some s => exact congrArg some (f.read_gauge now region s)
  · rw [afterAll_append]
    have here := (aligned earlier).payload?_after (.register now store version profile) key
    simp only [Call.effect, if_pos covers] at here
    refine ((aligned earlier).after _).recorded_afterAll kept here ?_
    refine (IngestionStats.contains_ensureRegions _ now profile region).mpr (.inl ⟨active, ?_⟩)
    rw [SortedMap.contains, lists]
    rfl

/-- A version that lists one region is followed by one that lists another besides. -/
theorem exports_secondRegion :
    let profile : ReplicaProfile := ⟨false, true, SortedMap.ofList [(1, "a")]⟩
    let profile' : ReplicaProfile := ⟨false, true, SortedMap.ofList [(1, "a"), (2, "b")]⟩
    Registry.Covers "s" 2 ⟨"s", .total⟩ ∧ profile'.activeActive = true ∧
      profile'.regions.find? 2 = some "b" ∧
      shown? (listed ⟨"s", .total⟩ [.register 0 "s" 1 profile] ++ profile'.regions.entries) "b" =
        some 2 ∧
      Exports
        ((create "dc0").afterAll ([.register 0 "s" 1 profile] ++ [.register 0 "s" 2 profile']))
        ⟨"s", .total⟩ 2 "b" [] :=
  ⟨.inl rfl, rfl, rfl, rfl, exports "dc0" [.register 0 "s" 1 _] [] 0 (.inl rfl) rfl rfl rfl⟩

/-- Once a version lists a region under another alias the store does not export it under that. And
where two regions are listed under one alias, this reads the first of them. -/
theorem unexported :
    ((create "dc0").afterAll [.register 0 "s" 1 ⟨false, true, SortedMap.ofList [(1, "a")]⟩,
      .register 0 "s" 2 ⟨false, true, SortedMap.ofList [(1, "b")]⟩]).registry.gauge? ⟨"s", .total⟩
        (RegionFigure.lag.name "dc0" "b") = none ∧
    ((create "dc0").afterAll [.register 0 "s" 1 ⟨false, true,
      SortedMap.ofList [(1, "a"), (2, "a")]⟩]).registry.gauge? ⟨"s", .version 1⟩
        (RegionFigure.lag.name "dc0" "a") = some (RegionFigure.lag.gauge 1) := by
  rw [gauge?_afterAll, gauge?_afterAll]
  exact ⟨rfl, rfl⟩

end Aggregator

end StoreFeed.Stats
