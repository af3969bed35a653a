import StoreFeed.Proofs.Stats.Aggregator

/-!
# Calls on the statistics of a host

Replicas of different versions come and go in any order, so the statistics of a host undergo calls
about all of them. What a call does to the statistics of a scope depends on these alone
(`Call.effect`), and so does what it does to the gauges of a scope (`Call.amend`).
-/

namespace StoreFeed.Stats

namespace Registry

variable {S : Type} {r : Registry S}

theorem payload?_removeVersion (r : Registry S) (store : String)
    (version : UInt32) (key : ScopeKey) :
    (r.removeVersion store version).2.payload? key =
      if key = ⟨store, .version version⟩ then none else r.payload? key := by
  have payloads : (r.removeVersion store version).2.payloads = r.payloads := rfl
  rw [payload?, held_removeVersion, payloads]
  split
  · rfl
  · rfl

theorem payload?_removeStore (r : Registry S) (store : String) (key : ScopeKey) :
    (r.removeStore store).payload? key = if key.store = store then none else r.payload? key := by
  have payloads : (r.removeStore store).payloads = r.payloads := rfl
  rw [payload?, held_removeStore, payloads]
  split
  · rfl
  · rfl

end Registry

namespace Aggregator

/-- A call on the statistics of a host. -/
inductive Call where
  | register (now : Int) (store : String) (version : UInt32) (profile : ReplicaProfile)
  | record (now : Int) (store : String) (version : UInt32) (e : Event)
  | report (store : String) (version partition : UInt32) (latest : PartitionReport)
  | removePartition (store : String) (version partition : UInt32)
  | setErrored (store : String) (version : UInt32) (raised : Bool)
  | setPushTimeout (store : String) (version : UInt32) (raised : Bool)
  | removeVersion (store : String) (version : UInt32)
  | removeStore (store : String)

/-- The statistics after a call. -/
def after (a : Aggregator) : Call → Aggregator
  | .register now store version profile => a.register now store version profile
  | .record now store version e => a.record now store version e
  | .report store version partition latest => a.report store version partition latest
  | .removePartition store version partition => a.removePartition store version partition
  | .setErrored store version raised => a.setErrored store version raised
  | .setPushTimeout store version raised => a.setPushTimeout store version raised
  | .removeVersion store version => a.removeVersion store version
  | .removeStore store => a.removeStore store

/-- The statistics after some calls. -/
def afterAll (a : Aggregator) (calls : List Call) : Aggregator := calls.foldl after a

/-- What a call makes of the statistics of a scope. -/
def Call.effect (key : ScopeKey) (s : Option IngestionStats) : Call → Option IngestionStats
  | .register now store version profile =>
    if Registry.Covers store version key then
      some ((s.getD (.start now profile)).ensureRegions now profile)
    else s
  | .record now store version e =>
    if Registry.Covers store version key then s.map (·.record now e) else s
  | .report store version partition latest =>
    if Registry.Covers store version key then s.map (·.report ⟨version, partition⟩ latest) else s
  | .removePartition store version partition =>
    if Registry.Covers store version key then s.map (·.removePartition ⟨version, partition⟩) else s
  | .setErrored store version raised =>
    if key = ⟨store, .version version⟩ then s.map fun s => { s with errored := raised } else s
  | .setPushTimeout store version raised =>
    if key = ⟨store, .version version⟩ then s.map fun s => { s with pushTimeout := raised } else s
  | .removeVersion store version =>
    if key = ⟨store, .version version⟩ then none
    else if key = ⟨store, .total⟩ then s.map (·.removeVersion version) else s
  | .removeStore store => if key.store = store then none else s

/-- What a call makes of the reporter of a scope, whatever it is bound to. -/
def Call.amend (localRegion : String) (key : ScopeKey) (p : Option (Reporter IngestionStats)) :
    Call → Option (Reporter IngestionStats)
  | .register _ store version profile =>
    if Registry.Covers store version key then
      some (extend localRegion profile
        (p.getD (Reporter.empty.registerAll IngestionStats.baseGauges)))
    else p
  | _ => p

/-- Reporters follow their scopes, and start with the gauges of every scope. -/
structure Aligned (a : Aggregator) : Prop where
  registry : a.registry.Aligned
  base : a.registry.baseGauges = IngestionStats.baseGauges

theorem aligned_create (localRegion : String) : (create localRegion).Aligned :=
  ⟨Registry.aligned_empty _, rfl⟩

variable {a : Aggregator}

@[simp]
theorem localRegion_after (a : Aggregator) (c : Call) :
    (a.after c).localRegion = a.localRegion := by
  cases c <;> rfl

@[simp]
theorem localRegion_afterAll (a : Aggregator) (calls : List Call) :
    (a.afterAll calls).localRegion = a.localRegion := by
  induction calls generalizing a with
  | nil => rfl
  | cons c rest ih => exact (ih (a.after c)).trans (a.localRegion_after c)

theorem afterAll_append (a : Aggregator) (calls calls' : List Call) :
    a.afterAll (calls ++ calls') = (a.afterAll calls).afterAll calls' := List.foldl_append

theorem bound_extend (localRegion : String) (profile : ReplicaProfile)
    (p : Reporter IngestionStats) :
    (extend localRegion profile p).bound = p.bound := (extends_extend localRegion profile p).bound

/-- The regions that a profile lists, with their aliases. -/
def listing (profile : ReplicaProfile) : List (RegionId × String) :=
  if profile.activeActive then profile.regions.entries else []

/-- Add the figures of a region that is listed under an alias. -/
def addRegion (localRegion : String) (p : Reporter IngestionStats) (e : RegionId × String) :
    Reporter IngestionStats :=
  (p.registerOnce (regionGroup e.1)
    (IngestionStats.regionGauges (regionStem localRegion e.2) e.1)).2

theorem extend_eq (localRegion : String) (profile : ReplicaProfile) (p : Reporter IngestionStats) :
    extend localRegion profile p = (listing profile).foldl (addRegion localRegion)
      (if profile.hybrid then (p.registerOnce hybridGroup
        IngestionStats.hybridGauges).2 else p) := by
  unfold extend listing
  cases profile.activeActive <;> rfl

theorem extend_withBound (localRegion : String) (profile : ReplicaProfile)
    (bound : Option PayloadId) (p : Reporter IngestionStats) :
    extend localRegion profile { p with bound } =
      { extend localRegion profile p with bound } := by
  have hybrid : (if profile.hybrid then
        ({ p with bound }.registerOnce hybridGroup IngestionStats.hybridGauges).2
      else { p with bound }) =
      { if profile.hybrid then (p.registerOnce hybridGroup IngestionStats.hybridGauges).2
        else p with bound } := by
    split
    · exact p.registerOnce_withBound bound _ _
    · rfl
  have region : ∀ (p : Reporter IngestionStats) e,
      addRegion localRegion { p with bound } e = { addRegion localRegion p e with bound } :=
    fun p e => p.registerOnce_withBound bound _ _
  rw [extend_eq, extend_eq, hybrid]
  exact List.foldl_hom (fun p : Reporter IngestionStats => { p with bound }) region

namespace Aligned

theorem after (aligned : a.Aligned) (c : Call) : (a.after c).Aligned := by
  obtain ⟨registry, base⟩ := aligned
  cases c with
  | register now store version profile =>
    refine ⟨?_, ?_⟩
    · show (a.register now store version profile).registry.Aligned
      rw [registry_register]
      have created := registry.getOrCreate store version (IngestionStats.start now profile)
      have ensured := created.withBoth store version (·.ensureRegions now profile)
      exact (ensured.modifyReporter _ (bound_extend _ profile)).modifyReporter _
        (bound_extend _ profile)
    · show (a.register now store version profile).registry.baseGauges = _
      rw [registry_register, Registry.baseGauges_modifyReporter, Registry.baseGauges_modifyReporter,
        Registry.baseGauges_withBoth, Registry.baseGauges_getOrCreate, base]
  | record now store version e | report store version partition latest
  | removePartition store version partition =>
    exact ⟨registry.withBoth store version _, (Registry.baseGauges_withBoth _ _ _ _).trans base⟩
  | setErrored store version raised | setPushTimeout store version raised =>
    exact ⟨registry.modifyHeld _ _, (Registry.baseGauges_modifyHeld _ _ _).trans base⟩
  | removeVersion store version =>
    exact ⟨(registry.modifyHeld _ _).removeVersion store version,
      (Registry.baseGauges_modifyHeld _ _ _).trans base⟩
  | removeStore store => exact ⟨registry.removeStore store, base⟩

theorem afterAll (aligned : a.Aligned) (calls : List Call) : (a.afterAll calls).Aligned := by
  induction calls generalizing a with
  | nil => exact aligned
  | cons c rest ih => exact ih (aligned.after c)

/-- What a call does to the statistics of a scope depends on no other scope. -/
theorem payload?_after (aligned : a.Aligned) (c : Call) (key : ScopeKey) :
    (a.after c).registry.payload? key = c.effect key (a.registry.payload? key) := by
  have neat := aligned.registry.toNeat
  cases c with
  | register now store version profile =>
    have created := (neat.getOrCreate store version (IngestionStats.start now profile)).1
    show (a.register now store version profile).registry.payload? key = _
    rw [registry_register, Registry.payload?_modifyReporter, Registry.payload?_modifyReporter,
      created.payload?_withBoth, neat.payload?_getOrCreate]
    simp only [Call.effect]
    split
    · rfl
    · rfl
  | record now store version e => exact neat.payload?_withBoth store version key (·.record now e)
  | report store version partition latest =>
    exact neat.payload?_withBoth store version key (·.report ⟨version, partition⟩ latest)
  | removePartition store version partition =>
    exact neat.payload?_withBoth store version key (·.removePartition ⟨version, partition⟩)
  | setErrored store version raised =>
    exact neat.payload?_modifyHeld key fun s => { s with errored := raised }
  | setPushTimeout store version raised =>
    exact neat.payload?_modifyHeld key fun s => { s with pushTimeout := raised }
  | removeVersion store version =>
    refine (Registry.payload?_removeVersion _ store version key).trans ?_
    simp only [Call.effect]
    split
    · rfl
    · exact neat.payload?_modifyHeld key _
  | removeStore store => exact a.registry.payload?_removeStore store key

/-- What a call does to a reporter depends on no other, except for what it is bound to. -/
theorem reporter?_after (aligned : a.Aligned) (c : Call) (key : ScopeKey) : ∃ bound,
    (a.after c).registry.reporter? key =
      (c.amend a.localRegion key (a.registry.reporter? key)).map fun p => { p with bound } := by
  obtain ⟨kept, there⟩ := Reporter.exists_bound (a.registry.reporter? key)
  cases c with
  | register now store version profile =>
    obtain ⟨made, others⟩ :=
      reporter?_register aligned.registry.toNeat aligned.base now store version profile key
    simp only [Call.amend]
    split
    · rename_i covers
      obtain ⟨bound, reporter⟩ := made covers
      exact ⟨bound, reporter.trans (congrArg some (extend_withBound _ profile bound _))⟩
    · rename_i other
      exact ⟨kept, (others other).trans there⟩
  | record now store version e =>
    exact ⟨kept, (Registry.reporter?_withBoth _ store version key _).trans there⟩
  | report store version partition latest =>
    exact ⟨kept, (Registry.reporter?_withBoth _ store version key _).trans there⟩
  | removePartition store version partition =>
    exact ⟨kept, (Registry.reporter?_withBoth _ store version key _).trans there⟩
  | setErrored store version raised | setPushTimeout store version raised =>
    exact ⟨kept, (Registry.reporter?_modifyHeld _ _ key _).trans there⟩
  | removeVersion store version =>
    have removed := Registry.reporter?_removeVersion
      (a.registry.modifyHeld ⟨store, .total⟩ (·.removeVersion version)) store version key
    rw [Registry.reporter?_modifyHeld] at removed
    split at removed
    · exact ⟨none, removed⟩
    · exact ⟨kept, removed.trans there⟩
  | removeStore store =>
    have removed := a.registry.reporter?_removeStore store key
    split at removed
    · exact ⟨none, removed⟩
    · exact ⟨kept, removed.trans there⟩

end Aligned

end Aggregator

end StoreFeed.Stats
