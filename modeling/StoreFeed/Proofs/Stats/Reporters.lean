import StoreFeed.Proofs.Stats.Registry

/-!
# Reporters over a sequence of calls

Payloads come and go, and whatever takes one away or brings one also unbinds or binds its reporter.
So each reporter is bound to the payload that its scope holds, or to none (`Registry.Aligned`).
Apart from that a reporter only gains gauges and groups: `Registry.Call.amend` says which, and the
first gauge of a name stays (`Registry.reporters_follow`).
-/

namespace StoreFeed.Stats

/-! ## Which gauge has a name -/

/-- The first gauge of a name. -/
def gaugeOf? {S : Type} (gauges : List (String × Gauge S)) (name : String) : Option (Gauge S) :=
  (gauges.find? fun e => e.1 = name).map (·.2)

theorem isSome_gaugeOf? {S : Type} {gauges : List (String × Gauge S)} {e : String × Gauge S}
    (he : e ∈ gauges) : (gaugeOf? gauges e.1).isSome = true := by
  rw [gaugeOf?, Option.isSome_map, List.find?_isSome]
  exact ⟨e, he, decide_eq_true rfl⟩

theorem gaugeOf?_append {S : Type} (gauges gauges' : List (String × Gauge S)) (name : String) :
    gaugeOf? (gauges ++ gauges') name = (gaugeOf? gauges name).or (gaugeOf? gauges' name) := by
  rw [gaugeOf?, List.find?_append, Option.map_or]
  rfl

namespace Reporter

variable {S : Type}

/-- A name that is taken keeps its gauge; of new gauges the first one stays. -/
theorem find?_registerAll (r : Reporter S) (gauges : List (String × Gauge S)) (name : String) :
    (r.registerAll gauges).gauges.find? name =
      (r.gauges.find? name).or (gaugeOf? gauges name) := by
  induction gauges generalizing r with
  | nil => cases h : r.gauges.find? name <;> simp [registerAll, gaugeOf?, h]
  | cons e rest ih =>
    have one : (r.register e.1 e.2).gauges.find? name =
        if name = e.1 then some ((r.gauges.find? e.1).getD e.2) else r.gauges.find? name :=
      SortedMap.find?_insertNew _ _ _ _
    refine (ih (r.register e.1 e.2)).trans ?_
    rw [one]
    by_cases hn : name = e.1
    · subst hn
      cases h : r.gauges.find? e.1 <;> simp [gaugeOf?]
    · have other : gaugeOf? (e :: rest) name = gaugeOf? rest name := by
        unfold gaugeOf?
        rw [List.find?_cons_of_neg (by simpa using Ne.symm hn)]
      rw [if_neg hn, other]

/-- To add gauges changes nothing else. -/
theorem registerAll_eq (r : Reporter S) (gauges : List (String × Gauge S)) :
    r.registerAll gauges = { r with gauges := (r.registerAll gauges).gauges } := by
  induction gauges generalizing r with
  | nil => rfl
  | cons e rest ih => exact ih (r.register e.1 e.2)

/-- The gauges of a group are added unless that was done before. -/
theorem registerOnce_fst (r : Reporter S) (group : String) (gauges : List (String × Gauge S)) :
    (r.registerOnce group gauges).1 = !r.groups.contains group := by
  unfold registerOnce
  split
  · simp [*]
  · simp [*]

theorem find?_registerOnce (r : Reporter S) (group : String) (gauges : List (String × Gauge S))
    (name : String) : (r.registerOnce group gauges).2.gauges.find? name =
      (r.gauges.find? name).or
        (gaugeOf? (if (r.registerOnce group gauges).1 then gauges else []) name) := by
  rw [registerOnce_fst]
  unfold registerOnce
  split
  · rename_i known
    rw [known]
    exact Option.or_none.symm
  · rename_i fresh
    rw [Bool.eq_false_iff.mpr fresh]
    exact r.find?_registerAll gauges name

theorem contains_groups_registerOnce (r : Reporter S) (group group' : String)
    (gauges : List (String × Gauge S)) :
    (r.registerOnce group gauges).2.groups.contains group' = true ↔
      group' = group ∨ r.groups.contains group' = true := by
  unfold registerOnce
  split
  · rename_i known
    refine ⟨.inr, fun h => h.elim ?_ id⟩
    rintro rfl
    exact known
  · show SortedMap.contains ((r.registerAll gauges).groups.add group) group' = true ↔ _
    rw [registerAll_eq]
    exact SortedMap.contains_insert

/-- A group that is registered is known. -/
theorem contains_registerOnce (r : Reporter S) (group : String) (gauges : List (String × Gauge S)) :
    (r.registerOnce group gauges).2.groups.contains group = true :=
  (r.contains_groups_registerOnce group group gauges).mpr (.inl rfl)

/-- A reporter, if there is one, is bound to what it is bound to. -/
theorem exists_bound (p : Option (Reporter S)) : ∃ bound, p = p.map fun p => { p with bound } := by
  cases p with
  | none => exact ⟨none, rfl⟩
  | some p => exact ⟨p.bound, rfl⟩

/-- To add gauges and to bind a reporter do not depend on each other. -/
theorem registerAll_withBound (r : Reporter S) (bound : Option PayloadId)
    (gauges : List (String × Gauge S)) :
    { r with bound }.registerAll gauges = { r.registerAll gauges with bound } := by
  induction gauges generalizing r with
  | nil => rfl
  | cons e rest ih => exact ih (r.register e.1 e.2)

theorem registerOnce_withBound (r : Reporter S) (bound : Option PayloadId) (group : String)
    (gauges : List (String × Gauge S)) : ({ r with bound }.registerOnce group gauges).2 =
      { (r.registerOnce group gauges).2 with bound } := by
  unfold registerOnce
  split
  · rfl
  · rw [registerAll_withBound]

theorem bound_registerOnce (r : Reporter S) (group : String) (gauges : List (String × Gauge S)) :
    (r.registerOnce group gauges).2.bound = r.bound := by
  unfold registerOnce
  split
  · rfl
  · show (r.registerAll gauges).bound = r.bound
    rw [registerAll_eq]

end Reporter

namespace Registry

variable {S : Type} {r r' : Registry S} {key : ScopeKey}

/-! ## Removing payloads -/

theorem Neat.of_held (neat : r.Neat) (size : r'.payloads.size = r.payloads.size)
    (held : ∀ key id, r'.held.find? key = some id → r.held.find? key = some id) : r'.Neat where
  inRange key id h := size ▸ neat.inRange key id (held key id h)
  apart key key' id h h' := neat.apart key key' id (held key id h) (held key' id h')

theorem held_removeVersion (r : Registry S) (store : String) (version : UInt32) (key : ScopeKey) :
    (r.removeVersion store version).2.held.find? key =
      if key = ⟨store, .version version⟩ then none else r.held.find? key := by
  show (r.held.erase ⟨store, .version version⟩).find? key = _
  by_cases hk : key = ⟨store, .version version⟩
  · rw [if_pos hk, hk, SortedMap.find?_erase_self]
  · rw [if_neg hk, SortedMap.find?_erase_of_ne _ hk]

theorem reporter?_removeVersion (r : Registry S) (store : String)
    (version : UInt32) (key : ScopeKey) :
    (r.removeVersion store version).2.reporter? key =
      if key = ⟨store, .version version⟩ then (r.reporter? key).map fun p =>
        { p with bound := none }
      else r.reporter? key :=
  reporter?_modifyReporter _ _ _ _

theorem held_removeStore (r : Registry S) (store : String) (key : ScopeKey) :
    (r.removeStore store).held.find? key =
      if key.store = store then none else r.held.find? key := by
  have kept := SortedMap.find?_filter r.held (fun key => key.store != store) key
  refine kept.trans ?_
  by_cases hk : key.store = store <;> simp [hk]

theorem reporter?_removeStore (r : Registry S) (store : String) (key : ScopeKey) :
    (r.removeStore store).reporter? key =
      if key.store = store then (r.reporter? key).map fun p => { p with bound := none }
      else r.reporter? key := by
  refine (SortedMap.find?_map r.reporters _ key).trans ?_
  by_cases hk : key.store = store
  · simp only [hk, if_true]
    rfl
  · simp only [hk, if_false]
    exact congrFun Option.map_id _

/-! ## Reporters are bound to what their scopes hold -/

/-- A reporter is bound to the payload of its scope, or to none if there is none. Who has a payload
has a reporter, and the payload of a version stands beside one of its store. -/
structure Aligned (r : Registry S) : Prop extends r.Neat where
  bound : ∀ key p, r.reporter? key = some p → p.bound = r.held.find? key
  present : ∀ key, (r.held.find? key).isSome = true → (r.reporter? key).isSome = true
  total : ∀ store version, (r.held.find? ⟨store, .version version⟩).isSome = true →
    (r.held.find? ⟨store, .total⟩).isSome = true

theorem aligned_empty (baseGauges : List (String × Gauge S)) : (empty baseGauges).Aligned where
  toNeat := (sound_empty baseGauges).toNeat
  bound key p h := by simp [empty, reporter?] at h
  present key h := by simp [empty] at h
  total store version h := by simp [empty] at h

namespace Aligned

theorem modifyHeld (aligned : r.Aligned) (key : ScopeKey) (f : S → S) :
    (r.modifyHeld key f).Aligned where
  toNeat := aligned.toNeat.modifyHeld key f
  bound key' p h := by
    rw [reporter?_modifyHeld] at h
    rw [held_modifyHeld]
    exact aligned.bound key' p h
  present key' h := by
    rw [held_modifyHeld] at h
    rw [reporter?_modifyHeld]
    exact aligned.present key' h
  total store version h := by
    rw [held_modifyHeld] at h ⊢
    exact aligned.total store version h

theorem withBoth (aligned : r.Aligned) (store : String) (version : UInt32) (f : S → S) :
    (r.withBoth store version f).Aligned := (aligned.modifyHeld _ f).modifyHeld _ f

theorem getOrCreate (aligned : r.Aligned) (store : String) (version : UInt32) (fresh : S) :
    (r.getOrCreate store version fresh).Aligned := by
  obtain ⟨neat, made, same⟩ := aligned.toNeat.getOrCreate store version fresh
  refine ⟨neat, fun key p h => ?_, fun key h => ?_, fun store' version' h => ?_⟩
  · by_cases covers : Covers store version key
    · obtain ⟨id, held, reporter⟩ := made key covers
      cases reporter.symm.trans h
      exact held.symm
    · obtain ⟨held, reporter⟩ := same key covers
      rw [held]
      exact aligned.bound key p (reporter.symm.trans h)
  · by_cases covers : Covers store version key
    · obtain ⟨id, -, reporter⟩ := made key covers
      rw [reporter]
      rfl
    · obtain ⟨held, reporter⟩ := same key covers
      rw [reporter]
      exact aligned.present key (held ▸ h)
  · by_cases hs : store' = store
    · subst hs
      obtain ⟨id, held, -⟩ := made ⟨store', .total⟩ (.inl rfl)
      rw [held]
      rfl
    · have others : ∀ scope, ¬ Covers store version ⟨store', scope⟩ := by
        rintro scope (same | same) <;> exact hs (congrArg ScopeKey.store same)
      rw [(same _ (others _)).1] at h ⊢
      exact aligned.total store' version' h

theorem removeVersion (aligned : r.Aligned) (store : String) (version : UInt32) :
    (r.removeVersion store version).2.Aligned := by
  refine ⟨aligned.toNeat.of_held rfl fun key id h => ?_, fun key p h => ?_, fun key h => ?_,
    fun store' version' h => ?_⟩
  · rw [held_removeVersion] at h
    split at h
    · cases h
    · exact h
  · rw [reporter?_removeVersion] at h
    rw [held_removeVersion]
    split at h
    · rename_i hk
      obtain ⟨p', -, rfl⟩ := Option.map_eq_some_iff.mp h
      rw [if_pos hk]
    · rename_i hk
      rw [if_neg hk]
      exact aligned.bound key p h
  · rw [held_removeVersion] at h
    rw [reporter?_removeVersion]
    split at h
    · cases h
    · rename_i hk
      rw [if_neg hk]
      exact aligned.present key h
  · rw [held_removeVersion] at h ⊢
    split at h
    · cases h
    · rw [if_neg fun same => by cases same]
      exact aligned.total store' version' h

theorem removeStore (aligned : r.Aligned) (store : String) : (r.removeStore store).Aligned := by
  refine ⟨aligned.toNeat.of_held rfl fun key id h => ?_, fun key p h => ?_, fun key h => ?_,
    fun store' version' h => ?_⟩
  · rw [held_removeStore] at h
    split at h
    · cases h
    · exact h
  · rw [reporter?_removeStore] at h
    rw [held_removeStore]
    split at h
    · rename_i hk
      obtain ⟨p', -, rfl⟩ := Option.map_eq_some_iff.mp h
      rw [if_pos hk]
    · rename_i hk
      rw [if_neg hk]
      exact aligned.bound key p h
  · rw [held_removeStore] at h
    rw [reporter?_removeStore]
    split at h
    · cases h
    · rename_i hk
      rw [if_neg hk]
      exact aligned.present key h
  · rw [held_removeStore] at h ⊢
    split at h
    · cases h
    · rename_i hk
      rw [if_neg hk]
      exact aligned.total store' version' h

theorem modifyReporter (aligned : r.Aligned) (key : ScopeKey) {f : Reporter S → Reporter S}
    (kept : ∀ p, (f p).bound = p.bound) : (r.modifyReporter key f).Aligned where
  toNeat := ⟨aligned.inRange, aligned.apart⟩
  bound key' p h := by
    rw [reporter?_modifyReporter] at h
    split at h
    · obtain ⟨p', hp, rfl⟩ := Option.map_eq_some_iff.mp h
      exact (kept p').trans (aligned.bound key' p' hp)
    · exact aligned.bound key' p h
  present key' h := by
    rw [reporter?_modifyReporter]
    split
    · rw [Option.isSome_map]
      exact aligned.present key' h
    · exact aligned.present key' h
  total := aligned.total

/-- A gauge reads the payload that its scope holds, or its default while there is none. -/
theorem read_fst (aligned : r.Aligned) (now : Int) (key : ScopeKey) (name : String) :
    (r.read now key name).1 = ((r.reporter? key).bind (·.gauges.find? name)).map fun g =>
      match r.payload? key with
      | some s => (g.read now s).1
      | none => .ok g.default := by
  unfold read
  cases hr : r.reporter? key with
  | none => rfl
  | some p =>
    have bound := aligned.bound key p hr
    cases hg : p.gauges.find? name with
    | none => simp [hg]
    | some g =>
      cases held : r.held.find? key with
      | none => simp [hg, bound, held, readGauge, payload?]
      | some id =>
        obtain ⟨s, stored, hs⟩ := aligned.toNeat.payload?_of_held held
        simp [hg, bound, held, readGauge, stored, hs]

end Aligned

/-! ## Calls -/

/-- A call on a registry, or on one of its reporters. -/
inductive Call (S : Type) where
  | getOrCreate (store : String) (version : UInt32) (fresh : S)
  | withBoth (store : String) (version : UInt32) (f : S → S)
  | removeVersion (store : String) (version : UInt32)
  | removeStore (store : String)
  | register (key : ScopeKey) (name : String) (g : Gauge S)
  | registerOnce (key : ScopeKey) (group : String) (gauges : List (String × Gauge S))

/-- The registry after a call. -/
def after (r : Registry S) : Call S → Registry S
  | .getOrCreate store version fresh => r.getOrCreate store version fresh
  | .withBoth store version f => r.withBoth store version f
  | .removeVersion store version => (r.removeVersion store version).2
  | .removeStore store => r.removeStore store
  | .register key name g => r.modifyReporter key (·.register name g)
  | .registerOnce key group gauges => r.modifyReporter key fun p => (p.registerOnce group gauges).2

/-- The registry after some calls. -/
def afterAll (r : Registry S) (calls : List (Call S)) : Registry S := calls.foldl after r

theorem Aligned.after (aligned : r.Aligned) (c : Call S) : (r.after c).Aligned := by
  cases c with
  | getOrCreate store version fresh => exact aligned.getOrCreate store version fresh
  | withBoth store version f => exact aligned.withBoth store version f
  | removeVersion store version => exact aligned.removeVersion store version
  | removeStore store => exact aligned.removeStore store
  | register key name g => exact aligned.modifyReporter key fun _ => rfl
  | registerOnce key group gauges =>
    exact aligned.modifyReporter key fun p => p.bound_registerOnce group gauges

/-- What a call makes of a reporter, if there is one, whatever it is bound to. -/
def Call.amend (baseGauges : List (String × Gauge S)) (key : ScopeKey) (p : Option (Reporter S)) :
    Call S → Option (Reporter S)
  | .getOrCreate store version _ =>
    if Covers store version key then some (p.getD (Reporter.empty.registerAll baseGauges)) else p
  | .register key' name g => if key = key' then p.map (·.register name g) else p
  | .registerOnce key' group gauges =>
    if key = key' then p.map fun p => (p.registerOnce group gauges).2 else p
  | _ => p

theorem reporter?_after (neat : r.Neat) (c : Call S) (key : ScopeKey) : ∃ bound,
    (r.after c).reporter? key =
      (c.amend r.baseGauges key (r.reporter? key)).map fun p => { p with bound } := by
  have same := Reporter.exists_bound (S := S)
  cases c with
  | getOrCreate store version fresh =>
    obtain ⟨-, made, others⟩ := neat.getOrCreate store version fresh
    simp only [Call.amend]
    by_cases covers : Covers store version key
    · obtain ⟨id, -, reporter⟩ := made key covers
      rw [if_pos covers]
      exact ⟨some id, reporter⟩
    · rw [if_neg covers]
      obtain ⟨bound, h⟩ := same (r.reporter? key)
      exact ⟨bound, (others key covers).2.trans h⟩
  | withBoth store version f =>
    obtain ⟨bound, h⟩ := same (r.reporter? key)
    exact ⟨bound, (reporter?_withBoth r store version key f).trans h⟩
  | removeVersion store version =>
    have removed := reporter?_removeVersion r store version key
    split at removed
    · exact ⟨none, removed⟩
    · obtain ⟨bound, h⟩ := same (r.reporter? key)
      exact ⟨bound, removed.trans h⟩
  | removeStore store =>
    have removed := reporter?_removeStore r store key
    split at removed
    · exact ⟨none, removed⟩
    · obtain ⟨bound, h⟩ := same (r.reporter? key)
      exact ⟨bound, removed.trans h⟩
  | register key' name g =>
    obtain ⟨bound, h⟩ := same
      (Call.amend r.baseGauges key (r.reporter? key) (.register key' name g))
    exact ⟨bound, (reporter?_modifyReporter r key' key _).trans h⟩
  | registerOnce key' group gauges =>
    obtain ⟨bound, h⟩ :=
      same (Call.amend r.baseGauges key (r.reporter? key) (.registerOnce key' group gauges))
    exact ⟨bound, (reporter?_modifyReporter r key' key _).trans h⟩

/-! ## What a reporter is given -/

/-- Whether a reporter adds the gauges of a group when it is told to. -/
def adds (r : Registry S) (key : ScopeKey) (group : String)
    (gauges : List (String × Gauge S)) : Bool :=
  (r.reporter? key).any fun p => (p.registerOnce group gauges).1

/-- The gauges that a call gives to a reporter. -/
def given (r : Registry S) (key : ScopeKey) : Call S → List (String × Gauge S)
  | .getOrCreate store version _ =>
    if Covers store version key ∧ (r.reporter? key).isNone then r.baseGauges else []
  | .register key' name g => if key = key' ∧ (r.reporter? key).isSome then [(name, g)] else []
  | .registerOnce key' group gauges => if key = key' ∧ r.adds key group gauges then gauges else []
  | _ => []

/-- The group that a reporter adds in a call, if it adds one. -/
def ran (r : Registry S) (key : ScopeKey) : Call S → List String
  | .registerOnce key' group gauges => if key = key' ∧ r.adds key group gauges then [group] else []
  | _ => []

/-- The gauges that some calls give to a reporter, in order. -/
def givenAll (r : Registry S) (key : ScopeKey) : List (Call S) → List (String × Gauge S)
  | [] => []
  | c :: rest => r.given key c ++ (r.after c).givenAll key rest

/-- The groups that a reporter adds in some calls, in order. -/
def ranAll (r : Registry S) (key : ScopeKey) : List (Call S) → List String
  | [] => []
  | c :: rest => r.ran key c ++ (r.after c).ranAll key rest

/-- What a reporter shows under a name. -/
def gauge? (r : Registry S) (key : ScopeKey) (name : String) : Option (Gauge S) :=
  (r.reporter? key).bind (·.gauges.find? name)

/-- Whether a reporter knows a group. -/
def knows (r : Registry S) (key : ScopeKey) (group : String) : Bool :=
  (r.reporter? key).any (·.groups.contains group)

/-- A call makes sure that a scope has a payload. -/
def Call.AsksFor (key : ScopeKey) : Call S → Prop
  | .getOrCreate store version _ => Covers store version key
  | _ => False

/-! ## One call -/

theorem isSome_reporter?_after (neat : r.Neat) (c : Call S) (key : ScopeKey) :
    ((r.after c).reporter? key).isSome = true ↔
      (r.reporter? key).isSome = true ∨ c.AsksFor key := by
  obtain ⟨bound, h⟩ := reporter?_after neat c key
  rw [h, Option.isSome_map]
  cases c with
  | getOrCreate store version fresh =>
    simp only [Call.amend, Call.AsksFor]
    by_cases covers : Covers store version key <;> simp [covers]
  | register key' name g | registerOnce key' group gauges =>
    simp only [Call.amend, Call.AsksFor]
    by_cases hk : key = key' <;> simp [hk]
  | _ => simp [Call.amend, Call.AsksFor]

/-- What a reporter shows stays, and of what it is given the first gauge of a new name is shown. -/
theorem gauge?_after (neat : r.Neat) (c : Call S) (key : ScopeKey) (name : String) :
    (r.after c).gauge? key name = (r.gauge? key name).or (gaugeOf? (r.given key c) name) := by
  obtain ⟨bound, h⟩ := reporter?_after neat c key
  have amended : (r.after c).gauge? key name =
      (c.amend r.baseGauges key (r.reporter? key)).bind (·.gauges.find? name) := by
    rw [gauge?, h, Option.bind_map]
    rfl
  have nothing : ∀ g : Option (Gauge S), g = g.or (gaugeOf? [] name) := fun g => Option.or_none.symm
  rw [amended, gauge?]
  cases c with
  | getOrCreate store version fresh =>
    simp only [Call.amend, given]
    by_cases covers : Covers store version key
    · cases r.reporter? key with
      | none =>
        have blank : (Reporter.empty : Reporter S).gauges.find? name = none := rfl
        simpa [covers, blank] using Reporter.find?_registerAll .empty r.baseGauges name
      | some p => simpa [covers] using nothing (p.gauges.find? name)
    · simpa [covers] using nothing _
  | register key' name' g =>
    simp only [Call.amend, given]
    by_cases hk : key = key'
    · cases r.reporter? key with
      | none => simpa using nothing none
      | some p =>
        have one : (p.register name' g).gauges.find? name =
            (p.gauges.find? name).or (gaugeOf? [(name', g)] name) :=
          p.find?_registerAll [(name', g)] name
        simpa [hk] using one
    · simpa [hk] using nothing _
  | registerOnce key' group gauges =>
    simp only [Call.amend, given]
    by_cases hk : key = key'
    · subst hk
      cases hr : r.reporter? key with
      | none => simpa [adds, hr] using nothing none
      | some p => simpa [adds, hr] using p.find?_registerOnce group gauges name
    · simpa [hk] using nothing _
  | _ => exact nothing _

/-- A group that is added is known from then on. -/
theorem knows_after (neat : r.Neat) (c : Call S) (key : ScopeKey) (group : String) :
    (r.after c).knows key group = true ↔ r.knows key group = true ∨ group ∈ r.ran key c := by
  obtain ⟨bound, h⟩ := reporter?_after neat c key
  have amended : (r.after c).knows key group =
      (c.amend r.baseGauges key (r.reporter? key)).any (·.groups.contains group) := by
    rw [knows, h, Option.any_map]
  rw [amended, knows]
  cases c with
  | getOrCreate store version fresh =>
    simp only [Call.amend, ran, List.not_mem_nil, or_false]
    by_cases covers : Covers store version key
    · cases r.reporter? key with
      | none =>
        have unknown : (Reporter.empty.registerAll r.baseGauges).groups =
            (SortedMap.empty : SortedSet String) := by
          rw [Reporter.registerAll_eq]
          rfl
        simp [covers, unknown, SortedMap.contains]
      | some p => simp [covers]
    · simp [covers]
  | register key' name g =>
    simp only [Call.amend, ran, List.not_mem_nil, or_false]
    by_cases hk : key = key'
    · cases r.reporter? key <;> simp [hk, Reporter.register]
    · simp [hk]
  | registerOnce key' group' gauges =>
    simp only [Call.amend, ran]
    by_cases hk : key = key'
    · subst hk
      cases hr : r.reporter? key with
      | none => simp [adds, hr]
      | some p =>
        have known := p.contains_groups_registerOnce group' group gauges
        by_cases hg : group = group'
        · subst hg
          cases before : p.groups.contains group <;>
            simp [adds, hr, known, before, Reporter.registerOnce_fst]
        · cases added : (p.registerOnce group' gauges).1 <;> simp [adds, hr, known, hg, added]
    · simp [hk]
  | _ => simp [Call.amend, ran]

/-- Only a group that is not known is added. -/
theorem knows_of_ran {c : Call S} {key : ScopeKey} {group : String} (h : group ∈ r.ran key c) :
    r.knows key group = false := by
  cases c with
  | registerOnce key' group' gauges =>
    simp only [ran] at h
    split at h
    · rename_i added
      cases List.mem_singleton.mp h
      have added := added.2
      unfold adds at added
      unfold knows
      cases hr : r.reporter? key with
      | none => rfl
      | some p => simpa [hr, Reporter.registerOnce_fst] using added
    · cases h
  | _ => cases h

theorem nodup_ran (r : Registry S) (key : ScopeKey) (c : Call S) : (r.ran key c).Nodup := by
  cases c with
  | registerOnce key' group gauges =>
    simp only [ran]
    split
    · simp
    · exact List.nodup_nil
  | _ => exact List.nodup_nil

/-! ## All calls -/

namespace Aligned

theorem afterAll (aligned : r.Aligned) (calls : List (Call S)) : (r.afterAll calls).Aligned := by
  induction calls generalizing r with
  | nil => exact aligned
  | cons c rest ih => exact ih (aligned.after c)

theorem isSome_reporter?_afterAll (aligned : r.Aligned) (calls : List (Call S)) (key : ScopeKey) :
    ((r.afterAll calls).reporter? key).isSome = true ↔
      (r.reporter? key).isSome = true ∨ ∃ c ∈ calls, c.AsksFor key := by
  induction calls generalizing r with
  | nil => simp [Registry.afterAll]
  | cons c rest ih =>
    refine (ih (aligned.after c)).trans ?_
    rw [isSome_reporter?_after aligned.toNeat]
    simp [or_assoc]

theorem gauge?_afterAll (aligned : r.Aligned) (calls : List (Call S))
    (key : ScopeKey) (name : String) :
    (r.afterAll calls).gauge? key name =
      (r.gauge? key name).or (gaugeOf? (r.givenAll key calls) name) := by
  induction calls generalizing r with
  | nil => exact Option.or_none.symm
  | cons c rest ih =>
    refine (ih (aligned.after c)).trans ?_
    rw [gauge?_after aligned.toNeat, Option.or_assoc, givenAll, gaugeOf?_append]

theorem knows_afterAll (aligned : r.Aligned) (calls : List (Call S))
    (key : ScopeKey) (group : String) :
    (r.afterAll calls).knows key group = true ↔
      r.knows key group = true ∨ group ∈ r.ranAll key calls := by
  induction calls generalizing r with
  | nil => simp [Registry.afterAll, ranAll]
  | cons c rest ih =>
    refine (ih (aligned.after c)).trans ?_
    rw [knows_after aligned.toNeat, or_assoc, ranAll, List.mem_append]

/-- No group that is known is added again. -/
theorem nodup_ranAll (aligned : r.Aligned) (calls : List (Call S)) (key : ScopeKey) :
    (r.ranAll key calls).Nodup ∧ ∀ group ∈ r.ranAll key calls, r.knows key group = false := by
  induction calls generalizing r with
  | nil => exact ⟨List.nodup_nil, fun group h => by cases h⟩
  | cons c rest ih =>
    obtain ⟨nodup, unknown⟩ := ih (aligned.after c)
    have before : ∀ group ∈ (r.after c).ranAll key rest,
        r.knows key group = false ∧ group ∉ r.ran key c := by
      intro group h
      have not := mt (knows_after aligned.toNeat c key group).mpr
        (Bool.eq_false_iff.mp (unknown group h))
      rw [not_or] at not
      exact ⟨Bool.eq_false_iff.mpr not.1, not.2⟩
    rw [ranAll]
    refine ⟨List.nodup_append.mpr ⟨r.nodup_ran key c, nodup, fun group h group' h' => ?_⟩,
      fun group h => ?_⟩
    · rintro rfl
      exact (before group h').2 h
    · rcases List.mem_append.mp h with now | later
      · exact knows_of_ran now
      · exact (before group later).1

end Aligned

/-- What holds of a registry after some calls, where nothing was before. -/
structure Follows (baseGauges : List (String × Gauge S)) (calls : List (Call S)) (r : Registry S) :
    Prop where
  /-- A version has a reporter if it was asked for at some time, -/
  versions : ∀ store version, (r.reporter? ⟨store, .version version⟩).isSome = true ↔
    ∃ fresh, .getOrCreate store version fresh ∈ calls
  /-- and so has a store. -/
  totals : ∀ store, (r.reporter? ⟨store, .total⟩).isSome = true ↔
    ∃ version fresh, .getOrCreate store version fresh ∈ calls
  bound : ∀ key p, r.reporter? key = some p → p.bound = r.held.find? key
  total : ∀ store version, (r.held.find? ⟨store, .version version⟩).isSome = true →
    (r.held.find? ⟨store, .total⟩).isSome = true
  /-- No group is added twice, -/
  once : ∀ key, ((empty baseGauges).ranAll key calls).Nodup
  /-- and the groups that a reporter knows are those that it added. -/
  groups : ∀ key group, r.knows key group = true ↔ group ∈ (empty baseGauges).ranAll key calls
  /-- Of the gauges that a reporter was given the first one of a name is there, -/
  first : ∀ key name, r.gauge? key name = gaugeOf? ((empty baseGauges).givenAll key calls) name
  /-- and has been since it was there. -/
  kept : ∀ earlier later, calls = earlier ++ later → ∀ key name g,
    ((empty baseGauges).afterAll earlier).gauge? key name = some g → r.gauge? key name = some g
  /-- It reads the payload that the scope holds, or its default. -/
  reads : ∀ now key name, (r.read now key name).1 =
    (gaugeOf? ((empty baseGauges).givenAll key calls) name).map fun g =>
      match r.payload? key with
      | some s => (g.read now s).1
      | none => .ok g.default

theorem afterAll_append (r : Registry S) (calls calls' : List (Call S)) :
    r.afterAll (calls ++ calls') = (r.afterAll calls).afterAll calls' := List.foldl_append

theorem gauge?_empty (baseGauges : List (String × Gauge S)) (calls : List (Call S)) (key : ScopeKey)
    (name : String) : ((empty baseGauges).afterAll calls).gauge? key name =
      gaugeOf? ((empty baseGauges).givenAll key calls) name :=
  (aligned_empty baseGauges).gauge?_afterAll calls key name

/-- Whatever is asked of a registry, its reporters follow it. -/
theorem reporters_follow (baseGauges : List (String × Gauge S)) (calls : List (Call S)) :
    Follows baseGauges calls ((empty baseGauges).afterAll calls) := by
  have initial := aligned_empty baseGauges
  have aligned := initial.afterAll calls
  have asked := fun key => (initial.isSome_reporter?_afterAll calls key).trans
    (or_iff_right Bool.false_ne_true)
  refine
    { versions := fun store version => (asked _).trans ⟨?_, ?_⟩
      totals := fun store => (asked _).trans ⟨?_, ?_⟩
      bound := aligned.bound
      total := aligned.total
      once := fun key => (initial.nodup_ranAll calls key).1
      groups := fun key group =>
        (initial.knows_afterAll calls key group).trans (or_iff_right Bool.false_ne_true)
      first := gauge?_empty baseGauges calls
      kept := ?_
      reads := fun now key name => ?_ }
  · rintro ⟨c, hc, asks⟩
    cases c with
    | getOrCreate store' version' fresh =>
      rcases asks with same | same
      · cases same
      · cases same
        exact ⟨fresh, hc⟩
    | _ => cases asks
  · rintro ⟨fresh, hc⟩
    exact ⟨_, hc, .inr rfl⟩
  · rintro ⟨c, hc, asks⟩
    cases c with
    | getOrCreate store' version' fresh =>
      rcases asks with same | same
      · cases same
        exact ⟨version', fresh, hc⟩
      · cases same
    | _ => cases asks
  · rintro ⟨version, fresh, hc⟩
    exact ⟨_, hc, .inl rfl⟩
  · rintro earlier later rfl key name g there
    rw [afterAll_append, (initial.afterAll earlier).gauge?_afterAll, there]
    rfl
  · rw [← gauge?_empty baseGauges calls]
    exact aligned.read_fst now key name

end Registry

end StoreFeed.Stats
