import StoreFeed.Proofs.SortedMap
import StoreFeed.Stats.Registry

/-!
# Payloads of a registry

As long as no version and no store is removed, every scope that has a payload has one of its own,
and its reporter is bound to it (`Registry.Sound`). Then what is done to one payload reaches no
other, and a gauge reads the payload of its scope.
-/

namespace StoreFeed.Stats

namespace Registry

variable {S : Type}

/-- Every scope that has a payload has one of its own. -/
structure Neat (r : Registry S) : Prop where
  inRange : ∀ key id, r.held.find? key = some id → id < r.payloads.size
  apart : ∀ key key' id, r.held.find? key = some id → r.held.find? key' = some id → key = key'

/-- Reporters are bound to the payloads of their scopes. -/
structure Sound (r : Registry S) : Prop extends r.Neat where
  bound : ∀ key id, r.held.find? key = some id →
    ∃ reporter, r.reporter? key = some reporter ∧ reporter.bound = some id
  listed : ∀ key reporter, r.reporter? key = some reporter → ∃ id, r.held.find? key = some id

variable {r : Registry S} {key : ScopeKey}

theorem sound_empty (baseGauges : List (String × Gauge S)) : (empty baseGauges).Sound where
  inRange key id h := by simp [empty] at h
  apart key key' id h := by simp [empty] at h
  bound key id h := by simp [empty] at h
  listed key reporter h := by simp [empty, reporter?] at h

theorem Neat.payload?_of_held (neat : r.Neat) {id : PayloadId} (h : r.held.find? key = some id) :
    ∃ payload, r.payloads[id]? = some payload ∧ r.payload? key = some payload := by
  have hlt := neat.inRange key id h
  refine ⟨r.payloads[id], Array.getElem?_eq_getElem hlt, ?_⟩
  rw [payload?, h]
  exact Array.getElem?_eq_getElem hlt

theorem Neat.isSome_payload? (neat : r.Neat) (key : ScopeKey) :
    (r.payload? key).isSome = (r.held.find? key).isSome := by
  cases h : r.held.find? key with
  | none => simp [payload?, h]
  | some id =>
    obtain ⟨payload, -, hp⟩ := neat.payload?_of_held h
    rw [hp]
    rfl

/-! ## Changing payloads -/

theorem Neat.payload?_modifyHeld (neat : r.Neat) (key' : ScopeKey) (f : S → S) :
    (r.modifyHeld key f).payload? key' =
      if key' = key then (r.payload? key').map f else r.payload? key' := by
  unfold modifyHeld
  cases h : r.held.find? key with
  | none =>
    by_cases hk : key' = key
    · subst hk
      simp [payload?, h]
    · simp [hk]
  | some id =>
    dsimp only [modifyPayload, payload?]
    cases h' : r.held.find? key' with
    | none => simp
    | some id' =>
      rw [Option.bind_some, Option.bind_some, Array.getElem?_modify]
      by_cases hk : key' = key
      · subst hk
        cases h.symm.trans h'
        rw [if_pos rfl, if_pos rfl]
      · have other : id ≠ id' := by
          rintro rfl
          exact hk (neat.apart key' key id h' h)
        rw [if_neg hk, if_neg other]

theorem Neat.modifyHeld (neat : r.Neat) (key : ScopeKey) (f : S → S) :
    (r.modifyHeld key f).Neat := by
  unfold Registry.modifyHeld
  split
  · exact ⟨fun key id h => by simpa [modifyPayload] using neat.inRange key id h, neat.apart⟩
  · exact neat

theorem reporter?_modifyHeld (r : Registry S) (key key' : ScopeKey) (f : S → S) :
    (r.modifyHeld key f).reporter? key' = r.reporter? key' := by
  unfold modifyHeld
  split <;> rfl

theorem held_modifyHeld (r : Registry S) (key : ScopeKey) (f : S → S) :
    (r.modifyHeld key f).held = r.held := by
  unfold modifyHeld
  split <;> rfl

theorem baseGauges_modifyHeld (r : Registry S) (key : ScopeKey) (f : S → S) :
    (r.modifyHeld key f).baseGauges = r.baseGauges := by
  unfold modifyHeld
  split <;> rfl

theorem Sound.modifyHeld (sound : r.Sound) (key : ScopeKey) (f : S → S) :
    (r.modifyHeld key f).Sound where
  toNeat := sound.toNeat.modifyHeld key f
  bound key' id h := by
    rw [held_modifyHeld] at h
    rw [reporter?_modifyHeld]
    exact sound.bound key' id h
  listed key' reporter h := by
    rw [reporter?_modifyHeld] at h
    rw [held_modifyHeld]
    exact sound.listed key' reporter h

/-- The scopes that a version is recorded in. -/
def Covers (store : String) (version : UInt32) (key : ScopeKey) : Prop :=
  key = ⟨store, .total⟩ ∨ key = ⟨store, .version version⟩

instance (store : String) (version : UInt32) (key : ScopeKey) :
    Decidable (Covers store version key) :=
  inferInstanceAs (Decidable (_ ∨ _))

theorem covers_total {store store' : String} {version : UInt32} :
    Covers store version ⟨store', .total⟩ ↔ store' = store := by
  simp [Covers]

theorem covers_version {store store' : String} {version version' : UInt32} :
    Covers store version ⟨store', .version version'⟩ ↔ store' = store ∧ version' = version := by
  simp [Covers]

theorem Neat.payload?_withBoth (neat : r.Neat) (store : String) (version : UInt32) (key : ScopeKey)
    (f : S → S) : (r.withBoth store version f).payload? key =
      if Covers store version key then (r.payload? key).map f else r.payload? key := by
  unfold withBoth Covers
  rw [(neat.modifyHeld _ f).payload?_modifyHeld, neat.payload?_modifyHeld]
  by_cases ht : key = ⟨store, .total⟩
  · subst ht
    simp
  · simp [ht]

theorem Sound.withBoth (sound : r.Sound) (store : String) (version : UInt32) (f : S → S) :
    (r.withBoth store version f).Sound := (sound.modifyHeld _ f).modifyHeld _ f

theorem reporter?_withBoth (r : Registry S) (store : String) (version : UInt32) (key : ScopeKey)
    (f : S → S) : (r.withBoth store version f).reporter? key = r.reporter? key := by
  unfold withBoth
  rw [reporter?_modifyHeld, reporter?_modifyHeld]

theorem baseGauges_withBoth (r : Registry S) (store : String) (version : UInt32) (f : S → S) :
    (r.withBoth store version f).baseGauges = r.baseGauges := by
  unfold withBoth
  rw [baseGauges_modifyHeld, baseGauges_modifyHeld]

/-! ## Registering a version -/

theorem baseGauges_hold (r : Registry S) (key : ScopeKey) (fresh : S) :
    (r.hold key fresh).2.baseGauges = r.baseGauges := by
  unfold hold
  split <;> rfl

/-- A scope with a payload of its own, behind all that there are. -/
def put (r : Registry S) (key : ScopeKey) (fresh : S) : Registry S :=
  { (r.create fresh).2 with held := r.held.insert key r.payloads.size }

theorem hold_of_none {key : ScopeKey} (h : r.held.find? key = none) (fresh : S) :
    r.hold key fresh = (r.payloads.size, r.put key fresh) := by
  unfold Registry.hold
  rw [h]
  rfl

theorem hold_of_some {key : ScopeKey} {id : PayloadId} (h : r.held.find? key = some id)
    (fresh : S) :
    r.hold key fresh = (id, r) := by
  unfold Registry.hold
  rw [h]

theorem held_put_self (r : Registry S) (key : ScopeKey) (fresh : S) :
    (r.put key fresh).held.find? key = some r.payloads.size := SortedMap.find?_insert_self _ _ _

theorem held_put_of_ne {key key' : ScopeKey} (h : key' ≠ key) (fresh : S) :
    (r.put key fresh).held.find? key' = r.held.find? key' := SortedMap.find?_insert_of_ne _ h _

theorem Neat.ne_size (neat : r.Neat) {key : ScopeKey} {id : PayloadId}
    (h : r.held.find? key = some id) :
    id ≠ r.payloads.size := Nat.ne_of_lt (neat.inRange key id h)

theorem Neat.put (neat : r.Neat) (key : ScopeKey) (fresh : S) : (r.put key fresh).Neat where
  inRange key' id hid := by
    have size : (r.put key fresh).payloads.size = r.payloads.size + 1 := Array.size_push _
    rw [size]
    by_cases hk : key' = key
    · subst hk
      cases (r.held_put_self key' fresh).symm.trans hid
      exact Nat.lt_succ_self _
    · rw [held_put_of_ne hk] at hid
      exact Nat.lt_succ_of_lt (neat.inRange key' id hid)
  apart key₁ key₂ id h₁ h₂ := by
    by_cases hk₁ : key₁ = key
    · subst hk₁
      cases (r.held_put_self key₁ fresh).symm.trans h₁
      by_cases hk₂ : key₂ = key₁
      · exact hk₂.symm
      · rw [held_put_of_ne hk₂] at h₂
        exact absurd rfl (neat.ne_size h₂)
    · rw [held_put_of_ne hk₁] at h₁
      by_cases hk₂ : key₂ = key
      · subst hk₂
        cases (r.held_put_self key₂ fresh).symm.trans h₂
        exact absurd rfl (neat.ne_size h₁)
      · rw [held_put_of_ne hk₂] at h₂
        exact neat.apart key₁ key₂ id h₁ h₂

theorem Neat.payload?_put (neat : r.Neat) (key key' : ScopeKey) (fresh : S) :
    (r.put key fresh).payload? key' = if key' = key then some fresh else r.payload? key' := by
  unfold payload?
  by_cases hk : key' = key
  · subst hk
    rw [held_put_self, if_pos rfl]
    exact Array.getElem?_push_size
  · rw [held_put_of_ne hk, if_neg hk]
    cases h : r.held.find? key' with
    | none => rfl
    | some id => exact (Array.getElem?_push).trans (if_neg (neat.ne_size h))

/-- A scope that lacks a payload gets a fresh one. -/
theorem Neat.hold (neat : r.Neat) (key : ScopeKey) (fresh : S) :
    (r.hold key fresh).2.Neat ∧ (r.hold key fresh).2.held.find? key = some (r.hold key fresh).1 ∧
      (∀ key', key' ≠ key → (r.hold key fresh).2.held.find? key' = r.held.find? key') ∧
      (∀ key', (r.hold key fresh).2.payload? key' =
        if key' = key then some ((r.payload? key').getD fresh) else r.payload? key') ∧
      (r.hold key fresh).2.reporters = r.reporters := by
  cases h : r.held.find? key with
  | some id =>
    rw [hold_of_some h]
    refine ⟨neat, h, fun _ _ => rfl, fun key' => ?_, rfl⟩
    by_cases hk : key' = key
    · subst hk
      obtain ⟨payload, _, hp⟩ := neat.payload?_of_held h
      simp [hp]
    · rw [if_neg hk]
  | none =>
    rw [hold_of_none h]
    refine ⟨neat.put key fresh, r.held_put_self key fresh, fun _ hk => held_put_of_ne hk fresh,
      fun key' => (neat.payload?_put key key' fresh).trans ?_, rfl⟩
    by_cases hk : key' = key
    · subst hk
      simp [payload?, h]
    · rw [if_neg hk, if_neg hk]

/-- A version that is registered has a payload, like its store, and both keep what they have. -/
theorem Neat.payload?_getOrCreate (neat : r.Neat) (store : String) (version : UInt32) (fresh : S)
    (key : ScopeKey) : (r.getOrCreate store version fresh).payload? key =
      if Covers store version key then some ((r.payload? key).getD fresh) else r.payload? key := by
  obtain ⟨neat₁, _, _, payload₁, _⟩ := neat.hold ⟨store, .version version⟩ fresh
  obtain ⟨_, _, _, payload₂, _⟩ := neat₁.hold ⟨store, .total⟩ fresh
  have same : (r.getOrCreate store version fresh).payload? key =
      (((r.hold ⟨store, .version version⟩ fresh).2.hold ⟨store, .total⟩ fresh).2).payload? key := by
    rfl
  rw [same, payload₂, payload₁]
  unfold Covers
  by_cases ht : key = ⟨store, .total⟩
  · subst ht
    simp
  · simp [ht]

/-- The scopes of a registered version have payloads, and their reporters are bound to them. A
reporter that is new has the gauges that all start with. -/
theorem Neat.getOrCreate (neat : r.Neat) (store : String) (version : UInt32) (fresh : S) :
    (r.getOrCreate store version fresh).Neat ∧
      (∀ key, Covers store version key →
        ∃ id, (r.getOrCreate store version fresh).held.find? key = some id ∧
          (r.getOrCreate store version fresh).reporter? key =
            some { (r.reporter? key).getD (Reporter.empty.registerAll r.baseGauges) with
              bound := some id }) ∧
      ∀ key, ¬ Covers store version key →
        (r.getOrCreate store version fresh).held.find? key = r.held.find? key ∧
          (r.getOrCreate store version fresh).reporter? key = r.reporter? key := by
  obtain ⟨neat₁, held₁, old₁, _, same₁⟩ := neat.hold ⟨store, .version version⟩ fresh
  obtain ⟨neat₂, held₂, old₂, _, same₂⟩ := neat₁.hold ⟨store, .total⟩ fresh
  have base₁ := r.baseGauges_hold ⟨store, .version version⟩ fresh
  have base₂ := (r.hold ⟨store, .version version⟩ fresh).2.baseGauges_hold ⟨store, .total⟩ fresh
  unfold Registry.getOrCreate
  generalize r.hold ⟨store, .version version⟩ fresh = v at *
  obtain ⟨v, r₁⟩ := v
  dsimp only at *
  generalize r₁.hold ⟨store, .total⟩ fresh = t at *
  obtain ⟨t, r₂⟩ := t
  dsimp only at *
  have apart : (⟨store, .version version⟩ : ScopeKey) ≠ ⟨store, .total⟩ := fun h => by cases h
  refine ⟨⟨neat₂.inRange, neat₂.apart⟩, fun key covers => ?_, fun key other => ?_⟩
  · unfold attach reporter?
    dsimp only
    rcases covers with rfl | rfl
    · refine ⟨t, held₂, ?_⟩
      rw [SortedMap.find?_insert_self, SortedMap.find?_insert_of_ne _ apart.symm, same₂,
        same₁, base₂, base₁]
    · refine ⟨v, (old₂ _ apart).trans held₁, ?_⟩
      rw [SortedMap.find?_insert_of_ne _ apart, SortedMap.find?_insert_self,
        same₂, same₁, base₂, base₁]
  · have ht : key ≠ ⟨store, .total⟩ := fun h => other (.inl h)
    have hv : key ≠ ⟨store, .version version⟩ := fun h => other (.inr h)
    refine ⟨(old₂ key ht).trans (old₁ key hv), ?_⟩
    unfold attach reporter?
    dsimp only
    rw [SortedMap.find?_insert_of_ne _ ht, SortedMap.find?_insert_of_ne _ hv, same₂, same₁]

theorem Sound.getOrCreate (sound : r.Sound) (store : String) (version : UInt32) (fresh : S) :
    (r.getOrCreate store version fresh).Sound := by
  obtain ⟨neat, bound, same⟩ := sound.toNeat.getOrCreate store version fresh
  refine ⟨neat, fun key id h => ?_, fun key reporter h => ?_⟩
  · by_cases covers : Covers store version key
    · obtain ⟨id', held, reporter⟩ := bound key covers
      cases held.symm.trans h
      exact ⟨_, reporter, rfl⟩
    · obtain ⟨held, reporter⟩ := same key covers
      rw [reporter]
      exact sound.bound key id (held.symm.trans h)
  · by_cases covers : Covers store version key
    · obtain ⟨id, held, -⟩ := bound key covers
      exact ⟨id, held⟩
    · obtain ⟨held, same⟩ := same key covers
      rw [same] at h
      obtain ⟨id, hid⟩ := sound.listed key reporter h
      exact ⟨id, held.trans hid⟩

theorem baseGauges_getOrCreate (r : Registry S) (store : String) (version : UInt32) (fresh : S) :
    (r.getOrCreate store version fresh).baseGauges = r.baseGauges :=
  (baseGauges_hold _ _ _).trans (baseGauges_hold r _ _)

/-! ## Reporters -/

theorem baseGauges_modifyReporter (r : Registry S) (key : ScopeKey) (f : Reporter S → Reporter S) :
    (r.modifyReporter key f).baseGauges = r.baseGauges := rfl

theorem reporter?_modifyReporter (r : Registry S) (key key' : ScopeKey)
    (f : Reporter S → Reporter S) :
    (r.modifyReporter key f).reporter? key' =
      if key' = key then (r.reporter? key').map f else r.reporter? key' :=
  SortedMap.find?_modify _ _ _ _

theorem payload?_modifyReporter (r : Registry S) (key key' : ScopeKey)
    (f : Reporter S → Reporter S) :
    (r.modifyReporter key f).payload? key' = r.payload? key' := rfl

theorem Sound.modifyReporter (sound : r.Sound) (key : ScopeKey) {f : Reporter S → Reporter S}
    (kept : ∀ reporter, (f reporter).bound = reporter.bound) : (r.modifyReporter key f).Sound where
  toNeat := ⟨sound.inRange, sound.apart⟩
  bound key' id h := by
    obtain ⟨reporter, hr, hb⟩ := sound.bound key' id h
    rw [reporter?_modifyReporter, hr]
    split
    · exact ⟨f reporter, rfl, (kept reporter).trans hb⟩
    · exact ⟨reporter, rfl, hb⟩
  listed key' reporter h := by
    rw [reporter?_modifyReporter] at h
    split at h
    · obtain ⟨old, hold, _⟩ := Option.map_eq_some_iff.mp h
      exact sound.listed key' old hold
    · exact sound.listed key' reporter h

/-- A gauge reads the payload of its scope. -/
theorem Sound.read_fst (sound : r.Sound) (now : Int) (key : ScopeKey) (name : String) :
    (r.read now key name).1 = (r.payload? key).bind fun payload =>
      ((r.reporter? key).bind (·.gauges.find? name)).map fun g => (g.read now payload).1 := by
  unfold read
  cases hr : r.reporter? key with
  | none => simp
  | some reporter =>
    obtain ⟨id, held⟩ := sound.listed key reporter hr
    obtain ⟨reporter', hr', bound⟩ := sound.bound key id held
    cases hr.symm.trans hr'
    obtain ⟨payload, stored, hp⟩ := sound.toNeat.payload?_of_held held
    rw [hp]
    cases hg : reporter.gauges.find? name with
    | none => simp [hg]
    | some g => simp [hg, bound, readGauge, stored]

end Registry

end StoreFeed.Stats
