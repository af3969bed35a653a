import StoreFeed.Proofs.Update.Kinds

/-!
# Merging the end of a sequence again

Updates meet other values when they are merged again on top of their own result. But each operation
either leaves what can be observed of a field alone or decides it: whether a list has an element,
what a map holds under a key, the whole of a scalar. So the last operation that decides an
observation decides it again (`Overwrites.again`), and only the order of lists is lost
(`replay_suffix`).
-/

namespace StoreFeed

open Json

theorem foldlM_cons_ok {α σ ε : Type} {step : σ → α → Except ε σ} {a : α} {l : List α} {s s' : σ} :
    (a :: l).foldlM step s = .ok s' ↔ ∃ mid, step s a = .ok mid ∧ l.foldlM step mid = .ok s' := by
  rw [List.foldlM_cons]
  cases step s a with
  | error e => exact ⟨nofun, fun ⟨_, h, _⟩ => nomatch h⟩
  | ok mid => exact ⟨fun h => ⟨mid, rfl, h⟩, fun ⟨_, h, rest⟩ => by cases h; exact rest⟩

/-! ## Steps that overwrite -/

section Overwrites

variable {α β σ ε : Type} {step : σ → Except ε σ} {obs : σ → β} {s s' s'' : σ}

/-- A step leaves an observation alone, or decides it whatever it was. -/
def Overwrites (step : σ → Except ε σ) (obs : σ → β) : Prop :=
  (∀ s s', step s = .ok s' → obs s' = obs s) ∨ ∃ b, ∀ s s', step s = .ok s' → obs s' = b

theorem Overwrites.again (h : Overwrites step obs) (once : step s = .ok s')
    (twice : step s' = .ok s'') :
    obs s'' = obs s' := by
  rcases h with same | ⟨b, decided⟩
  · exact same _ _ twice
  · exact (decided _ _ twice).trans (decided _ _ once).symm

/-- Steps that overwrite an observation overwrite it together. -/
theorem Overwrites.foldlM {step : σ → α → Except ε σ} {l : List α}
    (each : ∀ a ∈ l, Overwrites (step · a) obs) : Overwrites (fun s => l.foldlM step s) obs := by
  induction l with
  | nil => exact .inl fun s s' h => by cases h; rfl
  | cons a l ih =>
    rcases ih fun a' ha' => each a' (List.mem_cons_of_mem a ha') with same | ⟨b, decided⟩
    · -- The later steps leave alone what the first one does.
      have asFirst : ∀ s s', (a :: l).foldlM step s = .ok s' →
          ∃ mid, step s a = .ok mid ∧ obs s' = obs mid := by
        intro s s' h
        obtain ⟨mid, once, rest⟩ := foldlM_cons_ok.mp h
        exact ⟨mid, once, same mid s' rest⟩
      rcases each a List.mem_cons_self with first | ⟨b, first⟩
      · refine .inl fun s s' h => ?_
        obtain ⟨mid, once, kept⟩ := asFirst s s' h
        exact kept.trans (first s mid once)
      · refine .inr ⟨b, fun s s' h => ?_⟩
        obtain ⟨mid, once, kept⟩ := asFirst s s' h
        exact kept.trans (first s mid once)
    · refine .inr ⟨b, fun s s' h => ?_⟩
      obtain ⟨mid, -, rest⟩ := foldlM_cons_ok.mp h
      exact decided mid s' rest

end Overwrites

/-! ## One field -/

/-- What a field holds, but for the items of a list and the members of a map. -/
def FieldKind.outline : FieldKind → Option Value → Option Value
  | .list, some (.arr _) => some (.arr [])
  | .map, some (.obj _) => some (.obj [])
  | _, held => held

/-- Whether a field holds an array that has an item. -/
def hasItem (x : Value) : Option Value → Bool
  | some (.arr items) => items.contains x
  | _ => false

/-- What a field holds under a key of an object. -/
def memberAt (key : String) (held : Option Value) : Option Value := held.bind (·.member? key)

namespace FieldUpdate

variable {β : Type} {op : FieldUpdate} {ops : List FieldUpdate} {kind : FieldKind} {field : String}
  {held held' held'' : Option Value}

/-- What a field holds after some operations. -/
def editAll (field : String) (ops : List FieldUpdate) (held : Option Value) :
    Except DataError (Option Value) :=
  ops.foldlM (fun held op => op.edit field held) held

theorem overwrites_of_unneeded (h : op.neededKind? = none) (obs : Option Value → β) :
    Overwrites (op.edit field) obs := by
  cases op with
  | noOp => exact .inl fun s s' h => by cases h; rfl
  | set value => exact .inr ⟨obs (some value), fun s s' h => by cases h; rfl⟩
  | listOps add remove => cases h
  | mapOps put remove => cases h

theorem contains_of_listOf {items : List Value} (h : listOf field held = .ok items) (x : Value) :
    items.contains x = hasItem x held := by
  unfold listOf at h
  split at h <;> cases h <;> rfl

theorem find?_of_mapOf {entries : Entries String Value} (h : mapOf field held = .ok entries)
    (key : String) : entries.find? key = memberAt key held := by
  unfold mapOf at h
  split at h <;> cases h <;> rfl

theorem overwrites_outline (needs : op.IsFor kind) : Overwrites (op.edit field) kind.outline := by
  rcases needs with none | own
  · exact overwrites_of_unneeded none _
  · cases op with
    | noOp => cases own
    | set value => cases own
    | listOps add remove =>
      cases own
      refine .inr ⟨some (.arr []), fun s s' h => ?_⟩
      obtain ⟨items, -, rfl⟩ := listOps_cases h
      rfl
    | mapOps put remove =>
      cases own
      refine .inr ⟨some (.obj []), fun s s' h => ?_⟩
      obtain ⟨entries, -, rfl⟩ := mapOps_cases h
      rfl

/-- An operation for a list overwrites whether it has an item. -/
theorem overwrites_hasItem (needs : op.IsFor .list) (x : Value) :
    Overwrites (op.edit field) (hasItem x) := by
  rcases needs with none | own
  · exact overwrites_of_unneeded none _
  · obtain ⟨add, remove, rfl⟩ := listOps_of_needed own
    have edited : ∀ s s', (listOps add remove).edit field s = .ok s' →
        hasItem x s' = (add.contains x || hasItem x s && !remove.contains x) := by
      intro s s' h
      obtain ⟨items, listed, rfl⟩ := listOps_cases h
      rw [← contains_of_listOf listed]
      exact contains_editList items add remove x
    cases added : add.contains x with
    | true => exact .inr ⟨true, fun s s' h => by simp [edited s s' h, added]⟩
    | false =>
      cases removed : remove.contains x with
      | true => exact .inr ⟨false, fun s s' h => by simp [edited s s' h, added, removed]⟩
      | false => exact .inl fun s s' h => by simp [edited s s' h, added, removed]

/-- An operation for a map overwrites what it holds under a key. -/
theorem overwrites_memberAt (needs : op.IsFor .map) (key : String) :
    Overwrites (op.edit field) (memberAt key) := by
  rcases needs with none | own
  · exact overwrites_of_unneeded none _
  · obtain ⟨put, remove, rfl⟩ := mapOps_of_needed own
    have edited : ∀ s s', (mapOps put remove).edit field s = .ok s' → memberAt key s' =
        (Entries.find? key put.reverse).or (if key ∈ remove then none else memberAt key s) := by
      intro s s' h
      obtain ⟨entries, listed, rfl⟩ := mapOps_cases h
      rw [← find?_of_mapOf listed]
      exact find?_editMap entries put remove key
    cases given : Entries.find? key put.reverse with
    | some x => exact .inr ⟨some x, fun s s' h => by rw [edited s s' h, given]; rfl⟩
    | none =>
      by_cases gone : key ∈ remove
      · exact .inr ⟨none, fun s s' h => by rw [edited s s' h, given, if_pos gone]; rfl⟩
      · exact .inl fun s s' h => by rw [edited s s' h, given, if_neg gone]; rfl

/-! ### The same operations again -/

theorem editAll_of_unneeded (h : ∀ op ∈ ops, op.neededKind? = none) (held : Option Value) :
    ∃ held', editAll field ops held = .ok held' := by
  induction ops generalizing held with
  | nil => exact ⟨held, rfl⟩
  | cons op ops ih =>
    obtain ⟨any, others⟩ := List.forall_mem_cons.mp h
    cases op with
    | noOp => exact ih others held
    | set value => exact ih others (some value)
    | listOps add remove => cases any
    | mapOps put remove => cases any

theorem editAll_of_fits (field : String) (needs : ∀ op ∈ ops, op.IsFor kind)
    (suits : ∀ op ∈ ops, op.suits kind = true) (fits : kind.Fits held) :
    ∃ held', editAll field ops held = .ok held' ∧ kind.Fits held' := by
  induction ops generalizing held with
  | nil => exact ⟨held, rfl, fits⟩
  | cons op ops ih =>
    obtain ⟨need, needs⟩ := List.forall_mem_cons.mp needs
    obtain ⟨suit, suits⟩ := List.forall_mem_cons.mp suits
    obtain ⟨mid, once⟩ := edit_of_fits field need fits
    obtain ⟨held', rest, fits'⟩ := ih needs suits (fits_edit need suit fits once)
    exact ⟨held', foldlM_cons_ok.mpr ⟨mid, once, rest⟩, fits'⟩

/-- An operation on a collection makes the field fit, and the others leave it so, or there is
none. -/
theorem unneeded_or_fits (needs : ∀ op ∈ ops, op.IsFor kind)
    (suits : ∀ op ∈ ops, op.suits kind = true) (h : editAll field ops held = .ok held') :
    (∀ op ∈ ops, op.neededKind? = none) ∨ kind.Fits held' := by
  induction ops generalizing held with
  | nil => exact .inl nofun
  | cons op ops ih =>
    obtain ⟨need, needs⟩ := List.forall_mem_cons.mp needs
    obtain ⟨suit, suits⟩ := List.forall_mem_cons.mp suits
    obtain ⟨mid, first, rest⟩ := foldlM_cons_ok.mp h
    rcases need with none | own
    · exact (ih needs suits rest).imp_left fun others => List.forall_mem_cons.mpr ⟨none, others⟩
    · obtain ⟨last, again, fits⟩ := editAll_of_fits field needs suits (fits_of_needed own first)
      cases rest.symm.trans again
      exact .inr fits

/-- Operations that went through once go through again. -/
theorem editAll_again (needs : ∀ op ∈ ops, op.IsFor kind)
    (suits : ∀ op ∈ ops, op.suits kind = true) (h : editAll field ops held = .ok held') :
    ∃ held'', editAll field ops held' = .ok held'' := by
  rcases unneeded_or_fits needs suits h with none | fits
  · exact editAll_of_unneeded none held'
  · obtain ⟨held'', again, -⟩ := editAll_of_fits field needs suits fits
    exact ⟨held'', again⟩

theorem sorted_editAll (sets : ∀ value, .set value ∈ ops → value.Ordered) (sorted : SortedKeys held)
    (h : editAll field ops held = .ok held') : SortedKeys held' := by
  induction ops generalizing held with
  | nil =>
    cases h
    exact sorted
  | cons op ops ih =>
    obtain ⟨mid, first, rest⟩ := foldlM_cons_ok.mp h
    refine ih (fun value among => sets value (List.mem_cons_of_mem _ among))
      (fun entries made => ?_) rest
    subst made
    cases op with
    | noOp =>
      cases first
      exact sorted entries rfl
    | set value =>
      cases first
      exact (Value.ordered_obj_iff.mp (sets _ List.mem_cons_self)).1
    | listOps add remove =>
      obtain ⟨items, -, made⟩ := listOps_cases first
      cases made
    | mapOps put remove =>
      obtain ⟨entries', listed, made⟩ := mapOps_cases first
      cases made
      exact sorted_editMap (sorted_of_mapOf sorted listed) put remove

end FieldUpdate

/-- A field holds the same, or an array with the same items if it is a list field. -/
def FieldKind.Alike (kind : FieldKind) (held held' : Option Value) : Prop :=
  held' = held ∨ kind = .list ∧ ∃ items items', held = some (.arr items) ∧
    held' = some (.arr items') ∧
    ∀ x, items'.contains x = items.contains x

section Alike

variable {held held' held'' : Option Value}

theorem outline_list_cases (held : Option Value) : (∃ items, held = some (.arr items) ∧
    FieldKind.list.outline held = some (.arr [])) ∨ FieldKind.list.outline held = held := by
  unfold FieldKind.outline
  split
  · exact .inl ⟨_, rfl, rfl⟩
  · cases ‹FieldKind.list = .map›
  · exact .inr rfl

theorem outline_map_cases (held : Option Value) : (∃ members, held = some (.obj members) ∧
    FieldKind.map.outline held = some (.obj [])) ∨ FieldKind.map.outline held = held := by
  unfold FieldKind.outline
  split
  · cases ‹FieldKind.map = .list›
  · exact .inl ⟨_, rfl, rfl⟩
  · exact .inr rfl

/-- What has the same outline is the same, or both are collections. -/
theorem eq_or_of_outline {α : Type} {wrap : α → Value} {empty : α}
    {outline : Option Value → Option Value}
    (split : ∀ held, (∃ a, held = some (wrap a) ∧ outline held = some (wrap empty)) ∨
      outline held = held)
    (h : outline held' = outline held) :
    held' = held ∨ ∃ a a', held = some (wrap a) ∧ held' = some (wrap a') := by
  rcases split held with ⟨a, rfl, blank⟩ | same <;>
      rcases split held' with ⟨a', rfl, blank'⟩ | same'
  · exact .inr ⟨a, a', rfl, rfl⟩
  · exact .inr ⟨a, empty, rfl, same'.symm.trans (h.trans blank)⟩
  · exact .inr ⟨empty, a', same.symm.trans (h.symm.trans blank'), rfl⟩
  · exact .inl (same'.symm.trans (h.trans same))

open FieldUpdate in
/-- Operations that go through twice leave a field that is alike. -/
theorem FieldUpdate.alike_editAll {kind : FieldKind} {field : String} {ops : List FieldUpdate}
    (needs : ∀ op ∈ ops, op.IsFor kind) (sorted : SortedKeys held') (sorted' : SortedKeys held'')
    (once : editAll field ops held = .ok held') (twice : editAll field ops held' = .ok held'') :
    kind.Alike held' held'' := by
  have outline : kind.outline held'' = kind.outline held' :=
    (Overwrites.foldlM fun op among => overwrites_outline (needs op among)).again once twice
  cases kind with
  | scalar => exact .inl outline
  | list =>
    refine (eq_or_of_outline outline_list_cases outline).imp_right ?_
    rintro ⟨items, items', rfl, rfl⟩
    refine ⟨rfl, items, items', rfl, rfl, fun x => ?_⟩
    exact (Overwrites.foldlM fun op among => overwrites_hasItem (needs op among) x).again once twice
  | map =>
    rcases eq_or_of_outline outline_map_cases outline with same | ⟨members, members', rfl, rfl⟩
    · exact .inl same
    · refine .inl (congrArg (some ∘ Value.obj) ?_)
      refine Entries.ext_of_sorted (sorted' _ rfl) (sorted _ rfl) fun key => ?_
      exact (Overwrites.foldlM fun op among => overwrites_memberAt (needs op among) key).again
        once twice

end Alike

/-! ## Sequences of updates -/

/-- Merge updates one after the other, up to the first that is refused. -/
def mergeAll (schema : Schema) (current : Option Value) (us : List PartialUpdate) :
    Except DataError (Option Value) :=
  us.foldlM (fun stored u => (merge schema stored u).map some) current

/-- What a sequence of merges that succeed makes of what is stored. -/
structure MergesAll (schema : Schema) (current : Option Value) (us : List PartialUpdate)
    (last : Option Value) : Prop where
  unopposed : ∀ u ∈ us, schema.firstObjection? u = none
  fields : ∀ field, FieldUpdate.editAll field (us.map (·.on field)) (schema.start current field) =
    .ok (schema.start last field)
  made : us ≠ [] → ∃ stored u v, last = some v ∧ Merges schema stored u v

section Laws

variable {schema : Schema} {current last : Option Value} {us : List PartialUpdate}

theorem mergesAll_of_ok (h : mergeAll schema current us = .ok last) :
    MergesAll schema current us last := by
  induction us generalizing current with
  | nil =>
    cases h
    exact ⟨nofun, fun _ => rfl, fun some => absurd rfl some⟩
  | cons u us ih =>
    obtain ⟨mid, once, rest⟩ := foldlM_cons_ok.mp h
    cases merged : merge schema current u with
    | error e =>
      rw [merged] at once
      cases once
    | ok v =>
      rw [merged] at once
      cases once
      have first := merges_of_ok merged
      have later := ih rest
      refine ⟨List.forall_mem_cons.mpr ⟨first.unopposed, later.unopposed⟩,
        fun field => ?_, fun _ => ?_⟩
      · refine foldlM_cons_ok.mpr ⟨_, first.fields field, ?_⟩
        rw [← first.start]
        exact later.fields field
      · cases us with
        | nil =>
          cases rest
          exact ⟨current, u, v, rfl, first⟩
        | cons u' us => exact later.made nofun

/-- Merges one after the other succeed if nothing speaks against any of them. -/
theorem mergeAll_of_edits (unopposed : ∀ u ∈ us, schema.firstObjection? u = none)
    (readable : ∃ members, storedMembers current = .ok members)
    (edits : ∀ field, ∃ x,
      FieldUpdate.editAll field (us.map (·.on field)) (schema.start current field) = .ok x) :
    ∃ last, mergeAll schema current us = .ok last := by
  induction us generalizing current with
  | nil => exact ⟨current, rfl⟩
  | cons u us ih =>
    obtain ⟨fine, unopposed⟩ := List.forall_mem_cons.mp unopposed
    obtain ⟨v, merged⟩ := merge_of_edits fine readable fun field => by
      obtain ⟨x, all⟩ := edits field
      obtain ⟨mid, once, -⟩ := foldlM_cons_ok.mp all
      exact ⟨mid, once⟩
    have first := merges_of_ok merged
    have later : ∃ last, mergeAll schema (some v) us = .ok last := by
      refine ih unopposed first.readable_again fun field => ?_
      obtain ⟨x, all⟩ := edits field
      obtain ⟨mid, once, rest⟩ := foldlM_cons_ok.mp all
      rw [first.start, first.member?_eq once]
      exact ⟨x, rest⟩
    obtain ⟨last, rest⟩ := later
    exact ⟨last, foldlM_cons_ok.mpr ⟨some v, by rw [merged]; rfl, rest⟩⟩

theorem mergeAll_append_ok {us' : List PartialUpdate}
    (h : mergeAll schema current (us ++ us') = .ok last) :
    ∃ mid, mergeAll schema current us = .ok mid ∧ mergeAll schema mid us' = .ok last := by
  rw [mergeAll, List.foldlM_append] at h
  cases first : mergeAll schema current us with
  | error e =>
    rw [mergeAll] at first
    rw [first] at h
    cases h
  | ok mid =>
    rw [mergeAll] at first
    rw [first] at h
    exact ⟨mid, rfl, h⟩

/-- What an update sets is in key order. -/
def PartialUpdate.Ordered (u : PartialUpdate) : Prop :=
  ∀ field value, u.on field = .set value → value.Ordered

theorem MergesAll.sorted (h : MergesAll schema current us last) (ordered : ∀ u ∈ us, u.Ordered)
    {field : String} (sorted : FieldUpdate.SortedKeys (schema.start current field)) :
    FieldUpdate.SortedKeys (schema.start last field) := by
  refine FieldUpdate.sorted_editAll (fun value among => ?_) sorted (h.fields field)
  obtain ⟨u, mem, set⟩ := List.mem_map.mp among
  exact ordered u mem field value set

theorem MergesAll.isFor (h : MergesAll schema current us last) (field : String) :
    ∀ op ∈ us.map (·.on field), op.IsFor (schema.kindOf field) := by
  intro op among
  obtain ⟨u, mem, rfl⟩ := List.mem_map.mp among
  exact schema.isFor_of_unopposed (h.unopposed u mem) field

/-- Updates that were merged one after the other can all be merged again. -/
theorem MergesAll.again (h : MergesAll schema current us last) (nonempty : us ≠ [])
    (ordered : ∀ u ∈ us, u.Ordered) (suits : ∀ u ∈ us, u.Suits schema)
    (sorted : ∀ field, FieldUpdate.SortedKeys (schema.start current field)) :
    ∃ members members', last = some (.obj members) ∧
      mergeAll schema last us = .ok (some (.obj members')) ∧
      ∀ field, (schema.kindOf field).Alike (Entries.find? field members)
        (Entries.find? field members') := by
  obtain ⟨stored, u, v, rfl, merges⟩ := h.made nonempty
  obtain ⟨last, again⟩ := mergeAll_of_edits h.unopposed merges.readable_again fun field => by
    refine FieldUpdate.editAll_again (h.isFor field) (fun op among => ?_) (h.fields field)
    obtain ⟨u, mem, rfl⟩ := List.mem_map.mp among
    exact (suits u mem).on field
  have twice := mergesAll_of_ok again
  obtain ⟨stored', u', w, rfl, merges'⟩ := twice.made nonempty
  have alike : ∀ field, (schema.kindOf field).Alike (v.member? field) (w.member? field) := by
    intro field
    have once := h.sorted ordered (sorted field)
    rw [← merges.start, ← merges'.start]
    exact FieldUpdate.alike_editAll (h.isFor field) once
      (twice.sorted ordered once) (h.fields field) (twice.fields field)
  obtain ⟨members, rfl, -⟩ := merges.object
  obtain ⟨members', rfl, -⟩ := merges'.object
  exact ⟨members, members', rfl, again, alike⟩

/-- Updates that were merged one after the other, and set no field to what it may not hold, can be
merged again from any of them on. Every field then holds what it held, but for the order of lists
and how often an element is in them. -/
theorem replay_suffix (defaults : schema.Ordered) (stored : ∀ c, current = some c → c.Ordered)
    (ordered : ∀ u ∈ us, u.Ordered) (suits : ∀ u ∈ us, u.Suits schema) {v : Value}
    (h : mergeAll schema current us = .ok (some v)) {k : Nat} (within : k < us.length) :
    ∃ members members', v = .obj members ∧
      mergeAll schema (some v) (us.drop k) = .ok (some (.obj members')) ∧
      ∀ field, (schema.kindOf field).Alike (Entries.find? field members)
        (Entries.find? field members') := by
  obtain ⟨mid, early, late⟩ := mergeAll_append_ok ((us.take_append_drop k).symm ▸ h)
  have nonempty : us.drop k ≠ [] := fun none =>
    absurd (List.drop_eq_nil_iff.mp none) (Nat.not_le.mpr within)
  have sorted : ∀ field, FieldUpdate.SortedKeys (schema.start mid field) := by
    intro field
    refine (mergesAll_of_ok early).sorted (fun u mem => ordered u (List.mem_of_mem_take mem)) ?_
    intro entries start
    exact (Value.ordered_obj_iff.mp (schema.ordered_start defaults stored start)).1
  obtain ⟨members, members', made, again, alike⟩ := (mergesAll_of_ok late).again nonempty
    (fun u mem => ordered u (List.mem_of_mem_drop mem))
    (fun u mem => suits u (List.mem_of_mem_drop mem))
    sorted
  exact ⟨members, members', Option.some.inj made, again, alike⟩

end Laws

theorem PartialUpdate.ordered_single {field : String} {op : FieldUpdate}
    (h : ∀ value, op = .set value → value.Ordered) : (empty.with_ field op).Ordered := by
  intro key value set
  rw [on, with_] at set
  by_cases here : key = field
  · subst here
    rw [SortedMap.find?_insert_self] at set
    exact h value set
  · rw [SortedMap.find?_insert_of_ne _ here] at set
    cases set

/-- A list is emptied and filled. To fill it again turns its elements round. -/
theorem replay_suffix_retagging : ∃ members members',
    mergeAll .tagged none [.emptying, .tagging, .retagging] = .ok (some (.obj members)) ∧
      mergeAll .tagged (some (.obj members)) [.tagging, .retagging] = .ok (some (.obj members')) ∧
      ∀ field, (Schema.tagged.kindOf field).Alike (Entries.find? field members)
        (Entries.find? field members') := by
  have first : mergeAll .tagged none [.emptying, .tagging, .retagging] =
      .ok (some (.obj [("tags", .arr [.str "t", .str "x", .str "y"])])) := rfl
  have ordered : ∀ u ∈ [PartialUpdate.emptying, .tagging, .retagging], u.Ordered := by
    intro u among
    simp only [List.mem_cons, List.not_mem_nil, or_false] at among
    rcases among with rfl | rfl | rfl
    · exact PartialUpdate.ordered_single (by rintro value ⟨⟩; trivial)
    · exact PartialUpdate.ordered_single nofun
    · exact PartialUpdate.ordered_single nofun
  have suits : ∀ u ∈ [PartialUpdate.emptying, .tagging, .retagging], u.Suits .tagged := by
    intro u among field f known
    obtain ⟨rfl, rfl⟩ := Schema.field?_tagged known
    simp only [List.mem_cons, List.not_mem_nil, or_false] at among
    rcases among with rfl | rfl | rfl <;> rfl
  obtain ⟨members, members', same, again, alike⟩ :=
    replay_suffix (k := 1) Schema.ordered_tagged (by rintro c ⟨⟩) ordered suits first (by decide)
  cases same
  exact ⟨_, members', first, again, alike⟩

end StoreFeed
