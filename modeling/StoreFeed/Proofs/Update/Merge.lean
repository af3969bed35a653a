import StoreFeed.Proofs.Update.Collections

/-!
# What a merge does

A merge edits each field on its own: it starts from what is stored in the field, or else from the
default of its first listing, and what becomes of one field does not depend on any other
(`merge_cases`). All that is said of merges elsewhere is said of one field, and carried over by
`Merges`.
-/

namespace StoreFeed

open Json

namespace FieldUpdate

/-- An operation may be used on a kind of field. -/
def IsFor (op : FieldUpdate) (kind : FieldKind) : Prop :=
  op.neededKind? = none ∨ op.neededKind? = some kind

/-- What an operation makes of what a field holds. -/
def edit (field : String) (held : Option Value) : FieldUpdate → Except DataError (Option Value)
  | .noOp => .ok held
  | .set value => .ok (some value)
  | .listOps add remove =>
    (listOf field held).map fun items => some (.arr (editList items add remove))
  | .mapOps put remove =>
    (mapOf field held).map fun entries => some (.obj (editMap entries put remove))

/-- If a field holds an object, its keys are in order. -/
def SortedKeys (held : Option Value) : Prop :=
  ∀ entries, held = some (.obj entries) → Entries.Sorted entries

section

variable {op : FieldUpdate} {field : String} {held edited : Option Value}

theorem listOps_cases {add remove : List Value}
    (h : (listOps add remove).edit field held = .ok edited) :
    ∃ items, listOf field held = .ok items ∧ edited = some (.arr (editList items add remove)) := by
  cases listed : listOf field held <;> rw [edit, listed] at h <;> cases h
  exact ⟨_, rfl, rfl⟩

theorem mapOps_cases {put : Entries String Value} {remove : List String}
    (h : (mapOps put remove).edit field held = .ok edited) :
    ∃ entries, mapOf field held = .ok entries ∧
      edited = some (.obj (editMap entries put remove)) := by
  cases listed : mapOf field held <;> rw [edit, listed] at h <;> cases h
  exact ⟨_, rfl, rfl⟩

theorem listOps_of_needed (h : op.neededKind? = some .list) :
    ∃ add remove, op = listOps add remove := by
  cases op with
  | listOps add remove => exact ⟨add, remove, rfl⟩
  | _ => cases h

theorem mapOps_of_needed (h : op.neededKind? = some .map) :
    ∃ put remove, op = mapOps put remove := by
  cases op with
  | mapOps put remove => exact ⟨put, remove, rfl⟩
  | _ => cases h

/-- A list is held, or nothing or null, which are read as the empty one. -/
theorem listOf_cases {items : List Value} (h : listOf field held = .ok items) :
    held = some (.arr items) ∨ (held = none ∨ held = some .null) ∧ items = [] := by
  unfold listOf at h
  split at h <;> cases h
  · exact .inr ⟨.inl rfl, rfl⟩
  · exact .inr ⟨.inr rfl, rfl⟩
  · exact .inl rfl

/-- A map is held, or nothing or null, which are read as the empty one. -/
theorem mapOf_cases {entries : Entries String Value} (h : mapOf field held = .ok entries) :
    held = some (.obj entries) ∨ (held = none ∨ held = some .null) ∧ entries = [] := by
  unfold mapOf at h
  split at h <;> cases h
  · exact .inr ⟨.inl rfl, rfl⟩
  · exact .inr ⟨.inr rfl, rfl⟩
  · exact .inl rfl

theorem sorted_of_mapOf (sorted : SortedKeys held) {entries : Entries String Value}
    (h : mapOf field held = .ok entries) : entries.Sorted := by
  rcases mapOf_cases h with own | ⟨-, rfl⟩
  · exact sorted entries own
  · exact Entries.sorted_nil

end

/-- What becomes of an object in which one field is edited. -/
structure Edits (op : FieldUpdate) (field : String) (members members' : Entries String Value) :
    Prop where
  own : op.edit field (members.find? field) = .ok (members'.find? field)
  others : ∀ key, key ≠ field → members'.find? key = members.find? key
  sorted : members.Sorted → members'.Sorted

theorem Edits.of_insert {op : FieldUpdate} {field : String} {members : Entries String Value}
    {value : Value} (h : op.edit field (members.find? field) = .ok (some value)) :
    op.Edits field members (members.insert field value) where
  own := by rw [h, Entries.find?_insert_self]
  others key other := Entries.find?_insert_of_ne other value members
  sorted sorted := sorted.insert field value

/-- An operation is refused, or edits its field. -/
theorem apply_cases (op : FieldUpdate) (field : String) (members : Entries String Value) :
    (∃ e, op.apply members field = .error e ∧ op.edit field (members.find? field) = .error e) ∨
      ∃ members', op.apply members field = .ok members' ∧ op.Edits field members members' := by
  cases op with
  | noOp => exact .inr ⟨members, rfl, rfl, fun _ _ => rfl, id⟩
  | set value => exact .inr ⟨_, rfl, .of_insert rfl⟩
  | listOps add remove =>
    cases h : listOf field (members.find? field) with
    | error e => exact .inl ⟨e, by rw [apply, h]; rfl, by rw [edit, h]; rfl⟩
    | ok items => exact .inr ⟨_, by rw [apply, h]; rfl, .of_insert (by rw [edit, h]; rfl)⟩
  | mapOps put remove =>
    cases h : mapOf field (members.find? field) with
    | error e => exact .inl ⟨e, by rw [apply, h]; rfl, by rw [edit, h]; rfl⟩
    | ok entries => exact .inr ⟨_, by rw [apply, h]; rfl, .of_insert (by rw [edit, h]; rfl)⟩

/-- What becomes of an object in which fields are edited one after the other. -/
structure EditsAll (ops : List (String × FieldUpdate)) (members members' : Entries String Value) :
    Prop where
  fields : ∀ field op, (field, op) ∈ ops →
    op.edit field (members.find? field) = .ok (members'.find? field)
  others : ∀ key, key ∉ ops.map (·.1) → members'.find? key = members.find? key
  sorted : members.Sorted → members'.Sorted

/-- The first operation that is refused ends it. -/
theorem foldlM_apply_cases (ops : List (String × FieldUpdate)) (distinct : (ops.map (·.1)).Nodup)
    (members : Entries String Value) :
    (∃ earlier field op later e, ops = earlier ++ (field, op) :: later ∧
        (∀ f o, (f, o) ∈ earlier → ∃ x, o.edit f (members.find? f) = .ok x) ∧
        op.edit field (members.find? field) = .error e ∧
        ops.foldlM (fun m (field, op) => op.apply m field) members = .error e) ∨
      ∃ members', ops.foldlM (fun m (field, op) => op.apply m field) members = .ok members' ∧
        EditsAll ops members members' := by
  induction ops generalizing members with
  | nil => exact .inr ⟨members, rfl, by simp, fun _ _ => rfl, id⟩
  | cons first ops ih =>
    obtain ⟨field, op⟩ := first
    obtain ⟨fresh, distinct⟩ := List.nodup_cons.mp distinct
    have apart : ∀ f o, (f, o) ∈ ops → f ≠ field := by
      rintro f o ho rfl
      exact fresh (List.mem_map.mpr ⟨_, ho, rfl⟩)
    rw [List.foldlM_cons]
    dsimp only
    rcases apply_cases op field members with ⟨e, refused, error⟩ | ⟨between, applied, edits⟩
    · exact .inl ⟨[], field, op, ops, e, rfl, by simp, error, by rw [refused]; rfl⟩
    · rw [applied]
      rcases ih distinct between with ⟨earlier, f, o, later, e, rfl, fine, error, ends⟩ |
          ⟨members', ends, all⟩
      · refine .inl ⟨(field, op) :: earlier, f, o, later, e, rfl, ?_, ?_, ends⟩
        · intro f' o' ho'
          rcases List.mem_cons.mp ho' with same | ho'
          · cases same
            exact ⟨_, edits.own⟩
          · rw [← edits.others f' (apart f' o' (List.mem_append_left _ ho'))]
            exact fine f' o' ho'
        · rw [← edits.others f (apart f o (List.mem_append_right _ List.mem_cons_self))]
          exact error
      · refine .inr ⟨members', ends, ?_, ?_, all.sorted ∘ edits.sorted⟩
        · intro f o ho
          rcases List.mem_cons.mp ho with same | ho
          · cases same
            rw [all.others _ fresh]
            exact edits.own
          · rw [← edits.others f (apart f o ho)]
            exact all.fields f o ho
        · intro key other
          obtain ⟨apart, other⟩ : key ≠ field ∧ key ∉ ops.map (·.1) := by simpa using other
          rw [all.others key other, edits.others key apart]

end FieldUpdate

/-! ## Where a merge starts -/

namespace Schema

/-- The kind of a field. What is no field may hold anything, like a scalar. -/
def kindOf (s : Schema) (field : String) : FieldKind := ((s.field? field).map (·.kind)).getD .scalar

theorem kindOf_of_field? {s : Schema} {field : String} {f : FieldSchema}
    (h : s.field? field = some f) :
    s.kindOf field = f.kind := by
  rw [kindOf, h]
  rfl

/-- What a merge finds in a field: what is stored there, or else the default of its first
listing. -/
def start (s : Schema) (current : Option Value) (field : String) : Option Value :=
  (current.bind (·.member? field)).or ((s.field? field).map (·.default))

theorem find?_complete (s : Schema) (members : Entries String Value) (field : String) :
    Entries.find? field (s.complete members) =
      (members.find? field).or ((s.field? field).map (·.default)) := by
  unfold complete field?
  induction s.fields generalizing members with
  | nil => simp
  | cons f fields ih =>
    rw [List.foldl_cons, ih, List.find?_cons]
    unfold Entries.insertNew Entries.contains
    by_cases here : f.name = field
    · subst here
      cases held : Entries.find? f.name members with
      | none => simp
      | some x => simp [held]
    · have apart : Entries.find? field (Entries.insert f.name f.default members) =
          Entries.find? field members := Entries.find?_insert_of_ne (Ne.symm here) _ _
      have differs : (f.name == field) = false := by simpa using here
      rw [differs]
      split
      · rfl
      · rw [apart]

theorem sorted_complete (s : Schema) {members : Entries String Value} (h : members.Sorted) :
    (s.complete members).Sorted := by
  unfold complete
  induction s.fields generalizing members with
  | nil => exact h
  | cons f fields ih => exact ih (h.insertNew f.name f.default)

end Schema

theorem find?_of_storedMembers {current : Option Value} {members : Entries String Value}
    (h : storedMembers current = .ok members) (field : String) :
    members.find? field = current.bind (·.member? field) := by
  unfold storedMembers at h
  split at h
  · cases h
    rfl
  · cases h
    rfl
  · cases h

/-! ## What a merge makes -/

/-- The operation of an update on a field; not to name the field is to leave it alone. -/
def PartialUpdate.on (u : PartialUpdate) (field : String) : FieldUpdate :=
  (SortedMap.find? u field).getD .noOp

/-- What a merge that succeeds makes of what is stored. -/
structure Merges (schema : Schema) (current : Option Value) (u : PartialUpdate) (v : Value) :
    Prop where
  unopposed : schema.firstObjection? u = none
  readable : ∃ members, storedMembers current = .ok members
  fields : ∀ field, (u.on field).edit field (schema.start current field) = .ok (v.member? field)
  object : ∃ members, v = .obj members ∧
    ((∀ stored, storedMembers current = .ok stored → Entries.Sorted stored) →
      Entries.Sorted members)

/-- A merge is refused because of a field that the update names, because of the stored value, or
because of the first field that holds what its operation does not apply to; or it edits every
field. -/
theorem merge_cases (schema : Schema) (current : Option Value) (u : PartialUpdate) :
    (∃ e, schema.firstObjection? u = some e ∧ merge schema current u = .error e) ∨
      (schema.firstObjection? u = none ∧
        ∃ e, storedMembers current = .error e ∧ merge schema current u = .error e) ∨
      (schema.firstObjection? u = none ∧ (∃ members, storedMembers current = .ok members) ∧
        ∃ earlier field op later e, u.entries = earlier ++ (field, op) :: later ∧
          (∀ f o, (f, o) ∈ earlier → ∃ x, o.edit f (schema.start current f) = .ok x) ∧
          op.edit field (schema.start current field) = .error e ∧
          merge schema current u = .error e) ∨
      ∃ v, merge schema current u = .ok v ∧ Merges schema current u v := by
  unfold merge
  cases objection : schema.firstObjection? u with
  | some e => exact .inl ⟨e, rfl, rfl⟩
  | none =>
    refine .inr ?_
    cases stored : storedMembers current with
    | error e => exact .inl ⟨rfl, e, rfl, rfl⟩
    | ok members =>
      refine .inr ?_
      have start : ∀ field, Entries.find? field (schema.complete members) =
          schema.start current field := by
        intro field
        rw [Schema.find?_complete, find?_of_storedMembers stored, Schema.start]
      -- An update names each field once, so every operation meets what its field held at the start.
      have distinct : (u.entries.map (·.1)).Nodup := SortedMap.nodup_keys u
      rcases FieldUpdate.foldlM_apply_cases u.entries distinct (schema.complete members) with
        ⟨earlier, field, op, later, e, split, fine, error, ends⟩ | ⟨merged, ends, all⟩
      · simp only [start] at fine error
        refine .inl ⟨rfl, ⟨members, rfl⟩, earlier, field, op, later, e, split, fine, error, ?_⟩
        dsimp only [bind, Except.bind]
        rw [ends]
      · refine .inr ⟨.obj merged, ?_, objection, ⟨members, stored⟩,
          fun field => ?_, merged, rfl, ?_⟩
        · dsimp only [bind, Except.bind]
          rw [ends]
          rfl
        · rw [← start]
          unfold PartialUpdate.on
          cases named : SortedMap.find? u field with
          | some op => exact all.fields field op (Entries.mem_of_find? named)
          | none =>
            have unnamed : field ∉ u.entries.map (·.1) := by
              intro among
              have := Entries.mem_keys_iff.mp among
              rw [show Entries.find? field u.entries = none from named] at this
              cases this
            exact congrArg Except.ok (all.others field unnamed).symm
        · intro sorted
          exact all.sorted (schema.sorted_complete (sorted members stored))

section Laws

variable {schema : Schema} {current : Option Value} {u : PartialUpdate} {v : Value}

theorem merges_of_ok (h : merge schema current u = .ok v) : Merges schema current u v := by
  rcases merge_cases schema current u with ⟨e, -, error⟩ | ⟨-, e, -, error⟩ |
      ⟨-, -, earlier, field, op, later, e, -, -, -, error⟩ | ⟨v', ok, merges⟩
  · cases error.symm.trans h
  · cases error.symm.trans h
  · cases error.symm.trans h
  · cases ok.symm.trans h
    exact merges

theorem PartialUpdate.on_of_mem {field : String} {op : FieldUpdate} (h : (field, op) ∈ u.entries) :
    u.on field = op := by
  unfold PartialUpdate.on
  rw [SortedMap.find?_of_mem h]
  rfl

/-- What holds of every operation that an update names, and of none, holds of its operation on a
field. -/
theorem PartialUpdate.on_of_forall {P : FieldUpdate → Prop} {field : String}
    (named : ∀ op, (field, op) ∈ u.entries → P op) (alone : P .noOp) : P (u.on field) := by
  unfold PartialUpdate.on
  cases found : SortedMap.find? u field with
  | none => exact alone
  | some op => exact named op (SortedMap.mem_entries.mpr found)

/-- A merge that nothing speaks against succeeds. -/
theorem merge_of_edits (unopposed : schema.firstObjection? u = none)
    (readable : ∃ members, storedMembers current = .ok members)
    (edits : ∀ field, ∃ x, (u.on field).edit field (schema.start current field) = .ok x) :
    ∃ v, merge schema current u = .ok v := by
  rcases merge_cases schema current u with ⟨e, objection, -⟩ | ⟨-, e, unreadable, -⟩ |
      ⟨-, -, earlier, field, op, later, e, split, -, refused, -⟩ | ⟨v, ok, -⟩
  · cases unopposed.symm.trans objection
  · obtain ⟨members, readable⟩ := readable
    cases readable.symm.trans unreadable
  · obtain ⟨x, fine⟩ := edits field
    have named : (field, op) ∈ u.entries := by
      rw [split]
      exact List.mem_append_right _ List.mem_cons_self
    rw [PartialUpdate.on_of_mem named] at fine
    cases refused.symm.trans fine
  · exact ⟨v, ok⟩

/-- Where an update that nothing speaks against does something, nothing speaks against that. -/
theorem Schema.objection?_on (h : schema.firstObjection? u = none) (field : String) :
    u.on field = .noOp ∨ schema.objection? field (u.on field) = none :=
  PartialUpdate.on_of_forall (P := fun op => op = .noOp ∨ schema.objection? field op = none)
    (fun _ named => .inr (List.findSome?_eq_none_iff.mp h _ named)) (.inl rfl)

/-- An update that nothing speaks against has operations for the kinds of its fields. -/
theorem Schema.isFor_of_unopposed (h : schema.firstObjection? u = none) (field : String) :
    (u.on field).IsFor (schema.kindOf field) := by
  rcases schema.objection?_on h field with alone | fine
  · rw [alone]
    exact .inl rfl
  · unfold Schema.objection? at fine
    split at fine
    · cases fine
    · rename_i f known
      rw [Schema.kindOf_of_field? known]
      split at fine
      · rename_i any
        exact .inl any
      · rename_i kind needed
        split at fine
        · rename_i same
          exact .inr (same ▸ needed)
        · cases fine

/-- A merged value holds something in every field of the schema, so a merge into it starts from
there. -/
theorem Merges.start (h : Merges schema current u v) (field : String) :
    schema.start (some v) field = v.member? field := by
  have edited := h.fields field
  show (v.member? field).or _ = _
  cases held : v.member? field with
  | some x => rfl
  | none =>
    -- Only an operation that leaves a field alone leaves nothing there, where nothing was.
    rw [held] at edited
    have absent : schema.start current field = none := by
      cases op : u.on field with
      | noOp =>
        rw [op] at edited
        exact Except.ok.inj edited
      | set value =>
        rw [op] at edited
        cases edited
      | listOps add remove =>
        rw [op] at edited
        obtain ⟨items, -, none⟩ := FieldUpdate.listOps_cases edited
        cases none
      | mapOps put remove =>
        rw [op] at edited
        obtain ⟨entries, -, none⟩ := FieldUpdate.mapOps_cases edited
        cases none
    unfold Schema.start at absent
    rw [Option.or_eq_none_iff] at absent
    rw [absent.2]
    rfl

theorem Merges.holds (h : Merges schema current u v) {field : String} {f : FieldSchema}
    (known : schema.field? field = some f) : ∃ x, v.member? field = some x := by
  have start := h.start field
  cases held : v.member? field with
  | some x => exact ⟨x, rfl⟩
  | none =>
    rw [held, Schema.start, known, Option.or_eq_none_iff] at start
    cases start.2

theorem Merges.readable_again (h : Merges schema current u v) :
    ∃ members, storedMembers (some v) = .ok members := by
  obtain ⟨members, rfl, -⟩ := h.object
  exact ⟨members, rfl⟩

theorem Merges.member?_eq (h : Merges schema current u v) {field : String} {x : Option Value}
    (edited : (u.on field).edit field (schema.start current field) = .ok x) : v.member? field = x :=
  Except.ok.inj ((h.fields field).symm.trans edited)

/-! ### Order -/

/-- Every default is in key order. -/
def Schema.Ordered (s : Schema) : Prop := ∀ field f, s.field? field = some f → f.default.Ordered

/-- A merge starts from what is stored in a field, or from the default. -/
theorem Schema.start_cases {field : String} {x : Value} (h : schema.start current field = some x) :
    (∃ c, current = some c ∧ c.member? field = some x) ∨
      ∃ f, schema.field? field = some f ∧ f.default = x := by
  rcases Option.or_eq_some_iff.mp h with held | ⟨-, default⟩
  · exact .inl (Option.bind_eq_some_iff.mp held)
  · exact .inr (Option.map_eq_some_iff.mp default)

theorem Schema.ordered_start (defaults : schema.Ordered)
    (stored : ∀ c, current = some c → c.Ordered)
    {field : String} {x : Value} (h : schema.start current field = some x) : x.Ordered := by
  rcases schema.start_cases h with ⟨c, same, held⟩ | ⟨f, known, rfl⟩
  · exact (stored c same).member? held
  · exact defaults field f known

/-- What is stored was read from bytes. -/
theorem ordered_of_decodeValue {b : ByteArray} (h : decodeValue b = .ok v) : v.Ordered := by
  unfold decodeValue at h
  split at h
  · rename_i read
    cases h
    obtain ⟨t, -, read⟩ := Option.bind_eq_some_iff.mp read
    exact Decoder.ordered_value read
  · cases h

/-- A merge can start from what is stored, and the keys of that are in order. -/
def InOrder (current : Option Value) : Prop :=
  ∃ members, storedMembers current = .ok members ∧ Entries.Sorted members

theorem inOrder_none : InOrder none := ⟨[], rfl, Entries.sorted_nil⟩

theorem inOrder_obj {members : Entries String Value} (sorted : members.Sorted) :
    InOrder (some (.obj members)) := ⟨members, rfl, sorted⟩

/-- The keys of a merged value are in order if those that were stored are. -/
theorem Merges.inOrder (h : Merges schema current u v) (inOrder : InOrder current) :
    ∃ members, v = .obj members ∧ Entries.Sorted members := by
  obtain ⟨stored, readable, sorted⟩ := inOrder
  obtain ⟨members, rfl, keeps⟩ := h.object
  refine ⟨members, rfl, keeps fun found readable' => ?_⟩
  cases readable.symm.trans readable'
  exact sorted

theorem Merges.sorted (h : Merges schema current u v) (stored : ∀ c, current = some c → c.Ordered) :
    ∃ members, v = .obj members ∧ Entries.Sorted members := by
  obtain ⟨members, readable⟩ := h.readable
  refine h.inOrder ⟨members, readable, ?_⟩
  unfold storedMembers at readable
  split at readable
  · cases readable
    exact Entries.sorted_nil
  · cases readable
    exact (Value.ordered_obj_iff.mp (stored _ rfl)).1
  · cases readable

end Laws

/-! ## A sample -/

namespace Schema

/-- A schema with one list, empty by default. -/
def tagged : Schema := empty.withField "tags" .list (.arr [])

theorem field?_tagged {field : String} {f : FieldSchema} (h : tagged.field? field = some f) :
    field = "tags" ∧ f = ⟨"tags", .list, .arr []⟩ := by
  have among : f = ⟨"tags", .list, .arr []⟩ := List.mem_singleton.mp (List.mem_of_find?_eq_some h)
  have named := List.find?_some h
  subst among
  exact ⟨(beq_iff_eq.mp named).symm, rfl⟩

theorem ordered_tagged : tagged.Ordered := by
  intro field f known
  obtain ⟨-, rfl⟩ := field?_tagged known
  exact trivial

end Schema

namespace PartialUpdate

/-- Add an element. -/
def tagging : PartialUpdate := empty.listAdd "tags" [.str "t"]

/-- Take an element out, and add it in front of another. -/
def retagging : PartialUpdate := empty.with_ "tags" (.listOps [.str "x", .str "y"] [.str "x"])

/-- Empty the list. -/
def emptying : PartialUpdate := empty.set "tags" .null

/-- Put a text in place of the list. -/
def untagging : PartialUpdate := empty.set "tags" (.str "none")

end PartialUpdate

end StoreFeed
