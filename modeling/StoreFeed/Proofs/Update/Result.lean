import StoreFeed.Proofs.Update.Merge
import StoreFeed.Proofs.Wire.Records

/-!
# What a merge makes, in full

A merge that succeeds makes an object with a member for every key that was stored and for every
field of the schema. What each member is depends on what the merge found in the field and on the
operation on it alone, and is said here without the loops that compute it (`merge_makes`).
-/

namespace StoreFeed

open Json

namespace FieldUpdate

/-- A field is a list of these elements; null is the list of none. -/
def HasItems (held : Option Value) (items : List Value) : Prop :=
  held = some (.arr items) ∨ held = some .null ∧ items = []

/-- A field is a map of these entries; null is the map of none. -/
def HasEntries (held : Option Value) (entries : Entries String Value) : Prop :=
  held = some (.obj entries) ∨ held = some .null ∧ entries = []

/-- What a field holds after an operation, by what it held before. A list keeps what is not taken
out, as it stands, and then gains what it lacks, each element once. Under each key a map holds what
is put there, or else what it had, unless the key is dropped. -/
def Turns (held turned : Option Value) : FieldUpdate → Prop
  | .noOp => turned = held
  | .set value => turned = some value
  | .listOps add remove => ∃ items kept, HasItems held items ∧
      kept = items.filter (fun item => !remove.contains item) ∧
      turned = some (.arr (kept ++ (add.filter fun item => !kept.contains item).eraseDups))
  | .mapOps put remove => ∃ entries entries' : Entries String Value, HasEntries held entries ∧
      turned = some (.obj entries') ∧ (Entries.Sorted entries → Entries.Sorted entries') ∧
      ∀ key, Entries.find? key entries' =
        (Entries.find? key put).or (if key ∈ remove then none else Entries.find? key entries)

variable {op : FieldUpdate} {field : String} {held turned : Option Value}

theorem hasItems_of_listOf {items : List Value} (present : held ≠ none)
    (h : listOf field held = .ok items) : HasItems held items :=
  (listOf_cases h).imp_right fun ⟨empty, same⟩ => ⟨empty.resolve_left present, same⟩

theorem hasEntries_of_mapOf {entries : Entries String Value} (present : held ≠ none)
    (h : mapOf field held = .ok entries) : HasEntries held entries :=
  (mapOf_cases h).imp_right fun ⟨empty, same⟩ => ⟨empty.resolve_left present, same⟩

/-- An operation that edits a field turns it into what is said of it. -/
theorem turns_of_edit (ordered : op.InKeyOrder) (present : op.neededKind? ≠ none → held ≠ none)
    (h : op.edit field held = .ok turned) : op.Turns held turned := by
  cases op with
  | noOp => exact (Except.ok.inj h).symm
  | set value => exact (Except.ok.inj h).symm
  | listOps add remove =>
    obtain ⟨items, listed, rfl⟩ := listOps_cases h
    refine ⟨items, _, hasItems_of_listOf (present (by rintro ⟨⟩)) listed, rfl, ?_⟩
    rw [editList, foldl_appendNew]
    rfl
  | mapOps put remove =>
    obtain ⟨entries, listed, rfl⟩ := mapOps_cases h
    refine ⟨entries, _, hasEntries_of_mapOf (present (by rintro ⟨⟩)) listed, rfl,
      fun sorted => sorted_editMap sorted put remove, fun key => ?_⟩
    rw [find?_editMap, Entries.Sorted.find?_reverse (Value.ordered_obj_iff.mp ordered).1]

/-- Only to leave alone a field that holds nothing leaves nothing there. -/
theorem Turns.isSome (h : op.Turns held turned) : turned.isSome ↔ held.isSome ∨ op ≠ .noOp := by
  cases op with
  | noOp =>
    rw [show turned = held from h]
    simp
  | set value =>
    rw [show turned = some value from h]
    simp
  | listOps add remove =>
    obtain ⟨items, kept, -, -, rfl⟩ := h
    simp
  | mapOps put remove =>
    obtain ⟨entries, entries', -, rfl, -⟩ := h
    simp

end FieldUpdate

section Makes

variable {schema : Schema} {current : Option Value} {u : PartialUpdate} {v : Value} {field : String}

namespace Schema

theorem mem_names : field ∈ schema.fields.map (·.name) ↔ ∃ f, schema.field? field = some f := by
  rw [← Option.isSome_iff_exists, field?, List.find?_isSome]
  simp

/-- A merge finds something in a field that is stored or that the schema has. -/
theorem isSome_start : (schema.start current field).isSome ↔
    (current.bind (·.member? field)).isSome ∨ field ∈ schema.fields.map (·.name) := by
  rw [start, Option.isSome_or, Bool.or_eq_true, Option.isSome_map, mem_names,
    Option.isSome_iff_exists]
  simp [Option.isSome_iff_exists]

/-- An update that nothing speaks against changes fields of the schema only. -/
theorem mem_names_of_unopposed (h : schema.firstObjection? u = none)
    (changes : u.on field ≠ .noOp) :
    field ∈ schema.fields.map (·.name) := by
  have fine : schema.objection? field (u.on field) = none :=
    (schema.objection?_on h field).resolve_left changes
  unfold objection? at fine
  split at fine
  · cases fine
  · rename_i f known
    exact mem_names.mpr ⟨f, known⟩

end Schema

theorem Merges.turns (h : Merges schema current u v) (ordered : ∀ e ∈ u.entries, e.2.InKeyOrder)
    (field : String) : (u.on field).Turns (schema.start current field) (v.member? field) := by
  have inKeyOrder : (u.on field).InKeyOrder :=
    PartialUpdate.on_of_forall (fun _ named => ordered _ named) trivial
  refine FieldUpdate.turns_of_edit inKeyOrder (fun needs => ?_) (h.fields field)
  have changes : u.on field ≠ .noOp := by
    intro same
    rw [same] at needs
    exact needs rfl
  have known : (schema.start current field).isSome :=
    Schema.isSome_start.mpr (.inr (Schema.mem_names_of_unopposed h.unopposed changes))
  exact Option.isSome_iff_ne_none.mp known

/-- A merge that succeeds makes an object in key order, whose keys are those that were stored and
the fields of the schema. Each member is what the update's operation turns it into, starting from
what was stored, or else from the default of the first field of that name. -/
theorem merge_makes (stored : ∀ c, current = some c → c.Ordered)
    (ordered : ∀ e ∈ u.entries, e.2.InKeyOrder) (h : merge schema current u = .ok v) :
    ∃ members, v = .obj members ∧ Entries.Sorted members ∧
      (∀ key, key ∈ members.map (·.1) ↔
        (current.bind (·.member? key)).isSome ∨ key ∈ schema.fields.map (·.name)) ∧
      ∀ field, (u.on field).Turns (schema.start current field) (Entries.find? field members) := by
  have merges := merges_of_ok h
  obtain ⟨members, rfl, sorted⟩ := merges.sorted stored
  refine ⟨members, rfl, sorted, fun key => ?_, merges.turns ordered⟩
  have kept : (Entries.find? key members).isSome ↔
      (schema.start current key).isSome ∨ u.on key ≠ .noOp :=
    (merges.turns ordered key).isSome
  rw [Entries.mem_keys_iff, kept, Schema.isSome_start]
  refine ⟨fun made => ?_, .inl⟩
  rcases made with held | changes
  · exact held
  · exact .inr (Schema.mem_names_of_unopposed merges.unopposed changes)

end Makes

/-! ## A sample -/

/-- A schema with a list, of which the name is listed once more, and a map. -/
def Schema.labelled : Schema :=
  ((empty.withField "tags" .list .null).withField "labels" .map (.obj [("a", .int 1)])).withField
    "tags" .scalar (.int 0)

/-- Add to the list and take out of it, and put a key into the map that is dropped as well. -/
def PartialUpdate.labelling : PartialUpdate :=
  (empty.with_ "tags" (.listOps [.str "y", .str "x", .str "y"] [.str "x"])).with_ "labels"
    (.mapOps [("b", .int 2)] ["a", "b"])

/-- A default that is null is read as empty, what is no field stays, and of a key both put and
dropped the put wins. -/
theorem merge_makes_labelling : ∃ members,
    merge .labelled (some (.obj [("extra", .null)])) .labelling = .ok (.obj members) ∧
    (∀ key, key ∈ members.map (·.1) ↔ ((Value.obj [("extra", .null)]).member? key).isSome ∨
      key ∈ Schema.labelled.fields.map (·.name)) ∧
    FieldUpdate.Turns (some .null) (Entries.find? "tags" members)
      (.listOps [.str "y", .str "x", .str "y"] [.str "x"]) ∧
    Entries.find? "tags" members = some (.arr [.str "y", .str "x"]) ∧
    Entries.find? "labels" members = some (.obj [("b", .int 2)]) := by
  have merged : merge .labelled (some (.obj [("extra", .null)])) .labelling =
      .ok (.obj [("extra", .null), ("labels", .obj [("b", .int 2)]),
        ("tags", .arr [.str "y", .str "x"])]) := rfl
  have stored : ∀ c, some (Value.obj [("extra", .null)]) = some c → c.Ordered := by
    rintro c ⟨⟩
    simp [Value.Ordered, Value.OrderedMembers, Entries.Sorted]
  have ordered : ∀ e ∈ PartialUpdate.labelling.entries, e.2.InKeyOrder := by
    show ∀ e ∈ [("labels", FieldUpdate.mapOps [("b", .int 2)] ["a", "b"]),
      ("tags", .listOps [.str "y", .str "x", .str "y"] [.str "x"])], e.2.InKeyOrder
    simp [FieldUpdate.InKeyOrder, Value.Ordered, Value.OrderedItems,
      Value.OrderedMembers, Entries.Sorted]
  obtain ⟨members, same, -, keys, turns⟩ := merge_makes stored ordered merged
  cases same
  exact ⟨_, merged, keys, turns "tags", rfl, rfl⟩

end StoreFeed
