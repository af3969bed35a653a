import StoreFeed.Proofs.Update.Refusals

/-!
# Merging into the defaults

A merge without a stored value starts from the default of the first field of each name, and the
default value of a schema holds that of the last one. What a merge makes depends on where it starts
alone (`merge_congr`), so to store the default value first makes no difference exactly if these two
defaults are the same for every name (`merge_defaults_iff`).
-/

namespace StoreFeed

open Json

/-! ## First and last fields -/

namespace Schema

/-- The last field of a name. -/
def lastField? (s : Schema) (name : String) : Option FieldSchema :=
  s.fields.reverse.find? (·.name == name)

/-- The first and the last default of every name are related. -/
def Relates (s : Schema) (R : Value → Value → Prop) : Prop :=
  ∀ name first last, s.field? name = some first → s.lastField? name = some last →
    R first.default last.default

theorem find?_defaults (fields : List FieldSchema) (name : String) :
    Entries.find? name (fields.map fun f => (f.name, f.default)) =
      (fields.find? (·.name == name)).map (·.default) := by
  induction fields with
  | nil => rfl
  | cons f fields ih =>
    rw [List.map_cons, Entries.find?_cons, List.find?_cons, ih]
    by_cases here : f.name = name
    · simp [here]
    · have other : (f.name == name) = false := beq_eq_false_iff_ne.mpr here
      rw [other, if_neg fun same => here (Entries.compare_eq_iff.mp same).symm]

/-- The default value holds the last default of each name. -/
theorem member?_defaultValue (s : Schema) (name : String) :
    s.defaultValue.member? name = (s.lastField? name).map (·.default) := by
  show Entries.find? name (Entries.ofList (s.fields.map fun f => (f.name, f.default))) = _
  rw [Entries.ofList, FieldUpdate.find?_foldl_insert, ← List.map_reverse,
    find?_defaults, lastField?]
  simp

/-- A name without a first field has no last one. -/
theorem lastField?_eq_none_iff {s : Schema} {name : String} :
    s.lastField? name = none ↔ s.field? name = none := by
  simp [lastField?, field?]

theorem start_none (s : Schema) (name : String) :
    s.start none name = (s.field? name).map (·.default) := rfl

theorem start_defaultValue (s : Schema) (name : String) :
    s.start (some s.defaultValue) name = (s.lastField? name).map (·.default) := by
  show (s.defaultValue.member? name).or _ = _
  rw [member?_defaultValue]
  cases last : s.lastField? name with
  | some f => rfl
  | none =>
    rw [lastField?_eq_none_iff.mp last]
    rfl

/-- A merge finds something in the same fields without a stored value and with the default value. -/
theorem isSome_start_defaultValue (s : Schema) (name : String) :
    (s.start none name).isSome = (s.start (some s.defaultValue) name).isSome := by
  rw [start_none, start_defaultValue, Option.isSome_map, Option.isSome_map, Bool.eq_iff_iff,
    ← not_iff_not, Bool.not_eq_true, Bool.not_eq_true, Option.isSome_eq_false_iff,
    Option.isSome_eq_false_iff, Option.isNone_iff_eq_none, Option.isNone_iff_eq_none,
    lastField?_eq_none_iff]

theorem relates_iff {s : Schema} {R : Value → Value → Prop} : s.Relates R ↔ ∀ name a b,
    s.start none name = some a → s.start (some s.defaultValue) name = some b → R a b := by
  simp only [start_none, start_defaultValue, Option.map_eq_some_iff]
  constructor
  · rintro relates name _ _ ⟨first, known, rfl⟩ ⟨last, known', rfl⟩
    exact relates name first last known known'
  · exact fun relates name first last known known' =>
      relates name _ _ ⟨first, known, rfl⟩ ⟨last, known', rfl⟩

/-- An object of the first defaults equals the default value exactly if first and last defaults are
equal. -/
theorem equals_defaultValue_iff {s : Schema} {members : Entries String Value}
    (sorted : members.Sorted) (found : ∀ name, Entries.find? name members = s.start none name) :
    (Value.obj members == s.defaultValue) = true ↔ s.Relates (·.same · = true) := by
  obtain ⟨defaults, same⟩ : ∃ defaults,
      Entries.ofList (s.fields.map fun f => (f.name, f.default)) = defaults :=
    ⟨_, rfl⟩
  have found' : ∀ name, Entries.find? name defaults = s.start (some s.defaultValue) name := by
    intro name
    rw [start_defaultValue, ← member?_defaultValue, ← same]
    rfl
  have unfolded : (Value.obj members == s.defaultValue) = Value.sameMembers members defaults := by
    show (Value.obj members).same (.obj (Entries.ofList _)) = _
    rw [same, Value.same]
  rw [unfolded, relates_iff]
  constructor
  · intro equal name a b start start'
    obtain ⟨b', held, alike⟩ := Value.find?_of_sameMembers equal ((found name).trans start)
    cases held.symm.trans ((found' name).trans start')
    exact alike
  · intro relates
    refine Value.sameMembers_of_find? sorted (same ▸ Entries.sorted_ofList _) (fun name => ?_)
      fun name a b held held' => ?_
    · rw [found, found', isSome_start_defaultValue]
    · exact relates name a b ((found name).symm.trans held) ((found' name).symm.trans held')

end Schema

/-! ## What a merge depends on -/

section

variable {schema : Schema} {current current' : Option Value}

theorem inOrder_defaultValue (schema : Schema) : InOrder (some schema.defaultValue) :=
  inOrder_obj (Entries.sorted_ofList _)

/-- What a merge makes, or why it is refused, depends on what it starts from in each field alone. -/
theorem merge_congr (inOrder : InOrder current) (inOrder' : InOrder current')
    (same : ∀ field, schema.start current field = schema.start current' field) (u : PartialUpdate) :
    merge schema current u = merge schema current' u := by
  have readable : ∃ members, storedMembers current' = .ok members := inOrder'.imp fun _ => And.left
  cases merged : merge schema current u with
  | error e =>
    refine (error_iff_refused.mpr ?_).symm
    cases error_iff_refused.mp merged with
    | opposed first => exact .opposed first
    | unreadable _ unreadable =>
      exact absurd unreadable (readable_iff.mp (inOrder.imp fun _ => And.left) _)
    | missed unopposed _ first =>
      refine .missed unopposed (readable_iff.mp readable) ?_
      unfold Schema.Misses at first ⊢
      simpa only [same] using first
  | ok v =>
    have first := merges_of_ok merged
    have edits : ∀ field, (u.on field).edit field (schema.start current' field) =
        .ok (v.member? field) :=
      fun field => same field ▸ first.fields field
    obtain ⟨w, merged'⟩ := merge_of_edits first.unopposed readable fun field => ⟨_, edits field⟩
    have second := merges_of_ok merged'
    obtain ⟨members, rfl, sorted⟩ := first.inOrder inOrder
    obtain ⟨members', rfl, sorted'⟩ := second.inOrder inOrder'
    rw [merged', Entries.ext_of_sorted sorted sorted' fun field =>
      (second.member?_eq (edits field)).symm]

/-- To merge nothing gives what every merge starts from. -/
theorem merge_empty (schema : Schema) (inOrder : InOrder current) :
    ∃ members, merge schema current .empty = .ok (.obj members) ∧
    Entries.Sorted members ∧ ∀ field, Entries.find? field members = schema.start current field := by
  obtain ⟨v, merged⟩ : ∃ v, merge schema current .empty = .ok v :=
    merge_of_edits rfl (inOrder.imp fun _ => And.left) fun field => ⟨_, rfl⟩
  have merges := merges_of_ok merged
  obtain ⟨members, rfl, sorted⟩ := merges.inOrder inOrder
  exact ⟨members, merged, sorted, fun field => merges.member?_eq rfl⟩

end

/-! ## With and without the default value -/

/-- Exactly if the first and the last default of every name are the same, every update makes the
same of no value as of the default value, or is refused with the same error. To merge nothing into
no value gives a value equal to the default value exactly if these defaults are equal. -/
theorem merge_defaults_iff (schema : Schema) :
    ((∀ u, merge schema none u = merge schema (some schema.defaultValue) u) ↔
      schema.Relates (· = ·)) ∧
      ∃ v, merge schema none .empty = .ok v ∧
        ((v == schema.defaultValue) = true ↔ schema.Relates (·.same · = true)) := by
  have nothing := inOrder_none
  have defaults := inOrder_defaultValue schema
  obtain ⟨members, merged, sorted, found⟩ := merge_empty schema nothing
  constructor
  · constructor
    · intro same
      obtain ⟨members', merged', -, found'⟩ := merge_empty schema defaults
      cases (same .empty ▸ merged).symm.trans merged'
      refine Schema.relates_iff.mpr fun name a b start start' => ?_
      rw [← found] at start
      rw [← found'] at start'
      exact Option.some.inj (start.symm.trans start')
    · intro relates u
      refine merge_congr nothing defaults (fun name => ?_) u
      have both := schema.isSome_start_defaultValue name
      have same := Schema.relates_iff.mp relates name
      cases start : schema.start none name <;> cases start' :
        schema.start (some schema.defaultValue) name <;>
        simp_all
  · exact ⟨_, merged, Schema.equals_defaultValue_iff sorted found⟩

namespace Schema

/-- A schema that lists its list twice, with an element in the second default. -/
def relisted : Schema := tagged.withField "tags" .list (.arr [.str "a"])

end Schema

/-- The list starts empty without a stored value, and from its second default with the default
value. -/
theorem defaults_relisted :
    merge .relisted none .empty = .ok (.obj [("tags", .arr [])]) ∧
      (Value.obj [("tags", .arr [])] == Schema.relisted.defaultValue) = false ∧
      merge .relisted none .tagging = .ok (.obj [("tags", .arr [.str "t"])]) ∧
      merge .relisted (some Schema.relisted.defaultValue) .tagging =
        .ok (.obj [("tags", .arr [.str "a", .str "t"])]) :=
  ⟨rfl, rfl, rfl, rfl⟩

end StoreFeed
