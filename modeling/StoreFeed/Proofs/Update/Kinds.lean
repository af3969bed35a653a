import Mathlib.Data.List.Induction
import StoreFeed.Proofs.Update.Merge

/-!
# Values that fit their fields

A list field fits if it holds an array or null, a map field if it holds an object or null. An
operation on a collection asks for no more, and leaves a field that fits. A set is not checked: it
can put a value where no operation of the field's kind applies any more. So merges keep values that
fit exactly if what they set fits (`fitting_iff`).
-/

namespace StoreFeed

open Json

/-- What a field of a kind may hold; a scalar may hold anything. -/
def FieldKind.admits : FieldKind → Value → Bool
  | .scalar, _ => true
  | .list, .arr _ => true
  | .map, .obj _ => true
  | _, .null => true
  | _, _ => false

/-- What is in a field, if anything, may be there. -/
def FieldKind.Fits (kind : FieldKind) (held : Option Value) : Prop :=
  ∀ x, held = some x → kind.admits x = true

namespace FieldUpdate

/-- An operation sets nothing that a field of a kind may not hold. -/
def suits (kind : FieldKind) : FieldUpdate → Bool
  | .set value => kind.admits value
  | _ => true

variable {op : FieldUpdate} {kind : FieldKind} {field : String} {held edited : Option Value}

theorem listOf_of_fits (field : String) (fits : FieldKind.list.Fits held) :
    ∃ items, listOf field held = .ok items := by
  cases held with
  | none => exact ⟨[], rfl⟩
  | some x =>
    have admitted := fits x rfl
    cases x with
    | null => exact ⟨[], rfl⟩
    | arr items => exact ⟨items, rfl⟩
    | _ => cases admitted

theorem mapOf_of_fits (field : String) (fits : FieldKind.map.Fits held) :
    ∃ entries, mapOf field held = .ok entries := by
  cases held with
  | none => exact ⟨[], rfl⟩
  | some x =>
    have admitted := fits x rfl
    cases x with
    | null => exact ⟨[], rfl⟩
    | obj entries => exact ⟨entries, rfl⟩
    | _ => cases admitted

/-- An operation for a field applies to it if it fits. -/
theorem edit_of_fits (field : String) (needs : op.IsFor kind) (fits : kind.Fits held) :
    ∃ edited, op.edit field held = .ok edited := by
  cases op with
  | noOp => exact ⟨held, rfl⟩
  | set value => exact ⟨some value, rfl⟩
  | listOps add remove =>
    rcases needs with none | own
    · cases none
    · cases own
      obtain ⟨items, listed⟩ := listOf_of_fits field fits
      exact ⟨_, by rw [edit, listed]; rfl⟩
  | mapOps put remove =>
    rcases needs with none | own
    · cases none
    · cases own
      obtain ⟨entries, listed⟩ := mapOf_of_fits field fits
      exact ⟨_, by rw [edit, listed]; rfl⟩

/-- Whatever a field held, it fits once an operation on its collection went through. -/
theorem fits_of_needed (needs : op.neededKind? = some kind) (h : op.edit field held = .ok edited) :
    kind.Fits edited := by
  rintro x rfl
  cases op with
  | noOp => cases needs
  | set value => cases needs
  | listOps add remove =>
    cases needs
    obtain ⟨items, -, made⟩ := listOps_cases h
    cases made
    rfl
  | mapOps put remove =>
    cases needs
    obtain ⟨entries, -, made⟩ := mapOps_cases h
    cases made
    rfl

/-- An operation that suits a field leaves it fitting. -/
theorem fits_edit (needs : op.IsFor kind) (suits : op.suits kind = true) (fits : kind.Fits held)
    (h : op.edit field held = .ok edited) : kind.Fits edited := by
  rcases needs with none | own
  · cases op with
    | noOp =>
      cases h
      exact fits
    | set value =>
      cases h
      rintro x ⟨⟩
      exact suits
    | listOps add remove => cases none
    | mapOps put remove => cases none
  · exact fits_of_needed own h

/-- A field that fits was set to nothing that it may not hold. -/
theorem suits_of_fits (fits : kind.Fits edited) (h : op.edit field held = .ok edited) :
    op.suits kind = true := by
  cases op with
  | set value =>
    cases h
    exact fits value rfl
  | _ => rfl

end FieldUpdate

/-- An update sets nothing that the fields of a schema may not hold. -/
def PartialUpdate.Suits (u : PartialUpdate) (schema : Schema) : Prop :=
  ∀ field f, schema.field? field = some f → (u.on field).suits f.kind = true

theorem PartialUpdate.Suits.on {u : PartialUpdate} {schema : Schema} (h : u.Suits schema)
    (field : String) : (u.on field).suits (schema.kindOf field) = true := by
  cases known : schema.field? field with
  | none =>
    rw [Schema.kindOf, known]
    cases u.on field <;> rfl
  | some f =>
    rw [Schema.kindOf_of_field? known]
    exact h field f known

namespace Schema

/-- Every default may be where it goes. -/
def Sound (s : Schema) : Prop := ∀ field f, s.field? field = some f → f.kind.admits f.default = true

/-- A value holds something in every field, and what may be there. -/
def Accepts (s : Schema) (v : Value) : Prop :=
  ∀ field f, s.field? field = some f → ∃ x, v.member? field = some x ∧ f.kind.admits x = true

theorem Accepts.fits {s : Schema} {v : Value} (h : s.Accepts v) (field : String) :
    (s.kindOf field).Fits (v.member? field) := by
  intro x held
  cases known : s.field? field with
  | none =>
    rw [kindOf, known]
    rfl
  | some f =>
    obtain ⟨x', held', admitted⟩ := h field f known
    cases held.symm.trans held'
    rw [kindOf_of_field? known]
    exact admitted

/-- A merge starts from an object whose fields fit. -/
structure Fits (s : Schema) (current : Option Value) : Prop where
  readable : ∃ members, storedMembers current = .ok members
  fields : ∀ field, (s.kindOf field).Fits (s.start current field)

theorem fits_none {s : Schema} (sound : s.Sound) : s.Fits none where
  readable := ⟨[], rfl⟩
  fields field x start := by
    obtain ⟨f, known, rfl⟩ := Option.map_eq_some_iff.mp start
    rw [kindOf_of_field? known]
    exact sound field f known

end Schema

section Merges

variable {schema : Schema} {current : Option Value} {u : PartialUpdate} {v : Value}

/-- An update that nothing speaks against is merged into what fits. -/
theorem Schema.Fits.merge (fits : schema.Fits current)
    (unopposed : schema.firstObjection? u = none) :
    ∃ v, merge schema current u = .ok v :=
  merge_of_edits unopposed fits.readable fun field =>
    FieldUpdate.edit_of_fits field (schema.isFor_of_unopposed unopposed field) (fits.fields field)

/-- What an update that suits the schema makes of what fits is accepted. -/
theorem Merges.accepts (h : Merges schema current u v) (fits : schema.Fits current)
    (suits : u.Suits schema) : schema.Accepts v := by
  intro field f known
  obtain ⟨x, held⟩ := h.holds known
  have fits' := FieldUpdate.fits_edit (schema.isFor_of_unopposed h.unopposed field) (suits.on field)
    (fits.fields field) (h.fields field) x held
  rw [Schema.kindOf_of_field? known] at fits'
  exact ⟨x, held, fits'⟩

/-- Only an update that suits the schema makes a value that is accepted. -/
theorem Merges.suits (h : Merges schema current u v) (accepted : schema.Accepts v) :
    u.Suits schema := by
  intro field f known
  rw [← Schema.kindOf_of_field? known]
  exact FieldUpdate.suits_of_fits (accepted.fits field) (h.fields field)

theorem Merges.fits (h : Merges schema current u v) (accepted : schema.Accepts v) :
    schema.Fits (some v) where
  readable := h.readable_again
  fields field := by
    rw [h.start]
    exact accepted.fits field

end Merges

/-! ## Sequences of updates -/

namespace Schema

variable {schema : Schema} {us : List PartialUpdate} {u : PartialUpdate} {v : Value}

/-- What is stored once an update was tried: one that is refused changes nothing. -/
def keep (s : Schema) (current : Option Value) (u : PartialUpdate) : Option Value :=
  match merge s current u with
  | .ok v => some v
  | .error _ => current

/-- What is stored after some updates, where nothing was before. -/
def stored (s : Schema) (us : List PartialUpdate) : Option Value := us.foldl s.keep none

/-- One of some updates is merged, and makes a value. -/
def Makes (s : Schema) (us : List PartialUpdate) (u : PartialUpdate) (v : Value) : Prop :=
  ∃ earlier later, us = earlier ++ u :: later ∧ merge s (s.stored earlier) u = .ok v

theorem stored_concat (us : List PartialUpdate) (u : PartialUpdate) :
    schema.stored (us ++ [u]) = schema.keep (schema.stored us) u := by
  rw [stored, List.foldl_append]
  rfl

theorem Makes.append (h : schema.Makes us u v) (us' : List PartialUpdate) :
    schema.Makes (us ++ us') u v := by
  obtain ⟨earlier, later, rfl, makes⟩ := h
  exact ⟨earlier, later ++ us', by simp, makes⟩

theorem makes_last (h : merge schema (schema.stored us) u = .ok v) : schema.Makes (us ++ [u]) u v :=
  ⟨us, [], rfl, h⟩

/-- As long as what is merged suits the schema, what is stored fits. -/
theorem fits_stored (sound : schema.Sound) (us : List PartialUpdate)
    (suits : ∀ u v, schema.Makes us u v → u.Suits schema) : schema.Fits (schema.stored us) := by
  induction us using List.reverseRecOn with
  | nil => exact fits_none sound
  | append_singleton us u ih =>
    have fits := ih fun u' v makes => suits u' v (makes.append [u])
    rw [stored_concat, keep]
    split
    · rename_i v merged
      have merges := merges_of_ok merged
      exact merges.fits (merges.accepts fits (suits u v (makes_last merged)))
    · exact fits

/-- Where the defaults fit, all values that are made are accepted exactly if no update that is
merged sets a list field to anything but an array or null, or a map field to anything but an object
or null. Then a later update is merged if nothing speaks against its fields and kinds. -/
theorem fitting_iff (schema : Schema) (sound : schema.Sound) (us : List PartialUpdate) :
    ((∀ u v, schema.Makes us u v → schema.Accepts v) ↔
        ∀ u v, schema.Makes us u v → u.Suits schema) ∧
      ((∀ u v, schema.Makes us u v → u.Suits schema) →
        ∀ u, schema.firstObjection? u = none → ∃ v, merge schema (schema.stored us) u = .ok v) := by
  refine ⟨⟨fun accepted u v makes => ?_, fun suits u v makes => ?_⟩, fun suits u unopposed => ?_⟩
  · obtain ⟨earlier, later, rfl, merged⟩ := makes
    exact (merges_of_ok merged).suits (accepted u v ⟨earlier, later, rfl, merged⟩)
  · obtain ⟨earlier, later, rfl, merged⟩ := makes
    have fits := fits_stored sound earlier fun u' v' makes => suits u' v' (makes.append _)
    exact (merges_of_ok merged).accepts fits (suits u v ⟨earlier, later, rfl, merged⟩)
  · exact (fits_stored sound us suits).merge unopposed

theorem sound_tagged : tagged.Sound := by
  intro field f known
  obtain ⟨-, rfl⟩ := field?_tagged known
  rfl

/-- A list is added to, emptied, and added to again. -/
theorem fitting_iff_emptied : tagged.Sound ∧
    ∃ v, merge tagged (tagged.stored [.tagging, .emptying]) .tagging = .ok v := by
  refine ⟨sound_tagged, (fitting_iff tagged sound_tagged [.tagging, .emptying]).2 ?_ .tagging rfl⟩
  rintro u v ⟨earlier, later, split, -⟩ field f known
  obtain ⟨rfl, rfl⟩ := field?_tagged known
  have among : u ∈ [PartialUpdate.tagging, PartialUpdate.emptying] := by
    rw [split]
    exact List.mem_append_right _ List.mem_cons_self
  simp only [List.mem_cons, List.not_mem_nil, or_false] at among
  rcases among with rfl | rfl
  · rfl
  · rfl

/-- A list field is set to a text, and can be added to no more. -/
theorem poisoned_tags : tagged.Sound ∧ ∃ v, tagged.Makes
    [.untagging] .untagging v ∧ ¬ tagged.Accepts v ∧
    tagged.firstObjection? .tagging = none ∧
    merge tagged (tagged.stored [.untagging]) .tagging = .error
      (.notAList "tags" (.str "none")) := by
  refine ⟨sound_tagged, .obj [("tags", .str "none")], ⟨[], [], rfl, rfl⟩,
    fun accepted => ?_, rfl, rfl⟩
  obtain ⟨x, held, admitted⟩ := accepted "tags" ⟨"tags", .list, .arr []⟩ rfl
  cases held
  cases admitted

end Schema

end StoreFeed
