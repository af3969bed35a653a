import StoreFeed.Proofs.Update.Merge

/-!
# Why merges are refused

A merge is refused for one of three reasons, and the first that applies gives the error (`Refused`):
an operation that the schema does not allow on its field, a stored value that is no object, or a
field that holds what its operation does not apply to. Of several fields the first by name counts.
Each field is judged on its own, so an operation that is not at fault never changes the error
(`merge_error_iff`).
-/

namespace StoreFeed

open Json

theorem compare_lt_iff {a b : String} : compare a b = .lt ↔ a < b := by
  show compareOfLessAndEq a b = .lt ↔ a < b
  unfold compareOfLessAndEq
  by_cases h : a < b
  · simp [h]
  · rw [if_neg h]
    split <;> simp [h]

/-! ## What is at fault in one field -/

/-- The schema lacks the field of an operation, or its first field of that name is of another
kind. -/
inductive Schema.Opposes (s : Schema) (field : String) : FieldUpdate → DataError → Prop
  | unknown {op : FieldUpdate} : s.field? field = none → Opposes s field op (.unknownField field)
  | notList {f : FieldSchema} {add remove : List Value} : s.field? field = some f → f.kind ≠ .list →
      Opposes s field (.listOps add remove) (.kindMismatch field f.kind .list)
  | notMap {f : FieldSchema} {put : Entries String Value} {remove : List String} :
      s.field? field = some f → f.kind ≠ .map →
      Opposes s field (.mapOps put remove) (.kindMismatch field f.kind .map)

/-- What a field holds is neither null nor what the operation on it is for. -/
inductive FieldUpdate.Misses (field : String) : FieldUpdate → Option Value → DataError → Prop
  | list {add remove : List Value} {found : Value} : found ≠ .null → (∀ items, found ≠ .arr items) →
      Misses field (.listOps add remove) (some found) (.notAList field found)
  | map {put : Entries String Value} {remove : List String} {found : Value} : found ≠ .null →
      (∀ members, found ≠ .obj members) →
      Misses field (.mapOps put remove) (some found) (.notAMap field found)

theorem Schema.opposes_iff {s : Schema} {field : String} {op : FieldUpdate} {e : DataError} :
    s.Opposes field op e ↔ s.objection? field op = some e := by
  constructor
  · intro h
    cases h with
    | unknown unknown => simp [objection?, unknown]
    | notList known other => simp [objection?, known, FieldUpdate.neededKind?, Ne.symm other]
    | notMap known other => simp [objection?, known, FieldUpdate.neededKind?, Ne.symm other]
  · intro h
    unfold objection? at h
    split at h
    · rename_i unknown
      cases h
      exact .unknown unknown
    · rename_i f known
      cases op with
      | set value => cases h
      | noOp => cases h
      | listOps add remove =>
        dsimp only [FieldUpdate.neededKind?] at h
        split at h
        · cases h
        · rename_i other
          cases h
          exact .notList known (Ne.symm other)
      | mapOps put remove =>
        dsimp only [FieldUpdate.neededKind?] at h
        split at h
        · cases h
        · rename_i other
          cases h
          exact .notMap known (Ne.symm other)

namespace FieldUpdate

variable {field : String} {held : Option Value} {e : DataError}

theorem listOf_error_iff : listOf field held = .error e ↔ ∃ found, held = some found ∧
    found ≠ .null ∧ (∀ items, found ≠ .arr items) ∧ e = .notAList field found := by
  constructor
  · intro h
    unfold listOf at h
    split at h
    · cases h
    · cases h
    · cases h
    · rename_i found notNull other
      cases h
      exact ⟨found, rfl, by rintro rfl; exact notNull rfl,
        by rintro items rfl; exact other items rfl, rfl⟩
  · rintro ⟨found, rfl, notNull, other, rfl⟩
    cases found with
    | null => exact absurd rfl notNull
    | arr items => exact absurd rfl (other items)
    | _ => rfl

theorem mapOf_error_iff : mapOf field held = .error e ↔ ∃ found, held = some found ∧
    found ≠ .null ∧ (∀ members, found ≠ .obj members) ∧ e = .notAMap field found := by
  constructor
  · intro h
    unfold mapOf at h
    split at h
    · cases h
    · cases h
    · cases h
    · rename_i found notNull other
      cases h
      exact ⟨found, rfl, by rintro rfl; exact notNull rfl,
        by rintro items rfl; exact other items rfl, rfl⟩
  · rintro ⟨found, rfl, notNull, other, rfl⟩
    cases found with
    | null => exact absurd rfl notNull
    | obj members => exact absurd rfl (other members)
    | _ => rfl

/-- An operation does not edit a field exactly if it misses. -/
theorem misses_iff {op : FieldUpdate} : op.Misses field held e ↔ op.edit field held = .error e := by
  constructor
  · intro h
    cases h with
    | list notNull other => rw [edit, listOf_error_iff.mpr ⟨_, rfl, notNull, other, rfl⟩]; rfl
    | map notNull other => rw [edit, mapOf_error_iff.mpr ⟨_, rfl, notNull, other, rfl⟩]; rfl
  · intro h
    cases op with
    | noOp => cases h
    | set value => cases h
    | listOps add remove =>
      cases listed : listOf field held with
      | ok items =>
        rw [edit, listed] at h
        cases h
      | error e' =>
        rw [edit, listed] at h
        cases h
        obtain ⟨found, rfl, notNull, other, rfl⟩ := listOf_error_iff.mp listed
        exact .list notNull other
    | mapOps put remove =>
      cases listed : mapOf field held with
      | ok entries =>
        rw [edit, listed] at h
        cases h
      | error e' =>
        rw [edit, listed] at h
        cases h
        obtain ⟨found, rfl, notNull, other, rfl⟩ := mapOf_error_iff.mp listed
        exact .map notNull other

end FieldUpdate

theorem storedMembers_error_iff {current : Option Value} {e : DataError} :
    storedMembers current = .error e ↔
      ∃ found, current = some found ∧ (∀ members, found ≠ .obj members) ∧
        e = .notAnObject found := by
  constructor
  · intro h
    unfold storedMembers at h
    split at h
    · cases h
    · cases h
    · rename_i found other
      cases h
      exact ⟨found, rfl, by rintro members rfl; exact other members rfl, rfl⟩
  · rintro ⟨found, rfl, other, rfl⟩
    cases found with
    | obj members => exact absurd rfl (other members)
    | _ => rfl

/-! ## The first field at fault -/

namespace PartialUpdate

/-- An operation of an update is at fault, in a given sense. -/
def Faults (u : PartialUpdate) (fault : String → FieldUpdate → DataError → Prop) (field : String)
    (e : DataError) : Prop :=
  ∃ op, u.find? field = some op ∧ fault field op e

/-- The error of the first field that is at fault. -/
def FirstFault (u : PartialUpdate) (fault : String → FieldUpdate → DataError → Prop)
    (e : DataError) : Prop :=
  ∃ field, u.Faults fault field e ∧ ∀ earlier < field, ∀ e', ¬ u.Faults fault earlier e'

variable {u : PartialUpdate} {fault : String → FieldUpdate → DataError → Prop} {e e' : DataError}

/-- If an operation has one fault at most, an update has one first fault at most. -/
theorem FirstFault.unique (single : ∀ field op e e', fault field op e → fault field op e' → e = e')
    (h : u.FirstFault fault e) (h' : u.FirstFault fault e') : e = e' := by
  obtain ⟨field, faults, first⟩ := h
  obtain ⟨field', faults', first'⟩ := h'
  obtain rfl : field = field' := by
    cases order : compare field field' with
    | lt => exact absurd faults (first' field (compare_lt_iff.mp order) e)
    | eq => exact Entries.compare_eq_iff.mp order
    | gt =>
      exact absurd faults' (first field'
        (compare_lt_iff.mp (Std.OrientedCmp.gt_iff_lt.mp order)) e')
  obtain ⟨op, named, faulty⟩ := faults
  obtain ⟨op', named', faulty'⟩ := faults'
  cases named.symm.trans named'
  exact single field op e e' faulty faulty'

/-- In the list of operations the first fault has none before it. -/
theorem firstFault_of_split {earlier later : List (String × FieldUpdate)}
    {field : String} {op : FieldUpdate} (split : u.entries = earlier ++ (field, op) :: later)
    (fine : ∀ f o, (f, o) ∈ earlier → ∀ e', ¬ fault f o e') (faulty : fault field op e) :
    u.FirstFault fault e := by
  have listed : (field, op) ∈ u.entries := by simp [split]
  refine ⟨field, ⟨op, SortedMap.mem_entries.mp listed, faulty⟩, ?_⟩
  rintro f before e' ⟨o, named, faulty'⟩
  have among := SortedMap.mem_entries.mpr named
  have sorted := u.sorted
  rw [split] at among
  rw [split, Entries.Sorted, List.pairwise_append, List.pairwise_cons] at sorted
  obtain ⟨-, ⟨behind, -⟩, -⟩ := sorted
  rcases List.mem_append.mp among with among | among
  · exact fine f o among e' faulty'
  · rcases List.mem_cons.mp among with same | among
    · cases same
      exact absurd before (String.lt_irrefl field)
    · exact absurd (compare_lt_iff.mp (behind _ among)) (String.lt_asymm before)

/-- What an update's faults are decides which is the first. -/
theorem FirstFault.congr {u' : PartialUpdate}
    (same : ∀ field e, u.Faults fault field e ↔ u'.Faults fault field e) :
    u.FirstFault fault e ↔ u'.FirstFault fault e := by
  simp only [FirstFault, same]

/-- Another operation on a field, where neither it nor the old one is at fault, leaves the faults
alone. -/
theorem faults_with {other : String} {op : FieldUpdate} (fine : ∀ e, ¬ fault other op e)
    (before : ∀ e, ¬ u.Faults fault other e) (field : String) (e : DataError) :
    (u.with_ other op).Faults fault field e ↔ u.Faults fault field e := by
  by_cases here : field = other
  · subst here
    refine iff_of_false ?_ (before e)
    rintro ⟨op', named, faulty⟩
    rw [with_, SortedMap.find?_insert_self] at named
    cases named
    exact fine e faulty
  · unfold Faults with_
    rw [SortedMap.find?_insert_of_ne u here]

end PartialUpdate

/-! ## The reason of a refusal -/

/-- An operation misses what a merge finds in its field. -/
def Schema.Misses (s : Schema) (current : Option Value) (field : String)
    (op : FieldUpdate) (e : DataError) :
    Prop :=
  op.Misses field (s.start current field) e

/-- What is stored is no object. -/
def Unreadable (current : Option Value) (found : Value) : Prop :=
  current = some found ∧ ∀ members, found ≠ .obj members

/-- Why a merge is refused: what the schema opposes comes first, then what is stored, then what an
operation misses. -/
inductive Refused (schema : Schema) (current : Option Value) (u : PartialUpdate) : DataError → Prop
  | opposed {e : DataError} : u.FirstFault schema.Opposes e → Refused schema current u e
  | unreadable {found : Value} : (∀ field e, ¬ u.Faults schema.Opposes field e) →
      Unreadable current found →
      Refused schema current u (.notAnObject found)
  | missed {e : DataError} : (∀ field e, ¬ u.Faults schema.Opposes field e) →
      (∀ found, ¬ Unreadable current found) → u.FirstFault (schema.Misses current) e →
      Refused schema current u e

section

variable {schema : Schema} {current : Option Value} {u : PartialUpdate}
    {v : Value} {e e' : DataError}

theorem Schema.firstFault_of_objection (h : schema.firstObjection? u = some e) :
    u.FirstFault schema.Opposes e := by
  obtain ⟨earlier, ⟨field, op⟩, later, split, objection, fine⟩ := List.findSome?_eq_some_iff.mp h
  refine PartialUpdate.firstFault_of_split split (fun f o among e' opposed => ?_)
    (opposes_iff.mpr objection)
  cases (fine _ among).symm.trans (opposes_iff.mp opposed)

theorem Schema.unopposed_iff :
    schema.firstObjection? u = none ↔ ∀ field e, ¬ u.Faults schema.Opposes field e := by
  rw [firstObjection?, List.findSome?_eq_none_iff]
  constructor
  · rintro fine field e ⟨op, named, opposed⟩
    cases (fine _ (SortedMap.mem_entries.mpr named)).symm.trans (opposes_iff.mp opposed)
  · rintro fine ⟨field, op⟩ listed
    refine Option.eq_none_iff_forall_ne_some.mpr fun e objection => ?_
    exact fine field e ⟨op, SortedMap.mem_entries.mp listed, opposes_iff.mpr objection⟩

theorem readable_iff :
    (∃ members, storedMembers current = .ok members) ↔ ∀ found, ¬ Unreadable current found := by
  constructor
  · rintro ⟨members, readable⟩ found ⟨rfl, other⟩
    cases readable.symm.trans (storedMembers_error_iff.mpr ⟨found, rfl, other, rfl⟩)
  · intro fine
    cases stored : storedMembers current with
    | ok members => exact ⟨members, rfl⟩
    | error e =>
      obtain ⟨found, same, other, -⟩ := storedMembers_error_iff.mp stored
      exact absurd ⟨same, other⟩ (fine found)

theorem refused_of_error (h : merge schema current u = .error e) : Refused schema current u e := by
  rcases merge_cases schema current u with ⟨e', objection, error⟩ | ⟨unopposed, e', stored, error⟩ |
      ⟨unopposed, readable, earlier, field, op, later, e', split, fine, missed, error⟩ | ⟨v, ok, -⟩
  · cases error.symm.trans h
    exact .opposed (Schema.firstFault_of_objection objection)
  · cases error.symm.trans h
    obtain ⟨found, same, other, rfl⟩ := storedMembers_error_iff.mp stored
    exact .unreadable (Schema.unopposed_iff.mp unopposed) ⟨same, other⟩
  · cases error.symm.trans h
    refine .missed (Schema.unopposed_iff.mp unopposed) (readable_iff.mp readable)
      (PartialUpdate.firstFault_of_split split (fun f o among e' missed' => ?_)
        (FieldUpdate.misses_iff.mpr missed))
    obtain ⟨x, edited⟩ := fine f o among
    cases edited.symm.trans (FieldUpdate.misses_iff.mp missed')
  · cases ok.symm.trans h

theorem Merges.not_misses (h : Merges schema current u v) (field : String) (e : DataError) :
    ¬ u.Faults (schema.Misses current) field e := by
  rintro ⟨op, named, missed⟩
  have edited := h.fields field
  rw [PartialUpdate.on_of_mem (SortedMap.mem_entries.mpr named)] at edited
  cases edited.symm.trans (FieldUpdate.misses_iff.mp missed)

/-- What is at fault when a merge is refused. -/
theorem Refused.fault (h : Refused schema current u e) :
    (∃ field e, u.Faults schema.Opposes field e) ∨ (∃ found, Unreadable current found) ∨
      ∃ field e, u.Faults (schema.Misses current) field e := by
  cases h with
  | opposed first => exact .inl ⟨_, e, first.choose_spec.1⟩
  | unreadable _ unreadable => exact .inr (.inl ⟨_, unreadable⟩)
  | missed _ _ first => exact .inr (.inr ⟨_, e, first.choose_spec.1⟩)

/-- A merge is refused exactly if something is at fault, in one of three ways. -/
theorem exists_error_iff : (∃ e, merge schema current u = .error e) ↔
    (∃ field e, u.Faults schema.Opposes field e) ∨ (∃ found, Unreadable current found) ∨
      ∃ field e, u.Faults (schema.Misses current) field e := by
  refine ⟨fun ⟨e, error⟩ => (refused_of_error error).fault, fun fault => ?_⟩
  cases merged : merge schema current u with
  | error e => exact ⟨e, rfl⟩
  | ok v =>
    have merges := merges_of_ok merged
    rcases fault with ⟨field, e, opposed⟩ | ⟨found, unreadable⟩ | ⟨field, e, missed⟩
    · exact absurd opposed (Schema.unopposed_iff.mp merges.unopposed field e)
    · exact absurd unreadable (readable_iff.mp merges.readable found)
    · exact absurd missed (merges.not_misses field e)

/-- There is one reason at most. -/
theorem Refused.unique (h : Refused schema current u e) (h' : Refused schema current u e') :
    e = e' := by
  cases h with
  | opposed first =>
    cases h' with
    | opposed first' =>
      refine first.unique (fun field op e e' opposed opposed' => ?_) first'
      exact Option.some.inj ((Schema.opposes_iff.mp opposed).symm.trans
        (Schema.opposes_iff.mp opposed'))
    | unreadable unopposed _ => exact absurd first.choose_spec.1 (unopposed _ e)
    | missed unopposed _ _ => exact absurd first.choose_spec.1 (unopposed _ e)
  | unreadable unopposed unreadable =>
    cases h' with
    | opposed first' => exact absurd first'.choose_spec.1 (unopposed _ e')
    | unreadable _ unreadable' =>
      cases unreadable.1.symm.trans unreadable'.1
      rfl
    | missed _ readable _ => exact absurd unreadable (readable _)
  | missed unopposed readable first =>
    cases h' with
    | opposed first' => exact absurd first'.choose_spec.1 (unopposed _ e')
    | unreadable _ unreadable' => exact absurd unreadable' (readable _)
    | missed _ _ first' =>
      refine first.unique (fun field op e e' missed missed' => ?_) first'
      exact Except.error.inj
        ((FieldUpdate.misses_iff.mp missed).symm.trans (FieldUpdate.misses_iff.mp missed'))

/-- A merge returns an error exactly for this reason. -/
theorem error_iff_refused : merge schema current u = .error e ↔ Refused schema current u e := by
  refine ⟨refused_of_error, fun refused => ?_⟩
  obtain ⟨e', error⟩ := exists_error_iff.mpr refused.fault
  rw [refused.unique (refused_of_error error)]
  exact error

/-- The reason depends on the operations that are at fault only. -/
theorem Refused.congr {u' : PartialUpdate}
    (opposes : ∀ field e, u.Faults schema.Opposes field e ↔ u'.Faults schema.Opposes field e)
    (misses : ∀ field e, u.Faults (schema.Misses current) field e ↔
      u'.Faults (schema.Misses current) field e)
    (h : Refused schema current u e) : Refused schema current u' e := by
  cases h with
  | opposed first => exact .opposed ((PartialUpdate.FirstFault.congr opposes).mp first)
  | unreadable unopposed unreadable =>
    exact .unreadable (fun field e => mt (opposes field e).mpr (unopposed field e)) unreadable
  | missed unopposed readable first =>
    exact .missed (fun field e => mt (opposes field e).mpr (unopposed field e)) readable
      ((PartialUpdate.FirstFault.congr misses).mp first)

end

/-- An operation on a field has no fault: the schema does not oppose it, and it does not miss. -/
def Schema.Faultless (s : Schema) (current : Option Value) (field : String) (op : FieldUpdate) :
    Prop :=
  ∀ e, ¬ s.Opposes field op e ∧ ¬ s.Misses current field op e

/-- A merge is refused exactly if the schema opposes an operation, what is stored is no object, or
an operation misses. It returns the error of the first of these that applies, and of the first such
field. To exchange faultless operations of a field, or to add one, does not change which error it
returns. -/
theorem merge_error_iff (schema : Schema) (current : Option Value) (u : PartialUpdate) :
    ((∃ e, merge schema current u = .error e) ↔
      (∃ field e, u.Faults schema.Opposes field e) ∨ (∃ found, Unreadable current found) ∨
        ∃ field e, u.Faults (schema.Misses current) field e) ∧
    (∀ e, merge schema current u = .error e ↔ Refused schema current u e) ∧
    ∀ other op, (∀ op', u.find? other = some op' → schema.Faultless current other op') →
      schema.Faultless current other op → ∀ e,
        (merge schema current (u.with_ other op) = .error e ↔
          merge schema current u = .error e) := by
  refine ⟨exists_error_iff, fun e => error_iff_refused, fun other op before fine e => ?_⟩
  have opposes := PartialUpdate.faults_with (u := u) (fun e => (fine e).1)
    fun e ⟨op', named, opposed⟩ => (before op' named e).1 opposed
  have misses := PartialUpdate.faults_with (u := u) (fun e => (fine e).2)
    fun e ⟨op', named, missed⟩ => (before op' named e).2 missed
  rw [error_iff_refused, error_iff_refused]
  exact ⟨Refused.congr opposes misses,
    Refused.congr (fun field e => (opposes field e).symm) fun field e => (misses field e).symm⟩

end StoreFeed
