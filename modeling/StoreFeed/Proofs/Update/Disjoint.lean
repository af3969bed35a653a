import StoreFeed.Proofs.Update.Refusals
import StoreFeed.Proofs.Update.Result

/-!
# Updates that name different fields

Two updates that name no field in common can be merged in either order, or as one update with the
operations of both: the three succeed together, and make the same value (`merge_apart`). A merge
does touch fields that its update does not name, since it gives them their defaults, but what the
next merge finds there stays the same.
-/

namespace StoreFeed

open Json

namespace PartialUpdate

/-- The operations of two updates; on a field that both name, that of the second. -/
def together (u₁ u₂ : PartialUpdate) : PartialUpdate :=
  u₂.entries.foldl (fun u e => u.with_ e.1 e.2) u₁

/-- No field is named by both updates. -/
def Apart (u₁ u₂ : PartialUpdate) : Prop := ∀ field, u₁.find? field = none ∨ u₂.find? field = none

variable {u₁ u₂ : PartialUpdate}

theorem entries_foldl_with (ops : List (String × FieldUpdate)) (u : PartialUpdate) :
    (ops.foldl (fun u e => u.with_ e.1 e.2) u).entries =
      ops.foldl (fun m e => Entries.insert e.1 e.2 m) u.entries := by
  induction ops generalizing u with
  | nil => rfl
  | cons e ops ih => exact ih _

theorem find?_together (u₁ u₂ : PartialUpdate) (field : String) :
    (u₁.together u₂).find? field = (u₂.find? field).or (u₁.find? field) := by
  unfold SortedMap.find? together
  rw [entries_foldl_with, FieldUpdate.find?_foldl_insert, u₂.sorted.find?_reverse]

theorem Apart.symm (apart : u₁.Apart u₂) : u₂.Apart u₁ := fun field => (apart field).symm

/-- Of updates that are apart neither goes over the other. -/
theorem Apart.together_comm (apart : u₁.Apart u₂) : u₁.together u₂ = u₂.together u₁ := by
  refine SortedMap.ext fun field => ?_
  rw [find?_together, find?_together]
  rcases apart field with none | none <;> rw [none] <;> simp

/-- On each field two updates that are apart do what one of them does, and the other one does
nothing. -/
theorem Apart.on_cases (apart : u₁.Apart u₂) (field : String) :
    ((u₁.together u₂).on field = u₁.on field ∧ u₂.on field = .noOp) ∨
      ((u₁.together u₂).on field = u₂.on field ∧ u₁.on field = .noOp) := by
  unfold on
  rw [find?_together]
  rcases apart field with none | none
  · exact .inr (by rw [none]; simp)
  · exact .inl (by rw [none]; simp)

theorem Apart.faults (apart : u₁.Apart u₂) (fault : String → FieldUpdate → DataError → Prop)
    (field : String) (e : DataError) : (u₁.together u₂).Faults fault field e ↔
      u₁.Faults fault field e ∨ u₂.Faults fault field e := by
  unfold Faults
  rw [find?_together]
  rcases apart field with none | none <;> rw [none] <;> simp

end PartialUpdate

/-- Merge two updates, one after the other. -/
def mergeBoth (schema : Schema) (current : Option Value) (u₁ u₂ : PartialUpdate) :
    Except DataError Value := do
  let v ← merge schema current u₁
  merge schema (some v) u₂

section

variable {schema : Schema} {current : Option Value} {u u₁ u₂ : PartialUpdate} {v w : Value}

theorem mergeBoth_ok_iff : mergeBoth schema current u₁ u₂ = .ok v ↔
    ∃ w, merge schema current u₁ = .ok w ∧ merge schema (some w) u₂ = .ok v := by
  unfold mergeBoth
  cases merge schema current u₁ with
  | error e => exact iff_of_false (by rintro ⟨⟩) (by rintro ⟨w, ⟨⟩, -⟩)
  | ok w => exact ⟨fun h => ⟨w, rfl, h⟩, by rintro ⟨w, ⟨⟩, h⟩; exact h⟩

theorem Schema.unopposed_together (apart : u₁.Apart u₂) :
    schema.firstObjection? (u₁.together u₂) = none ↔
      schema.firstObjection? u₁ = none ∧ schema.firstObjection? u₂ = none := by
  simp only [unopposed_iff, apart.faults, not_or, forall_and]

/-- To leave a field alone is to leave there what a merge finds in it. -/
theorem Merges.left_alone (h : Merges schema current u v) {field : String}
    (alone : u.on field = .noOp) :
    v.member? field = schema.start current field := by
  have edited := h.fields field
  rw [alone] at edited
  exact (Except.ok.inj edited).symm

/-- What two updates make one after the other they make together. -/
theorem merge_together_of_both (stored : ∀ c, current = some c → c.Ordered) (apart : u₁.Apart u₂)
    (h : mergeBoth schema current u₁ u₂ = .ok v) :
    merge schema current (u₁.together u₂) = .ok v := by
  obtain ⟨w, merged₁, merged₂⟩ := mergeBoth_ok_iff.mp h
  have first := merges_of_ok merged₁
  have second := merges_of_ok merged₂
  have edits : ∀ field, ((u₁.together u₂).on field).edit field (schema.start current field) =
      .ok (v.member? field) := by
    intro field
    rcases apart.on_cases field with ⟨same, alone⟩ | ⟨same, alone⟩
    · rw [same, first.fields, second.left_alone alone, first.start]
    · rw [same, ← first.left_alone alone, ← first.start, second.fields]
  obtain ⟨v', merged⟩ := merge_of_edits
    ((Schema.unopposed_together apart).mpr ⟨first.unopposed, second.unopposed⟩) first.readable
    fun field => ⟨_, edits field⟩
  have both := merges_of_ok merged
  obtain ⟨members', rfl, sorted'⟩ := both.sorted stored
  obtain ⟨between, rfl, sorted⟩ := first.sorted stored
  obtain ⟨members, rfl, ordered⟩ := second.inOrder (inOrder_obj sorted)
  have same : members' = members :=
    Entries.ext_of_sorted sorted' ordered fun field => both.member?_eq (edits field)
  rw [merged, same]

/-- What two updates make together they make one after the other. -/
theorem both_of_merge_together (stored : ∀ c, current = some c → c.Ordered) (apart : u₁.Apart u₂)
    (h : merge schema current (u₁.together u₂) = .ok v) :
    mergeBoth schema current u₁ u₂ = .ok v := by
  have merges := merges_of_ok h
  obtain ⟨unopposed₁, unopposed₂⟩ := (Schema.unopposed_together apart).mp merges.unopposed
  obtain ⟨w, merged₁⟩ : ∃ w, merge schema current u₁ = .ok w := by
    refine merge_of_edits unopposed₁ merges.readable fun field => ?_
    rcases apart.on_cases field with ⟨same, -⟩ | ⟨-, alone⟩
    · exact ⟨_, same ▸ merges.fields field⟩
    · exact ⟨_, by rw [alone]; rfl⟩
  have first := merges_of_ok merged₁
  obtain ⟨v', merged₂⟩ : ∃ v', merge schema (some w) u₂ = .ok v' := by
    refine merge_of_edits unopposed₂ first.readable_again fun field => ?_
    rcases apart.on_cases field with ⟨-, alone⟩ | ⟨same, alone⟩
    · exact ⟨_, by rw [alone]; rfl⟩
    · rw [first.start, first.left_alone alone]
      exact ⟨_, same ▸ merges.fields field⟩
  have both : mergeBoth schema current u₁ u₂ = .ok v' := mergeBoth_ok_iff.mpr ⟨w, merged₁, merged₂⟩
  cases h.symm.trans (merge_together_of_both stored apart both)
  exact both

/-- Updates that name no field in common make the same value in either order, and as one update with
the operations of both, or are refused in all three ways. -/
theorem merge_apart (stored : ∀ c, current = some c → c.Ordered) (apart : u₁.Apart u₂) (v : Value) :
    (mergeBoth schema current u₁ u₂ = .ok v ↔ merge schema current (u₁.together u₂) = .ok v) ∧
      (mergeBoth schema current u₂ u₁ = .ok v ↔ merge schema current (u₁.together u₂) = .ok v) := by
  refine ⟨⟨merge_together_of_both stored apart, both_of_merge_together stored apart⟩, ?_⟩
  rw [apart.together_comm]
  exact ⟨merge_together_of_both stored apart.symm, both_of_merge_together stored apart.symm⟩

end

/-- Drop a key of a map. -/
def PartialUpdate.unlabelling : PartialUpdate := empty.mapRemove "labels" ["a"]

/-- The first merge gives the map its default before the second one drops a key of it. -/
theorem merge_apart_unlabelling :
    mergeBoth .labelled none .tagging .unlabelling =
        .ok (.obj [("labels", .obj []), ("tags", .arr [.str "t"])]) ∧
      mergeBoth .labelled none .unlabelling .tagging =
        .ok (.obj [("labels", .obj []), ("tags", .arr [.str "t"])]) := by
  have apart : PartialUpdate.tagging.Apart .unlabelling := by
    intro field
    by_cases here : field = "tags"
    · subst here
      exact .inr rfl
    · exact .inl (SortedMap.find?_insert_of_ne .empty here _)
  have together : merge .labelled none (PartialUpdate.tagging.together .unlabelling) =
      .ok (.obj [("labels", .obj []), ("tags", .arr [.str "t"])]) := rfl
  have nothing : ∀ c, (none : Option Value) = some c → c.Ordered := by rintro c ⟨⟩
  exact ⟨(merge_apart nothing apart _).1.mpr together, (merge_apart nothing apart _).2.mpr together⟩

end StoreFeed
