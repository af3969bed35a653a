import StoreFeed.Proofs.Update.Merge

/-!
# Delivering an update twice

An update that was merged can always be merged again. That gives the same value, but for the order
of its lists: elements that the update takes out of a list and adds to it go to the end
(`merge_again`). So it gives an equal value exactly if they stand there already.
-/

namespace StoreFeed

open Json

namespace FieldUpdate

/-- What an operation makes of its own result. -/
def again : FieldUpdate → Value → Value
  | .listOps _ remove, .arr items => .arr (toEnd items remove)
  | _, v => v

/-- What an operation takes out of a list and adds to it stands at its end. -/
def Steady : FieldUpdate → Value → Prop
  | .listOps _ remove, .arr items => Trails remove items
  | _, _ => True

theorem edit_again {op : FieldUpdate} {field : String} {held edited : Option Value}
    (sorted : SortedKeys held) (h : op.edit field held = .ok edited) :
    op.edit field edited = .ok (edited.map op.again) := by
  cases op with
  | noOp => cases edited <;> rfl
  | set value =>
    cases h
    rfl
  | listOps add remove =>
    obtain ⟨items, -, rfl⟩ := listOps_cases h
    show Except.ok (some (Value.arr (editList (editList items add remove) add remove))) = _
    rw [editList_again]
    rfl
  | mapOps put remove =>
    obtain ⟨entries, listed, rfl⟩ := mapOps_cases h
    show Except.ok (some (Value.obj (editMap (editMap entries put remove) put remove))) = _
    rw [editMap_again (sorted_of_mapOf sorted listed)]
    rfl

theorem again_of_steady {op : FieldUpdate} {v : Value} (h : op.Steady v) : op.again v = v := by
  cases op with
  | listOps add remove =>
    cases v with
    | arr items => exact congrArg Value.arr (toEnd_of_trails h)
    | _ => rfl
  | _ => rfl

theorem same_again_iff {op : FieldUpdate} {v : Value} :
    (op.again v).same v = true ↔ op.Steady v := by
  refine ⟨fun same => ?_, fun steady => ?_⟩
  · unfold Steady
    split
    · exact sameItems_toEnd_iff.mp (by simpa only [again, Value.same] using same)
    · trivial
  · rw [again_of_steady steady]
    exact v.same_self

end FieldUpdate

variable {schema : Schema} {current : Option Value} {u : PartialUpdate} {v : Value}

/-- An update that was merged can be merged again. Each field then holds what it held, but for
elements of lists that are moved to the end, and the value is an equal one exactly if they stand at
the end already. -/
theorem merge_again (defaults : schema.Ordered) (stored : ∀ c, current = some c → c.Ordered)
    (h : merge schema current u = .ok v) :
    ∃ w, merge schema (some v) u = .ok w ∧
      (∀ field, w.member? field = (v.member? field).map (u.on field).again) ∧
      ((w == v) = true ↔ ∀ field x, v.member? field = some x → (u.on field).Steady x) := by
  have first := merges_of_ok h
  have edits : ∀ field, (u.on field).edit field (schema.start (some v) field) =
      .ok ((v.member? field).map (u.on field).again) := by
    intro field
    rw [first.start]
    refine FieldUpdate.edit_again (fun entries held => ?_) (first.fields field)
    exact (Value.ordered_obj_iff.mp (schema.ordered_start defaults stored held)).1
  -- Each field can be edited again, so the whole update can: no field is opposed or unreadable.
  obtain ⟨w, again⟩ := merge_of_edits first.unopposed first.readable_again fun field =>
    ⟨_, edits field⟩
  have second := merges_of_ok again
  have members : ∀ field, w.member? field = (v.member? field).map (u.on field).again :=
    fun field => second.member?_eq (edits field)
  refine ⟨w, again, members, ?_⟩
  obtain ⟨mv, rfl, sorted⟩ := first.sorted stored
  obtain ⟨mw, rfl, sorted'⟩ := second.inOrder (inOrder_obj sorted)
  constructor
  · intro equal field x held
    have same : Value.sameMembers mw mv = true := by
      simpa only [Value.same] using (show (Value.obj mw).same (.obj mv) = true from equal)
    have now : Entries.find? field mw = some ((u.on field).again x) := by
      have := members field
      rw [held] at this
      exact this
    obtain ⟨x', held', alike⟩ := Value.find?_of_sameMembers same now
    cases held'.symm.trans held
    exact FieldUpdate.same_again_iff.mp alike
  · intro steady
    have equal : mw = mv := by
      refine Entries.ext_of_sorted sorted' sorted fun field => ?_
      have := members field
      cases held : (Value.obj mv).member? field with
      | none =>
        rw [held] at this
        exact this.trans held.symm
      | some x =>
        rw [held] at this
        refine this.trans (Eq.trans ?_ held.symm)
        exact congrArg some (FieldUpdate.again_of_steady (steady field x held))
    rw [equal]
    exact BEq.rfl

/-- What was added in front is taken out, and added at the end. -/
theorem merge_again_retagging : ∃ v w, merge .tagged none .retagging = .ok v ∧
    merge .tagged (some v) .retagging = .ok w ∧
    w.member? "tags" = some (.arr [.str "y", .str "x"]) := by
  have first : merge .tagged none .retagging = .ok (.obj [("tags", .arr [.str "x", .str "y"])]) :=
    rfl
  obtain ⟨w, again, members, -⟩ := merge_again Schema.ordered_tagged (by rintro c ⟨⟩) first
  exact ⟨_, w, first, again, members "tags"⟩

/-- Delivered twice, the update turns its own result round. -/
theorem reordered_retagging : ∃ v w, merge .tagged none .retagging = .ok v ∧
    merge .tagged (some v) .retagging = .ok w ∧ (w == v) = false :=
  ⟨.obj [("tags", .arr [.str "x", .str "y"])], .obj [("tags", .arr [.str "y", .str "x"])],
    rfl, rfl, rfl⟩

end StoreFeed
