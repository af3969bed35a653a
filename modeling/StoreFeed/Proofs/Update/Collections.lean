import StoreFeed.Proofs.Json.Value
import StoreFeed.Update.Merge

/-!
# What operations make of lists and maps

To edit a list is to take elements out and then to append those that it lacks; to edit a map is to
drop keys and then to set others. As sets and as maps both are the same however often they are done.
As lists they are not: elements that are taken out and added go to the end each time
(`editList_again`).
-/

namespace StoreFeed

open Json

namespace FieldUpdate

/-- A list once elements were taken out and others were added. -/
def editList (items add remove : List Value) : List Value :=
  add.foldl appendNew (without items remove)

/-- A map once keys were dropped and others were set. -/
def editMap (entries put : Entries String Value) (remove : List String) : Entries String Value :=
  put.foldl (fun m e => Entries.insert e.1 e.2 m)
    (remove.foldl (fun m key => Entries.erase key m) entries)

/-! ## Lists -/

theorem contains_without (items remove : List Value) (x : Value) :
    (without items remove).contains x = (items.contains x && !remove.contains x) := by
  unfold without
  rw [Bool.eq_iff_iff]
  simp only [Bool.and_eq_true, List.contains_iff_exists_mem_beq, List.mem_filter]
  constructor
  · rintro ⟨a, ⟨ha, kept⟩, same⟩
    exact ⟨⟨a, ha, same⟩, by rw [List.contains_congr same]; exact kept⟩
  · rintro ⟨⟨a, ha, same⟩, kept⟩
    exact ⟨a, ⟨ha, by rw [← List.contains_congr same]; exact kept⟩, same⟩

theorem contains_appendNew (items : List Value) (a x : Value) :
    (appendNew items a).contains x = (items.contains x || x == a) := by
  unfold appendNew
  split
  · rename_i known
    cases same : x == a with
    | false => rw [Bool.or_false]
    | true => rw [Bool.or_true, List.contains_congr same, known]
  · simp [List.contains_append]

theorem contains_foldl_appendNew (add items : List Value) (x : Value) :
    (add.foldl appendNew items).contains x = (items.contains x || add.contains x) := by
  induction add generalizing items with
  | nil => simp
  | cons a add ih =>
    rw [List.foldl_cons, ih, contains_appendNew, List.contains_cons, Bool.or_assoc]

theorem contains_editList (items add remove : List Value) (x : Value) :
    (editList items add remove).contains x =
      (add.contains x || items.contains x && !remove.contains x) := by
  rw [editList, contains_foldl_appendNew, contains_without, Bool.or_comm]

theorem mem_foldl_appendNew {add items : List Value} {x : Value}
    (h : x ∈ add.foldl appendNew items) :
    x ∈ items ∨ x ∈ add := by
  induction add generalizing items with
  | nil => exact .inl h
  | cons a add ih =>
    rcases ih h with before | added
    · unfold appendNew at before
      split at before
      · exact .inl before
      · rcases List.mem_append.mp before with old | new
        · exact .inl old
        · exact .inr (List.mem_singleton.mp new ▸ List.mem_cons_self)
    · exact .inr (List.mem_cons_of_mem a added)

/-- An edited list has elements that it had before or that were added. -/
theorem mem_editList {items add remove : List Value} {x : Value}
    (h : x ∈ editList items add remove) :
    x ∈ items ∨ x ∈ add :=
  (mem_foldl_appendNew h).imp_left fun kept => (List.mem_filter.mp kept).1

/-- A list gains what it lacks, in order and each element once. -/
theorem foldl_appendNew (add items : List Value) :
    add.foldl appendNew items = items ++ (add.filter fun a => !items.contains a).eraseDups := by
  induction add generalizing items with
  | nil => simp
  | cons a add ih =>
    rw [List.foldl_cons, ih]
    cases known : items.contains a with
    | true => simp [appendNew, known]
    | false =>
      have grown : appendNew items a = items ++ [a] := by simp [appendNew, known]
      have lacks : (add.filter fun b => !(items ++ [a]).contains b) =
          (add.filter fun b => !items.contains b).filter fun b => !b == a := by
        rw [List.filter_filter]
        refine List.filter_congr fun b _ => ?_
        simp [List.contains_append, Bool.and_comm]
      rw [grown, lacks, List.filter_cons_of_pos (by simp [known]), List.eraseDups_cons,
        List.append_assoc]
      rfl

/-- To keep some of the elements, each once, is to keep each of some once. -/
theorem filter_eraseDups {p : Value → Bool} (respects : ∀ a b : Value, (a == b) = true → p a = p b)
    (items : List Value) : items.eraseDups.filter p = (items.filter p).eraseDups := by
  cases items with
  | nil => rfl
  | cons a items =>
    have ih := filter_eraseDups respects (items.filter fun b => !b == a)
    have swap : (items.filter fun b => !b == a).filter p =
        (items.filter p).filter fun b => !b == a := by
      rw [List.filter_filter, List.filter_filter]
      exact List.filter_congr fun b _ => Bool.and_comm _ _
    rw [List.eraseDups_cons]
    cases ha : p a with
    | true =>
      rw [List.filter_cons_of_pos ha, List.filter_cons_of_pos ha, List.eraseDups_cons, ih, swap]
    | false =>
      rw [List.filter_cons_of_neg (by simp [ha]), List.filter_cons_of_neg (by simp [ha]), ih, swap]
      congr 1
      refine List.filter_eq_self.mpr fun b hb => ?_
      cases same : b == a with
      | false => rfl
      | true =>
        have kept := (List.mem_filter.mp hb).2
        rw [respects b a same, ha] at kept
        cases kept
termination_by items.length
decreasing_by
  exact Nat.lt_succ_of_le (List.length_filter_le _ _)

/-- The elements of a list that are not in another, and then those that are. -/
def toEnd (items remove : List Value) : List Value :=
  (items.filter fun a => !remove.contains a) ++ items.filter remove.contains

/-- To edit a list again is to move to its end what is taken out and added. -/
theorem editList_again (items add remove : List Value) :
    editList (editList items add remove) add remove = toEnd (editList items add remove) remove := by
  have respects : ∀ a b : Value, (a == b) = true → remove.contains a = remove.contains b :=
    fun a b same => List.contains_congr same
  -- The list is what it kept, none of which is taken out, and what it gained.
  obtain ⟨kept, hkept⟩ : ∃ kept, without items remove = kept := ⟨_, rfl⟩
  obtain ⟨gained, hgained⟩ : ∃ gained, (add.filter fun a => !kept.contains a).eraseDups = gained :=
    ⟨_, rfl⟩
  have edited : editList items add remove = kept ++ gained := by
    rw [editList, foldl_appendNew, hkept, hgained]
  have stays : kept.filter (fun a => !remove.contains a) = kept := by
    subst hkept
    simp [without, List.filter_filter]
  have goes : kept.filter remove.contains = [] := by
    rw [List.filter_eq_nil_iff]
    intro a ha
    have := (List.filter_eq_self.mp stays) a ha
    simpa using this
  have holds : ∀ a ∈ add, kept.contains a = false → gained.contains a = true := by
    intro a ha lacks
    have all := contains_foldl_appendNew add kept a
    rw [foldl_appendNew, hgained, List.contains_append, lacks, Bool.false_or, Bool.false_or] at all
    rw [all, List.contains_iff_exists_mem_beq]
    exact ⟨a, ha, BEq.rfl⟩
  have regained : (add.filter fun a =>
        !(kept ++ gained.filter fun a => !remove.contains a).contains a).eraseDups =
      gained.filter remove.contains := by
    rw [← hgained, filter_eraseDups respects, hgained, List.filter_filter]
    congr 1
    refine List.filter_congr fun a ha => ?_
    rw [List.contains_append, show (gained.filter fun a => !remove.contains a) =
      without gained remove from rfl, contains_without]
    cases lacks : kept.contains a with
    | true => simp
    | false => simp [holds a ha lacks]
  rw [edited, editList, foldl_appendNew, toEnd, without, List.filter_append, List.filter_append,
    stays, goes, regained, List.nil_append, List.append_assoc]

/-- What is in a list stands behind what is not. -/
def Trails (remove items : List Value) : Prop :=
  items.Pairwise fun a b => remove.contains a = true → remove.contains b = true

theorem trails_toEnd (items remove : List Value) : Trails remove (toEnd items remove) := by
  refine List.pairwise_append.mpr ⟨?_, ?_, ?_⟩
  · refine List.pairwise_of_forall_mem_list fun a ha b _ taken => ?_
    have := (List.mem_filter.mp ha).2
    rw [taken] at this
    cases this
  · exact List.pairwise_of_forall_mem_list fun a _ b hb _ => (List.mem_filter.mp hb).2
  · exact fun a _ b hb _ => (List.mem_filter.mp hb).2

theorem toEnd_of_trails {items remove : List Value} (h : Trails remove items) :
    toEnd items remove = items := by
  induction items with
  | nil => rfl
  | cons a items ih =>
    obtain ⟨first, rest⟩ := List.pairwise_cons.mp h
    cases taken : remove.contains a with
    | false =>
      have kept := ih rest
      unfold toEnd at kept ⊢
      rw [List.filter_cons_of_pos (by simp [taken]), List.filter_cons_of_neg (by simp [taken]),
        List.cons_append, kept]
    | true =>
      have all : ∀ b ∈ a :: items, remove.contains b = true := by
        intro b hb
        rcases List.mem_cons.mp hb with rfl | hb
        · exact taken
        · exact first b hb taken
      have none : ((a :: items).filter fun b => !remove.contains b) = [] := by
        rw [List.filter_eq_nil_iff]
        intro b hb
        simp [all b hb]
      rw [toEnd, none, List.nil_append, List.filter_eq_self.mpr all]

/-- Exactly where they are at the end already, moving elements to the end gives an equal list. -/
theorem sameItems_toEnd_iff {items remove : List Value} :
    Value.sameItems (toEnd items remove) items = true ↔ Trails remove items := by
  constructor
  · intro same
    refine Value.pairwise_of_sameItems (fun a a' b b' ha hb trails => ?_) same
      (trails_toEnd items remove)
    rw [← List.contains_congr (show (a == a') = true from ha),
      ← List.contains_congr (show (b == b') = true from hb)]
    exact trails
  · intro trails
    rw [toEnd_of_trails trails]
    exact Value.sameItems_self items

/-! ## Maps -/

theorem find?_foldl_erase (keys : List String) (m : Entries String Value) (k : String) :
    Entries.find? k (keys.foldl (fun m key => Entries.erase key m) m) =
      if k ∈ keys then none else Entries.find? k m := by
  induction keys generalizing m with
  | nil => simp
  | cons key keys ih =>
    rw [List.foldl_cons, ih]
    by_cases here : k = key
    · subst here
      simp [Entries.find?_erase_self]
    · simp [Entries.find?_erase_of_ne here, here]

theorem sorted_foldl_erase (keys : List String) {m : Entries String Value} (h : m.Sorted) :
    Entries.Sorted (keys.foldl (fun m key => Entries.erase key m) m) := by
  induction keys generalizing m with
  | nil => exact h
  | cons key keys ih => exact ih (h.erase key)

theorem sorted_foldl_insert (put : Entries String Value) {m : Entries String Value} (h : m.Sorted) :
    Entries.Sorted (put.foldl (fun m e => Entries.insert e.1 e.2 m) m) := by
  induction put generalizing m with
  | nil => exact h
  | cons e put ih => exact ih (h.insert e.1 e.2)

theorem sorted_editMap {entries : Entries String Value} (h : entries.Sorted)
    (put : Entries String Value) (remove : List String) : (editMap entries put remove).Sorted :=
  sorted_foldl_insert put (sorted_foldl_erase remove h)

/-- Of what is put under a key the last counts. -/
theorem find?_foldl_insert {α : Type} (put m : Entries String α) (k : String) :
    Entries.find? k (put.foldl (fun m e => Entries.insert e.1 e.2 m) m) =
      (Entries.find? k put.reverse).or (Entries.find? k m) := by
  induction put generalizing m with
  | nil => rfl
  | cons e put ih =>
    obtain ⟨key, v⟩ := e
    rw [List.foldl_cons, ih, List.reverse_cons, Entries.find?_append, Option.or_assoc,
      Entries.find?_cons]
    by_cases here : k = key
    · subst here
      simp
    · simp [Entries.find?_insert_of_ne here, here]

theorem find?_editMap (entries put : Entries String Value) (remove : List String) (k : String) :
    Entries.find? k (editMap entries put remove) =
      (Entries.find? k put.reverse).or (if k ∈ remove then none else Entries.find? k entries) := by
  rw [editMap, find?_foldl_insert, find?_foldl_erase]

/-- To edit a map again changes nothing. -/
theorem editMap_again {entries : Entries String Value} (h : entries.Sorted)
    (put : Entries String Value) (remove : List String) :
    editMap (editMap entries put remove) put remove = editMap entries put remove := by
  have once := sorted_editMap h put remove
  refine Entries.ext_of_sorted (sorted_editMap once put remove) once fun k => ?_
  rw [find?_editMap, find?_editMap]
  by_cases gone : k ∈ remove
  · rw [if_pos gone, if_pos gone]
  · rw [if_neg gone, if_neg gone]
    cases Entries.find? k put.reverse <;> rfl

end FieldUpdate

end StoreFeed
