import Mathlib.Data.List.Nodup
import StoreFeed.SortedMap

/-!
# More laws of finite maps

How the values of a map change when a key is set or dropped, up to their order, and what is found
after changes that respect what is there.
-/

namespace StoreFeed

namespace Entries

variable {κ α : Type} [Ord κ]

/-- A key without a value is not dropped. -/
theorem erase_of_none {k : κ} {m : Entries κ α} (h : find? k m = none) : erase k m = m := by
  induction m with
  | nil => rfl
  | cons e rest ih =>
    obtain ⟨k', v'⟩ := e
    rw [find?_cons] at h
    split at h
    · cases h
    · rename_i hk
      have kept := ih h
      unfold erase at kept ⊢
      rw [List.filter_cons_of_pos (by simpa using hk), kept]

/-- Of two lists of entries the first one is asked first. -/
theorem find?_append (k : κ) (m m' : Entries κ α) :
    find? k (m ++ m') = (find? k m).or (find? k m') := by
  induction m with
  | nil => rfl
  | cons e rest ih =>
    rw [List.cons_append, find?_cons, find?_cons, ih]
    split <;> rfl

/-- Entries in key order are found from behind as well. -/
theorem Sorted.find?_reverse [Std.OrientedOrd κ] [Std.LawfulEqOrd κ]
    {m : Entries κ α} (sorted : m.Sorted) (k : κ) : find? k m.reverse = find? k m := by
  induction m with
  | nil => rfl
  | cons e rest ih =>
    obtain ⟨k', v⟩ := e
    obtain ⟨above, sorted⟩ := List.pairwise_cons.1 sorted
    rw [List.reverse_cons, find?_append, ih sorted, find?_cons, find?_cons]
    split
    · rename_i here
      obtain rfl := compare_eq_iff.1 here
      rw [find?_eq_none_of_lt above]
      rfl
    · simp

/-- Where keys are kept or not, what a kept one finds stays. -/
theorem find?_filter [Std.LawfulEqOrd κ] (p : κ → Bool) (k : κ) (m : Entries κ α) :
    find? k (m.filter fun e => p e.1) = if p k then find? k m else none := by
  induction m with
  | nil => simp
  | cons e rest ih =>
    obtain ⟨k', v⟩ := e
    by_cases hk : k = k'
    · subst hk
      cases hp : p k
      · rw [List.filter_cons_of_neg (by simp [hp]), ih, hp]
        rfl
      · rw [List.filter_cons_of_pos (by simp [hp]), find?_cons, find?_cons]
        simp
    · have other : compare k k' ≠ .eq := fun same => hk (compare_eq_iff.mp same)
      rw [find?_cons, if_neg other, ← ih]
      cases hp : p k'
      · rw [List.filter_cons_of_neg (by simp [hp])]
      · rw [List.filter_cons_of_pos (by simp [hp]), find?_cons, if_neg other]

/-- A new key adds an entry. -/
theorem insert_perm_of_none [Std.LawfulEqOrd κ] {k : κ} {m : Entries κ α}
    (h : find? k m = none) (v : α) :
    (insert k v m).Perm ((k, v) :: m) := by
  induction m with
  | nil => exact List.Perm.refl _
  | cons e rest ih =>
    obtain ⟨k', v'⟩ := e
    rw [find?_cons] at h
    split at h
    · cases h
    · rename_i hk
      unfold insert
      split
      · exact List.Perm.refl _
      · rename_i same
        exact absurd same hk
      · exact ((ih h).cons _).trans (List.Perm.swap _ _ _)

/-- An entry stands apart from the rest when its key is set, or dropped. -/
theorem Sorted.split_of_find? [Std.TransOrd κ] [Std.LawfulEqOrd κ]
    {m : Entries κ α} (sorted : m.Sorted)
    {k : κ} {v : α} (h : find? k m = some v) : ∃ rest, m.Perm ((k, v) :: rest) ∧
      (∀ v', (m.insert k v').Perm ((k, v') :: rest)) ∧ m.erase k = rest := by
  induction m with
  | nil => cases h
  | cons e rest ih =>
    obtain ⟨k', v₀⟩ := e
    obtain ⟨above, sorted⟩ := List.pairwise_cons.1 sorted
    rw [find?_cons] at h
    split at h
    · rename_i hk
      obtain rfl := compare_eq_iff.1 hk
      cases h
      refine ⟨rest, List.Perm.refl _, fun v' => ?_, ?_⟩
      · rw [Entries.insert, hk]
      · have gone : Entries.erase k rest = rest := erase_of_none (find?_eq_none_of_lt above)
        unfold Entries.erase at gone ⊢
        rw [List.filter_cons_of_neg (by simp), gone]
    · rename_i hk
      obtain ⟨others, split, set, drop⟩ := ih sorted h
      refine ⟨(k', v₀) :: others, (split.cons _).trans (List.Perm.swap _ _ _), fun v' => ?_, ?_⟩
      · have lower : compare k k' = .gt := by
          cases hc : compare k k' with
          | gt => rfl
          | eq => exact absurd hc hk
          | lt =>
            have none : find? k rest = none :=
              find?_eq_none_of_lt fun e he => Std.TransCmp.lt_trans hc (above e he)
            cases none.symm.trans h
        rw [Entries.insert, lower]
        exact ((set v').cons _).trans (List.Perm.swap _ _ _)
      · unfold Entries.erase at drop ⊢
        rw [List.filter_cons_of_pos (by simpa using hk), drop]

/-- A key above all others goes last. -/
theorem insert_of_above [Std.OrientedOrd κ] {k : κ} {m : Entries κ α}
    (h : ∀ e ∈ m, compare e.1 k = .lt) (v : α) : insert k v m = m ++ [(k, v)] := by
  induction m with
  | nil => rfl
  | cons e rest ih =>
    have lower : compare k e.1 = .gt := Std.OrientedCmp.gt_iff_lt.2 (h e List.mem_cons_self)
    simp only [insert, lower, ih fun e' he' => h e' (List.mem_cons_of_mem _ he'), List.cons_append]

/-- Entries that are in key order already stay as they are. -/
theorem ofList_of_sorted [Std.OrientedOrd κ] {m : Entries κ α} (sorted : m.Sorted) :
    ofList m = m := by
  suffices ∀ front : Entries κ α, Sorted (front ++ m) →
      m.foldl (fun m e => insert e.1 e.2 m) front = front ++ m from this [] sorted
  clear sorted
  induction m with
  | nil => exact fun front _ => (List.append_nil front).symm
  | cons e rest ih =>
    intro front sorted
    have above : ∀ e' ∈ front, compare e'.1 e.1 = .lt := fun e' he' =>
      (List.pairwise_append.1 sorted).2.2 e' he' e List.mem_cons_self
    rw [List.foldl_cons, insert_of_above above, ih _ (by simpa using sorted), List.append_assoc,
      List.singleton_append]

end Entries

namespace SortedMap

variable {κ α : Type} [Ord κ] [Std.TransOrd κ] [Std.LawfulEqOrd κ]
    {m : SortedMap κ α} {k : κ} {v : α}

/-- A new key adds its value. -/
theorem values_insert_perm (h : m.find? k = none) (v : α) :
    (m.insert k v).values.Perm (v :: m.values) :=
  (Entries.insert_perm_of_none h v).map Prod.snd

/-- A value stands apart from the others when it is replaced, or dropped. -/
theorem values_perm_of_find? (h : m.find? k = some v) : m.values.Perm (v :: (m.erase k).values) ∧
    ∀ v', (m.insert k v').values.Perm (v' :: (m.erase k).values) := by
  obtain ⟨rest, split, set, drop⟩ := m.sorted.split_of_find? h
  have dropped : (m.erase k).values = rest.map Prod.snd := congrArg (List.map Prod.snd) drop
  rw [dropped]
  exact ⟨split.map Prod.snd, fun v' => (set v').map Prod.snd⟩

omit [Std.TransOrd κ] in
theorem mem_values_of_find? (h : m.find? k = some v) : v ∈ m.values :=
  List.mem_map_of_mem (Entries.mem_of_find? h)

/-- A key finds what is listed with it. -/
theorem find?_of_mem (h : (k, v) ∈ m.entries) : m.find? k = some v := by
  have known : (m.find? k).isSome := Entries.mem_keys_iff.mp (List.mem_map_of_mem h)
  obtain ⟨v', hv⟩ := Option.isSome_iff_exists.mp known
  obtain ⟨rest, split, -, drop⟩ := m.sorted.split_of_find? hv
  rcases List.mem_cons.mp (split.mem_iff.mp h) with same | other
  · cases same
    exact hv
  · rw [← drop] at other
    simp [Entries.erase] at other

/-- What is listed is what keys find, each once. -/
theorem mem_entries : (k, v) ∈ m.entries ↔ m.find? k = some v :=
    ⟨find?_of_mem, Entries.mem_of_find?⟩

omit [Std.TransOrd κ] in
theorem nodup_entries (m : SortedMap κ α) : m.entries.Nodup := List.Nodup.of_map _ m.nodup_keys

omit [Std.TransOrd κ] [Std.LawfulEqOrd κ] in
theorem isEmpty_iff : m.isEmpty = true ↔ m.values = [] := by
  rw [isEmpty, values, List.isEmpty_iff, List.map_eq_nil_iff]

/-- A value is one that some key finds. -/
theorem mem_values : v ∈ m.values ↔ ∃ k, m.find? k = some v := by
  refine ⟨fun h => ?_, fun ⟨k, h⟩ => mem_values_of_find? h⟩
  obtain ⟨⟨k, v⟩, he, rfl⟩ := List.mem_map.mp h
  exact ⟨k, find?_of_mem he⟩

/-- The values are what the keys find. -/
theorem map_findD_keys (m : SortedMap κ α) (d : α) :
    m.keys.map (fun k => m.findD k d) = m.values := by
  unfold keys values
  rw [List.map_map]
  refine List.map_congr_left fun e among => ?_
  show (m.find? e.1).getD d = e.2
  rw [find?_of_mem among]
  rfl

/-- To set what is there changes nothing. -/
theorem insert_of_find? (h : m.find? k = some v) : m.insert k v = m := by
  refine ext fun k' => ?_
  by_cases hk : k' = k
  · subst hk
    rw [find?_insert_self, h]
  · rw [find?_insert_of_ne _ hk]

/-- Of two values of a key the last one stays. -/
theorem insert_insert (m : SortedMap κ α) (k : κ) (v v' : α) :
    (m.insert k v).insert k v' = m.insert k v' := by
  refine ext fun k' => ?_
  by_cases hk : k' = k
  · subst hk
    rw [find?_insert_self, find?_insert_self]
  · rw [find?_insert_of_ne _ hk, find?_insert_of_ne _ hk, find?_insert_of_ne _ hk]

theorem find?_insertNew [DecidableEq κ] (m : SortedMap κ α) (k k' : κ) (v : α) :
    (m.insertNew k v).find? k' = if k' = k then some ((m.find? k).getD v) else m.find? k' := by
  have here : (m.insertNew k v).find? k' =
      if (m.find? k).isSome then m.find? k' else (m.insert k v).find? k' := by
    unfold SortedMap.insertNew SortedMap.find? Entries.insertNew Entries.contains
    dsimp only
    split <;> rfl
  rw [here]
  by_cases hk : k' = k
  · subst hk
    cases h : m.find? k' <;> simp
  · rw [if_neg hk, find?_insert_of_ne _ hk]
    split <;> rfl

theorem find?_modify [DecidableEq κ] (m : SortedMap κ α) (k k' : κ) (f : α → α) :
    (m.modify k f).find? k' = if k' = k then (m.find? k').map f else m.find? k' := by
  unfold SortedMap.modify
  cases h : m.find? k with
  | none =>
    by_cases hk : k' = k
    · subst hk
      simp [h]
    · simp [hk]
  | some v =>
    by_cases hk : k' = k
    · subst hk
      simp [h]
    · simp [hk, find?_insert_of_ne]

omit [Std.TransOrd κ] in
theorem find?_filter (m : SortedMap κ α) (p : κ → Bool) (k : κ) :
    (m.filter fun k _ => p k).find? k = if p k then m.find? k else none :=
  Entries.find?_filter p k m.entries

/-- A map is the map of its entries. -/
theorem ofList_entries (m : SortedMap κ α) : ofList m.entries = m := by
  cases m with
  | mk entries sorted => simp only [ofList, Entries.ofList_of_sorted sorted]

omit [Std.TransOrd κ] in
theorem contains_erase (m : SortedMap κ α) (k k' : κ) :
    (m.erase k).contains k' ↔ k' ≠ k ∧ m.contains k' := by
  by_cases hk : k' = k
  · subst hk
    simp [contains]
  · simp [contains, find?_erase_of_ne _ hk, hk]

end SortedMap

end StoreFeed
