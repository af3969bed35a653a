/-!
# Entries of a finite map

A finite map is written down as its entries in strictly increasing key order. This file holds the
operations on such lists. The look-up laws hold for every list, so they can be used on nested data
that carries no proof of its order; the order itself is only needed to conclude that two lists with
the same look-ups are equal (`ext_of_sorted`).
-/

namespace StoreFeed

/-- Key and value pairs. -/
abbrev Entries (κ α : Type) := List (κ × α)

namespace Entries

variable {κ α β : Type} [Ord κ]

/-- Keys strictly increase. -/
def Sorted (m : Entries κ α) : Prop :=
  m.Pairwise fun a b => compare a.1 b.1 = .lt

/-- The value of a key. -/
def find? (k : κ) : Entries κ α → Option α
  | [] => none
  | (k', v) :: rest => if compare k k' = .eq then some v else find? k rest

/-- Whether a key has a value. -/
def contains (k : κ) (m : Entries κ α) : Bool :=
  (find? k m).isSome

/-- Set the value of a key, keeping the key order. -/
def insert (k : κ) (v : α) : Entries κ α → Entries κ α
  | [] => [(k, v)]
  | (k', v') :: rest =>
    match compare k k' with
    | .lt => (k, v) :: (k', v') :: rest
    | .eq => (k, v) :: rest
    | .gt => (k', v') :: insert k v rest

/-- Set the value of a key only where it has none yet. -/
def insertNew (k : κ) (v : α) (m : Entries κ α) : Entries κ α :=
  if contains k m then m else insert k v m

/-- Drop a key. -/
def erase (k : κ) (m : Entries κ α) : Entries κ α :=
  m.filter fun e => compare k e.1 != .eq

/-- Entries in key order from pairs in any order; of a repeated key the last value stays. -/
def ofList (pairs : List (κ × α)) : Entries κ α :=
  pairs.foldl (fun m e => insert e.1 e.2 m) []

/-! ## Look-ups -/

@[simp]
theorem find?_nil (k : κ) : find? k ([] : Entries κ α) = none := rfl

theorem find?_cons (k k' : κ) (v : α) (rest : Entries κ α) :
    find? k ((k', v) :: rest) = if compare k k' = .eq then some v else find? k rest := rfl

theorem compare_eq_iff [Std.LawfulEqOrd κ] {a b : κ} : compare a b = .eq ↔ a = b :=
  Std.LawfulEqOrd.compare_eq_iff_eq

@[simp]
theorem find?_insert_self [Std.LawfulEqOrd κ] (k : κ) (v : α) (m : Entries κ α) :
    find? k (insert k v m) = some v := by
  induction m with
  | nil => simp [insert, find?_cons]
  | cons e rest ih =>
    obtain ⟨k', v'⟩ := e
    unfold insert
    split
    · simp [find?_cons]
    · simp [find?_cons]
    · rename_i h
      simp [find?_cons, h, ih]

theorem find?_insert_of_ne [Std.LawfulEqOrd κ] {k k' : κ} (h : k' ≠ k) (v : α) (m : Entries κ α) :
    find? k' (insert k v m) = find? k' m := by
  induction m with
  | nil => simp [insert, find?_cons, h]
  | cons e rest ih =>
    obtain ⟨k₁, v₁⟩ := e
    unfold insert
    split
    · simp [find?_cons, h]
    · rename_i hk
      have : k = k₁ := compare_eq_iff.1 hk
      subst this
      simp [find?_cons, h]
    · simp [find?_cons, ih]

theorem find?_erase_self (k : κ) (m : Entries κ α) : find? k (erase k m) = none := by
  induction m with
  | nil => rfl
  | cons e rest ih =>
    obtain ⟨k', v'⟩ := e
    by_cases h : compare k k' = .eq
    · simpa [erase, h] using ih
    · simpa [erase, h, find?_cons] using ih

theorem find?_erase_of_ne [Std.LawfulEqOrd κ] {k k' : κ} (h : k' ≠ k) (m : Entries κ α) :
    find? k' (erase k m) = find? k' m := by
  induction m with
  | nil => rfl
  | cons e rest ih =>
    obtain ⟨k₁, v₁⟩ := e
    by_cases hk : compare k k₁ = .eq
    · have : k = k₁ := compare_eq_iff.1 hk
      subst this
      simpa [erase, hk, find?_cons, compare_eq_iff, h] using ih
    · simp only [erase, bne_iff_ne, ne_eq, hk, not_false_eq_true, List.filter_cons_of_pos,
        find?_cons]
      simpa [erase] using congrArg (fun o => if compare k' k₁ = .eq then some v₁ else o) ih

theorem find?_eq_none_of_lt {k : κ} {m : Entries κ α}
    (h : ∀ e ∈ m, compare k e.1 = .lt) : find? k m = none := by
  induction m with
  | nil => rfl
  | cons e rest ih =>
    obtain ⟨k', v'⟩ := e
    have hk : compare k k' = .lt := h (k', v') (by simp)
    have hr := ih fun e he => h e (by simp [he])
    simp [find?_cons, hk, hr]

theorem find?_map [Std.LawfulEqOrd κ] (f : κ → α → β) (k : κ) (m : Entries κ α) :
    find? k (m.map fun e => (e.1, f e.1 e.2)) = (find? k m).map (f k) := by
  induction m with
  | nil => rfl
  | cons e rest ih =>
    obtain ⟨k', v⟩ := e
    by_cases h : compare k k' = .eq
    · have : k = k' := compare_eq_iff.1 h
      subst this
      simp [find?_cons]
    · simpa [find?_cons, h] using ih

/-- The keys are what has a value. -/
theorem mem_keys_iff [Std.LawfulEqOrd κ] {k : κ} {m : Entries κ α} :
    k ∈ m.map (·.1) ↔ (find? k m).isSome := by
  induction m with
  | nil => simp
  | cons e rest ih =>
    obtain ⟨k', v⟩ := e
    by_cases h : k = k'
    · subst h
      simp [find?_cons]
    · simp [find?_cons, h, ih]

theorem mem_of_find? [Std.LawfulEqOrd κ] {k : κ} {v : α} {m : Entries κ α}
    (h : find? k m = some v) : (k, v) ∈ m := by
  induction m with
  | nil => cases h
  | cons e rest ih =>
    obtain ⟨k', v'⟩ := e
    rw [find?_cons] at h
    split at h
    · rename_i hk
      have : k = k' := compare_eq_iff.1 hk
      subst this
      cases h
      exact List.mem_cons_self
    · exact List.mem_cons_of_mem _ (ih h)

theorem find?_ofList_isSome [Std.LawfulEqOrd κ] (k : κ) (pairs : List (κ × α)) :
    (find? k (ofList pairs)).isSome ↔ k ∈ pairs.map (·.1) := by
  suffices ∀ m : Entries κ α, (find? k (pairs.foldl (fun m e => insert e.1 e.2 m) m)).isSome ↔
      k ∈ pairs.map (·.1) ∨ (find? k m).isSome by
    simpa [ofList] using this []
  induction pairs with
  | nil => simp
  | cons e rest ih =>
    intro m
    rw [List.foldl_cons, ih, List.map_cons, List.mem_cons]
    by_cases h : k = e.1
    · subst h
      simp
    · simp [find?_insert_of_ne h, h]

/-! ## Order -/

theorem mem_insert {k : κ} {v : α} {m : Entries κ α} {e : κ × α} (h : e ∈ insert k v m) :
    e = (k, v) ∨ e ∈ m := by
  induction m with
  | nil => simpa [insert] using h
  | cons e' rest ih =>
    obtain ⟨k', v'⟩ := e'
    unfold insert at h
    split at h
    · simpa using h
    · rcases List.mem_cons.1 h with h | h
      · exact .inl h
      · exact .inr (by simp [h])
    · rcases List.mem_cons.1 h with h | h
      · exact .inr (by simp [h])
      · rcases ih h with h | h
        · exact .inl h
        · exact .inr (by simp [h])

theorem mem_ofList {pairs : List (κ × α)} {e : κ × α} (h : e ∈ ofList pairs) : e ∈ pairs := by
  suffices ∀ m : Entries κ α, e ∈ pairs.foldl (fun m e => insert e.1 e.2 m) m → e ∈ pairs ∨ e ∈ m by
    simpa using this [] h
  clear h
  induction pairs with
  | nil => exact fun m h => .inr h
  | cons e' rest ih =>
    intro m h
    rcases ih _ h with h | h
    · exact .inl (List.mem_cons_of_mem _ h)
    · rcases mem_insert h with h | h
      · exact .inl (by simp [h])
      · exact .inr h

theorem sorted_nil : Sorted ([] : Entries κ α) := List.Pairwise.nil

theorem Sorted.filter {m : Entries κ α} (h : m.Sorted) (p : κ × α → Bool) :
    Sorted (m.filter p) :=
  List.Pairwise.filter p h

theorem Sorted.erase {m : Entries κ α} (h : m.Sorted) (k : κ) : (m.erase k).Sorted :=
  h.filter _

theorem Sorted.map {m : Entries κ α} (h : m.Sorted) (f : κ → α → β) :
    Sorted (m.map fun e => (e.1, f e.1 e.2)) := by
  simpa [Sorted, List.pairwise_map] using h

section Laws

variable [Std.TransOrd κ] [Std.LawfulEqOrd κ]

theorem Sorted.insert {m : Entries κ α} (h : m.Sorted) (k : κ) (v : α) : (m.insert k v).Sorted := by
  induction m with
  | nil => exact List.pairwise_singleton _ _
  | cons e rest ih =>
    obtain ⟨k', v'⟩ := e
    have hr := List.pairwise_cons.1 h
    unfold Entries.insert
    split
    · rename_i hk
      refine List.pairwise_cons.2 ⟨fun e he => ?_, h⟩
      rcases List.mem_cons.1 he with he | he
      · subst he
        exact hk
      · exact Std.TransCmp.lt_trans hk (hr.1 e he)
    · rename_i hk
      have : k = k' := compare_eq_iff.1 hk
      subst this
      exact List.pairwise_cons.2 ⟨fun e he => hr.1 e he, hr.2⟩
    · rename_i hk
      refine List.pairwise_cons.2 ⟨fun e he => ?_, ih hr.2⟩
      rcases mem_insert he with he | he
      · subst he
        exact Std.OrientedCmp.gt_iff_lt.1 hk
      · exact hr.1 e he

theorem Sorted.insertNew {m : Entries κ α} (h : m.Sorted) (k : κ) (v : α) :
    (m.insertNew k v).Sorted := by
  unfold Entries.insertNew
  split
  · exact h
  · exact h.insert k v

theorem sorted_ofList (pairs : List (κ × α)) : (ofList pairs).Sorted := by
  suffices ∀ m : Entries κ α, m.Sorted → (pairs.foldl (fun m e => insert e.1 e.2 m) m).Sorted from
    this [] sorted_nil
  intro m hm
  induction pairs generalizing m with
  | nil => exact hm
  | cons e rest ih => exact ih _ (hm.insert e.1 e.2)

omit [Std.LawfulEqOrd κ] in
/-- A key below the first one of entries in key order is not among them. -/
theorem find?_eq_none_of_lt_head {k : κ} {e : κ × α} {m : Entries κ α}
    (below : compare k e.1 = .lt) (h : Sorted (e :: m)) : find? k (e :: m) = none := by
  obtain ⟨above, -⟩ := List.pairwise_cons.1 h
  refine find?_eq_none_of_lt fun e' he' => ?_
  rcases List.mem_cons.1 he' with rfl | he'
  · exact below
  · exact Std.TransCmp.lt_trans below (above e' he')

/-- Two lists of entries in key order are equal when they answer every look-up alike. -/
theorem ext_of_sorted {m₁ m₂ : Entries κ α} (h₁ : m₁.Sorted) (h₂ : m₂.Sorted)
    (h : ∀ k, find? k m₁ = find? k m₂) : m₁ = m₂ := by
  induction m₁ generalizing m₂ with
  | nil =>
    cases m₂ with
    | nil => rfl
    | cons e _ =>
      obtain ⟨k₂, v₂⟩ := e
      simpa [find?_cons] using h k₂
  | cons e₁ r₁ ih =>
    obtain ⟨k₁, v₁⟩ := e₁
    cases m₂ with
    | nil => simpa [find?_cons] using h k₁
    | cons e₂ r₂ =>
      obtain ⟨k₂, v₂⟩ := e₂
      have s₁ := List.pairwise_cons.1 h₁
      have s₂ := List.pairwise_cons.1 h₂
      -- Of two first keys that differ the lower one is held by its own list only.
      have hk : k₁ = k₂ := by
        cases hc : compare k₁ k₂ with
        | eq => exact compare_eq_iff.1 hc
        | lt =>
          have absent := (h k₁).trans (find?_eq_none_of_lt_head hc h₂)
          simp [find?_cons] at absent
        | gt =>
          have below : compare k₂ k₁ = .lt := Std.OrientedCmp.gt_iff_lt.1 hc
          have absent := (h k₂).symm.trans (find?_eq_none_of_lt_head below h₁)
          simp [find?_cons] at absent
      subst hk
      have hv : v₁ = v₂ := by simpa [find?_cons, compare_eq_iff] using h k₁
      subst hv
      have hr : r₁ = r₂ := by
        refine ih s₁.2 s₂.2 fun k => ?_
        by_cases hk : k = k₁
        · subst hk
          rw [find?_eq_none_of_lt s₁.1, find?_eq_none_of_lt s₂.1]
        · simpa [find?_cons, compare_eq_iff, hk] using h k
      rw [hr]

end Laws

end Entries

end StoreFeed
