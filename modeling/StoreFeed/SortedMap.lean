import StoreFeed.Entries

/-!
# Finite maps in key order

`SortedMap κ α` carries the proof that its entries are in strictly increasing key order, so two maps
that answer every look-up alike are equal (`SortedMap.ext`), and everything listed from a map comes
out in key order.
-/

namespace StoreFeed

/-- A finite map, listed in key order. -/
structure SortedMap (κ α : Type) [Ord κ] where
  /-- Keys and values, keys strictly increasing. -/
  entries : Entries κ α
  sorted : entries.Sorted

namespace SortedMap

variable {κ α β : Type} [Ord κ]

/-- The map without entries. -/
def empty : SortedMap κ α := ⟨[], Entries.sorted_nil⟩

instance : EmptyCollection (SortedMap κ α) := ⟨empty⟩

instance : Inhabited (SortedMap κ α) := ⟨empty⟩

instance [DecidableEq κ] [DecidableEq α] : DecidableEq (SortedMap κ α) := fun a b =>
  decidable_of_iff (a.entries = b.entries) (by cases a; cases b; simp)

/-- The value of a key. -/
def find? (m : SortedMap κ α) (k : κ) : Option α := m.entries.find? k

/-- The value of a key, or a default. -/
def findD (m : SortedMap κ α) (k : κ) (d : α) : α := (m.find? k).getD d

/-- Whether a key has a value. -/
def contains (m : SortedMap κ α) (k : κ) : Bool := (m.find? k).isSome

/-- The keys, in order. -/
def keys (m : SortedMap κ α) : List κ := m.entries.map (·.1)

/-- The values, in the order of their keys. -/
def values (m : SortedMap κ α) : List α := m.entries.map (·.2)

/-- Whether there are no entries. -/
def isEmpty (m : SortedMap κ α) : Bool := m.entries.isEmpty

/-- The number of entries. -/
def size (m : SortedMap κ α) : Nat := m.entries.length

/-- Keep the entries that satisfy `p`. -/
def filter (m : SortedMap κ α) (p : κ → α → Bool) : SortedMap κ α :=
  ⟨m.entries.filter fun e => p e.1 e.2, m.sorted.filter _⟩

/-- Drop a key. -/
def erase (m : SortedMap κ α) (k : κ) : SortedMap κ α := ⟨m.entries.erase k, m.sorted.erase k⟩

/-- Replace every value. -/
def map (m : SortedMap κ α) (f : κ → α → β) : SortedMap κ β :=
  ⟨m.entries.map fun e => (e.1, f e.1 e.2), m.sorted.map f⟩

/-! ## Laws of dropping keys -/

@[simp]
theorem find?_empty (k : κ) : (empty : SortedMap κ α).find? k = none := rfl

@[simp]
theorem find?_erase_self (m : SortedMap κ α) (k : κ) : (m.erase k).find? k = none :=
  Entries.find?_erase_self k m.entries

theorem find?_erase_of_ne [Std.LawfulEqOrd κ] (m : SortedMap κ α) {k k' : κ} (h : k' ≠ k) :
    (m.erase k).find? k' = m.find? k' :=
  Entries.find?_erase_of_ne h m.entries

theorem find?_map [Std.LawfulEqOrd κ] (m : SortedMap κ α) (f : κ → α → β) (k : κ) :
    (m.map f).find? k = (m.find? k).map (f k) := Entries.find?_map f k m.entries

variable [Std.TransOrd κ] [Std.LawfulEqOrd κ]

/-- Set the value of a key. -/
def insert (m : SortedMap κ α) (k : κ) (v : α) : SortedMap κ α :=
  ⟨m.entries.insert k v, m.sorted.insert k v⟩

/-- Set the value of a key only where it has none yet. -/
def insertNew (m : SortedMap κ α) (k : κ) (v : α) : SortedMap κ α :=
  ⟨m.entries.insertNew k v, m.sorted.insertNew k v⟩

/-- Change the value of a key that has one. -/
def modify (m : SortedMap κ α) (k : κ) (f : α → α) : SortedMap κ α :=
  match m.find? k with
  | some v => m.insert k (f v)
  | none => m

/-- The map of some pairs; of a repeated key the last value stays. -/
def ofList (pairs : List (κ × α)) : SortedMap κ α :=
  ⟨Entries.ofList pairs, Entries.sorted_ofList pairs⟩

/-! ## Laws of setting values -/

@[simp]
theorem find?_insert_self (m : SortedMap κ α) (k : κ) (v : α) : (m.insert k v).find? k = some v :=
  Entries.find?_insert_self k v m.entries

theorem find?_insert_of_ne (m : SortedMap κ α) {k k' : κ} (h : k' ≠ k) (v : α) :
    (m.insert k v).find? k' = m.find? k' :=
  Entries.find?_insert_of_ne h v m.entries

theorem contains_insert {m : SortedMap κ α} {k k' : κ} {v : α} :
    (m.insert k v).contains k' ↔ k' = k ∨ m.contains k' := by
  by_cases h : k' = k
  · subst h
    simp [contains]
  · simp [contains, find?_insert_of_ne m h, h]

/-- What a map of pairs holds is one of the pairs. -/
theorem mem_of_find?_ofList {pairs : List (κ × α)} {k : κ} {v : α}
    (h : (ofList pairs).find? k = some v) : (k, v) ∈ pairs :=
  Entries.mem_ofList (Entries.mem_of_find? h)

omit [Std.TransOrd κ] in
theorem mem_keys {m : SortedMap κ α} {k : κ} : k ∈ m.keys ↔ m.contains k :=
  Entries.mem_keys_iff

omit [Std.TransOrd κ] in
/-- No key is listed twice. -/
theorem nodup_keys (m : SortedMap κ α) : m.keys.Nodup := by
  refine List.Pairwise.map _ (fun a b hlt heq => ?_) m.sorted
  rw [heq, Entries.compare_eq_iff.2 rfl] at hlt
  cases hlt

/-- Maps that answer every look-up alike are equal. -/
theorem ext {m₁ m₂ : SortedMap κ α} (h : ∀ k, m₁.find? k = m₂.find? k) : m₁ = m₂ := by
  have := Entries.ext_of_sorted m₁.sorted m₂.sorted h
  cases m₁
  cases m₂
  simpa using this

end SortedMap

/-- A finite set, listed in order. -/
abbrev SortedSet (κ : Type) [Ord κ] := SortedMap κ Unit

namespace SortedSet

variable {κ : Type} [Ord κ]

/-- The members, in order. -/
def toList (s : SortedSet κ) : List κ := s.keys

/-- The members of `s` that `t` lacks. -/
def diff (s t : SortedSet κ) : List κ := s.toList.filter fun k => !t.contains k

variable [Std.TransOrd κ] [Std.LawfulEqOrd κ]

/-- Add a member. -/
def add (s : SortedSet κ) (k : κ) : SortedSet κ := s.insert k ()

/-- The set of some members. -/
def ofMembers (members : List κ) : SortedSet κ := SortedMap.ofList (members.map fun k => (k, ()))

/-! ## Laws of membership -/

omit [Std.TransOrd κ] in
@[simp]
theorem mem_toList {s : SortedSet κ} {k : κ} : k ∈ s.toList ↔ s.contains k :=
  Entries.mem_keys_iff

omit [Std.TransOrd κ] in
theorem mem_diff {s t : SortedSet κ} {k : κ} :
    k ∈ s.diff t ↔ s.contains k ∧ t.contains k = false := by
  simp [diff]

omit [Std.TransOrd κ] in
/-- Nothing is lacking from a set that contains all members. -/
theorem contains_of_diff_eq_nil {s t : SortedSet κ} (h : s.diff t = []) {k : κ}
    (hk : s.contains k) : t.contains k := by
  cases hn : t.contains k with
  | true => rfl
  | false =>
    have : k ∈ s.diff t := mem_diff.2 ⟨hk, hn⟩
    rw [h] at this
    cases this

@[simp]
theorem contains_ofMembers {members : List κ} {k : κ} :
    (ofMembers members).contains k ↔ k ∈ members := by
  have h : (ofMembers members).contains k ↔ k ∈ (members.map fun k => (k, ())).map (·.1) :=
    Entries.find?_ofList_isSome k _
  simpa using h

@[simp]
theorem contains_add_self (s : SortedSet κ) (k : κ) : (s.add k).contains k := by
  simp [add, SortedMap.contains]

theorem contains_add_of_ne (s : SortedSet κ) {k k' : κ} (h : k' ≠ k) :
    (s.add k).contains k' = s.contains k' := by
  simp [add, SortedMap.contains, SortedMap.find?_insert_of_ne _ h]

omit [Std.TransOrd κ] [Std.LawfulEqOrd κ] in
@[simp]
theorem contains_erase_self (s : SortedSet κ) (k : κ) :
    SortedMap.contains (s.erase k) k = false := by
  simp [SortedMap.contains]

omit [Std.TransOrd κ] in
theorem contains_erase_of_ne (s : SortedSet κ) {k k' : κ} (h : k' ≠ k) :
    SortedMap.contains (s.erase k) k' = s.contains k' := by
  simp [SortedMap.contains, SortedMap.find?_erase_of_ne _ h]

end SortedSet

end StoreFeed
