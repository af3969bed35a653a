import StoreFeed.Proofs.Json.Tree
import StoreFeed.Proofs.Json.Value

/-!
# What decoders read of written values

`Reads d v a` says that `d` reads the document of the value `v` as `a`. There is one law for each
way to build a decoder; a format is read back once these laws have been applied along its structure.
-/

namespace StoreFeed.Json

namespace Decoder

variable {α β : Type} {d : Decoder α} {v : Value} {a : α}

/-- Whether a decoder that may enter as many levels as a value has reads it as `a`. -/
def Reads (d : Decoder α) (v : Value) (a : α) : Prop :=
  ∀ depth, v.depth ≤ depth → d depth v.tree = some a

theorem Reads.map (h : d.Reads v a) (f : α → β) : (d.map f).Reads v (f a) := by
  intro depth deep
  rw [Decoder.map, h depth deep, Option.map_some]

/-- What is read of a value is read of its text, and of its bytes. -/
theorem Reads.run (h : d.Reads v a) (integral : v.Integral) (deep : v.depth ≤ maxDepth) :
    d.run v.render = some a ∧ d.runBytes v.toBytes = some a := by
  rw [run_render d integral, runBytes_toBytes d integral]
  exact ⟨h maxDepth deep, h maxDepth deep⟩

/-! ## Scalars -/

theorem integerOf?_literalOf {n : Int} (h : (Value.int n).Integral) :
    integerOf? (literalOf n) = some n := by
  obtain ⟨low, high⟩ := h
  cases n with
  | ofNat m =>
    have small : m ≤ Decimal.maxWord64 := Int.ofNat_le.mp high
    simp [integerOf?, literalOf, small]
  | negSucc m =>
    have small : m + 1 ≤ 9223372036854775808 := by omega
    simp [integerOf?, literalOf, small]
    omega

theorem reads_nat {bound n : Nat} (small : n ≤ bound) (word : bound ≤ Decimal.maxWord64) :
    (nat bound).Reads (.nat n) n := by
  intro depth _
  have integral : (Value.int n).Integral := ⟨by omega, Int.ofNat_le.mpr (Nat.le_trans small word)⟩
  have read := integerOf?_literalOf integral
  simp [nat, Value.nat, Value.tree, read, small]

theorem reads_word64 {n : Nat} (h : (Value.nat n).Integral) : word64.Reads (.nat n) n :=
  reads_nat (Int.ofNat_le.mp h.2) (Nat.le_refl _)

theorem reads_word32 (n : UInt32) : word32.Reads (.nat n.toNat) n := by
  have number : (nat Decimal.maxWord32).Reads (.nat n.toNat) n.toNat :=
    reads_nat (Nat.le_of_lt_succ n.toNat_lt) (by decide)
  have read := number.map UInt32.ofNat
  rwa [UInt32.ofNat_toNat] at read

theorem reads_bool (b : Bool) : bool.Reads (.bool b) b := fun _ _ => rfl

theorem reads_string (s : String) : string.Reads (.str s) s := fun _ _ => Text.text?_piecesOf s

/-! ## Values -/

mutual

/-- A value without floats, in key order, is read as itself. -/
theorem reads_value (v : Value) (integral : v.Integral) (ordered : v.Ordered) :
    value.Reads v v := by
  intro depth deep
  cases v with
  | null => rfl
  | bool b => rfl
  | int n =>
    rw [Value.tree, value, numberOf?, integerOf?_literalOf integral]
  | float x => cases integral
  | str s =>
    rw [Value.tree, value, Text.text?_piecesOf, Option.map_some]
  | arr items =>
    cases depth with
    | zero => cases deep
    | succ depth =>
      rw [Value.tree, value, valueItems_itemTrees items integral ordered
        (Nat.le_of_succ_le_succ deep), Option.map_some]
  | obj members =>
    cases depth with
    | zero => cases deep
    | succ depth =>
      rw [Value.tree, value,
        valueMembers_memberTrees members integral ordered.2 (Nat.le_of_succ_le_succ deep),
        Option.map_some, Value.object, Entries.ofList_of_sorted ordered.1]
termination_by structural v

theorem valueItems_itemTrees (items : List Value) (integral : Value.IntegralItems items)
    (ordered : Value.OrderedItems items) {depth : Nat} (deep : Value.depthItems items ≤ depth) :
    valueItems depth (Value.itemTrees items) = some items := by
  cases items with
  | nil => rfl
  | cons a as =>
    obtain ⟨first, rest⟩ := Nat.max_le.mp deep
    rw [Value.itemTrees, valueItems, reads_value a integral.1 ordered.1 depth first,
      valueItems_itemTrees as integral.2 ordered.2 rest]
    rfl
termination_by structural items

theorem valueMembers_memberTrees (members : List (String × Value))
    (integral : Value.IntegralMembers members)
    (ordered : Value.OrderedMembers members) {depth : Nat}
    (deep : Value.depthMembers members ≤ depth) :
    valueMembers depth (Value.memberTrees members) = some members := by
  cases members with
  | nil => rfl
  | cons e as =>
    obtain ⟨key, a⟩ := e
    obtain ⟨first, rest⟩ := Nat.max_le.mp deep
    rw [Value.memberTrees, valueMembers, Text.text?_piecesOf,
      reads_value a integral.1 ordered.1 depth first,
      valueMembers_memberTrees as integral.2 ordered.2 rest]
    rfl
termination_by structural members

end

mutual

/-- A value that nests deeper than may be entered is refused. -/
theorem value_tree_of_deep (v : Value) {depth : Nat} (deep : depth < v.depth) :
    value depth v.tree = none := by
  cases v with
  | arr items =>
    cases depth with
    | zero => rfl
    | succ depth =>
      rw [Value.tree, value, valueItems_of_deep items (Nat.lt_of_succ_lt_succ deep),
        Option.map_none]
  | obj members =>
    cases depth with
    | zero => rfl
    | succ depth =>
      rw [Value.tree, value, valueMembers_of_deep members (Nat.lt_of_succ_lt_succ deep),
        Option.map_none]
  | _ => cases deep
termination_by structural v

theorem valueItems_of_deep (items : List Value) {depth : Nat}
    (deep : depth < Value.depthItems items) :
    valueItems depth (Value.itemTrees items) = none := by
  cases items with
  | nil => cases deep
  | cons a as =>
    rw [Value.itemTrees, valueItems]
    by_cases first : depth < a.depth
    · rw [value_tree_of_deep a first]
      rfl
    · have rest : depth < Value.depthItems as := by
        rw [Value.depthItems] at deep
        omega
      rw [valueItems_of_deep as rest]
      cases value depth a.tree <;> rfl
termination_by structural items

theorem valueMembers_of_deep (members : List (String × Value)) {depth : Nat}
    (deep : depth < Value.depthMembers members) :
    valueMembers depth (Value.memberTrees members) = none := by
  cases members with
  | nil => cases deep
  | cons e as =>
    obtain ⟨key, a⟩ := e
    rw [Value.memberTrees, valueMembers, Text.text?_piecesOf]
    by_cases first : depth < a.depth
    · rw [value_tree_of_deep a first]
      rfl
    · have rest : depth < Value.depthMembers as := by
        rw [Value.depthMembers] at deep
        omega
      rw [valueMembers_of_deep as rest]
      cases value depth a.tree <;> rfl
termination_by structural members

end

/-! ## Collections -/

/-- A list is read item by item. -/
theorem reads_list {f : α → Value} {as : List α} (h : ∀ a ∈ as, d.Reads (f a) a) :
    (list d).Reads (.arr (as.map f)) as := by
  intro depth deep
  cases depth with
  | zero => cases deep
  | succ depth =>
    replace deep := Nat.le_of_succ_le_succ deep
    rw [Value.tree, list]
    induction as with
    | nil => rfl
    | cons a as ih =>
      obtain ⟨first, rest⟩ := Nat.max_le.mp deep
      rw [List.map_cons, Value.itemTrees, List.mapM_cons, h a List.mem_cons_self depth first,
        ih (fun b hb => h b (List.mem_cons_of_mem a hb)) rest]
      rfl

/-- An object is read member by member. -/
theorem reads_members {f : α → Value} {es : Entries String α} (h : ∀ e ∈ es, d.Reads (f e.2) e.2) :
    (members d).Reads (.obj (es.map fun e => (e.1, f e.2))) es := by
  intro depth deep
  cases depth with
  | zero => cases deep
  | succ depth =>
    replace deep := Nat.le_of_succ_le_succ deep
    rw [Value.tree, members]
    induction es with
    | nil => rfl
    | cons e es ih =>
      obtain ⟨first, rest⟩ := Nat.max_le.mp deep
      rw [List.map_cons, Value.memberTrees, List.mapM_cons,
        ih (fun e' he' => h e' (List.mem_cons_of_mem e he')) rest]
      simp [Text.text?_piecesOf, h e List.mem_cons_self depth first]

/-- A map is read from the object of its entries. -/
theorem reads_table {f : α → Value} {m : SortedMap String α}
    (h : ∀ e ∈ m.entries, d.Reads (f e.2) e.2) :
    (table d).Reads (.obj (m.entries.map fun e => (e.1, f e.2))) m := by
  have read := (reads_members h).map SortedMap.ofList
  rwa [SortedMap.ofList_entries] at read

theorem reads_values {items : List Value} (integral : Value.IntegralItems items)
    (ordered : Value.OrderedItems items) : (list value).Reads (.arr items) items := by
  have read := reads_list (d := value) (f := id) fun v among =>
    reads_value v (Value.integralItems_iff.mp integral v among)
      (Value.orderedItems_iff.mp ordered v among)
  rwa [List.map_id] at read

theorem reads_valueMembers {es : Entries String Value} (integral : Value.IntegralMembers es)
    (ordered : Value.OrderedMembers es) : (members value).Reads (.obj es) es := by
  have read := reads_members (d := value) (f := id) fun e among =>
    reads_value e.2 (Value.integralMembers_iff.mp integral e among)
      (Value.orderedMembers_iff.mp ordered e among)
  rwa [show (es.map fun e => (e.1, id e.2)) = es from List.map_id es] at read

theorem reads_none : (option d).Reads .null none := fun _ _ => rfl

theorem reads_some (h : d.Reads v a) (solid : v.tree ≠ .null) : (option d).Reads v (some a) := by
  intro depth deep
  rw [option]
  · rw [h depth deep, Option.map_some]
  · exact solid

/-! ## Records -/

/-- The fields found in the document of an object. -/
def written (fields : List (String × Value)) (depth : Nat) : Fields :=
  ⟨true, fields.map fun e => (e.1, e.2.tree), depth⟩

theorem get?_written (fields : List (String × Value)) (depth : Nat) (name : String) :
    (written fields depth).get? name = (fields.lookup name).map Value.tree := by
  rw [written, Fields.get?]
  induction fields with
  | nil => rfl
  | cons e fields ih =>
    obtain ⟨key, v⟩ := e
    simp only [List.map_cons, List.lookup_cons, ih]
    split <;> rfl

theorem depth_le_of_lookup {fields : List (String × Value)} {v : Value} (name : String)
    (h : fields.lookup name = some v) : v.depth ≤ Value.depthMembers fields := by
  induction fields with
  | nil => cases h
  | cons e fields ih =>
    rw [List.lookup_cons] at h
    split at h
    · cases h
      exact Nat.le_max_left _ _
    · exact Nat.le_trans (ih h) (Nat.le_max_right _ _)

section Fields

variable {fields : List (String × Value)} {depth : Nat} (deep : Value.depthMembers fields ≤ depth)

include deep

theorem required_written (name : String) (found : fields.lookup name = some v) (h : d.Reads v a) :
    (written fields depth).required name d = some a := by
  rw [Fields.required, get?_written, found]
  exact h depth (Nat.le_trans (depth_le_of_lookup name found) deep)

theorem withDefault_written (name : String) (found : fields.lookup name = some v)
    (h : d.Reads v a) (default : α) :
    (written fields depth).withDefault name d default = some a := by
  rw [Fields.withDefault, get?_written, found]
  exact h depth (Nat.le_trans (depth_le_of_lookup name found) deep)

theorem optional_written {o : Option α} (name : String) (found : fields.lookup name = some v)
    (h : (option d).Reads v o) :
    (written fields depth).optional name d = some o := by
  rw [Fields.optional, get?_written, found]
  exact h depth (Nat.le_trans (depth_le_of_lookup name found) deep)

end Fields

theorem collectFields_memberTrees {names : List String} {fields : List (String × Value)}
    (known : ∀ name ∈ fields.map (·.1), name ∈ names) (distinct : (fields.map (·.1)).Nodup) :
    collectFields names (Value.memberTrees fields) =
      some (fields.map fun e => (e.1, e.2.tree)) := by
  induction fields with
  | nil => rfl
  | cons e fields ih =>
    obtain ⟨key, v⟩ := e
    obtain ⟨new, distinct⟩ := List.nodup_cons.mp distinct
    have fresh : (fields.map fun e => (e.1, e.2.tree)).lookup key = none := by
      rw [List.lookup_eq_none_iff]
      intro e among
      obtain ⟨e', among', rfl⟩ := List.mem_map.mp among
      rw [bne_iff_ne]
      rintro rfl
      exact new (List.mem_map.mpr ⟨e', among', rfl⟩)
    rw [Value.memberTrees, collectFields, Text.text?_piecesOf,
      ih (fun name among => known name (List.mem_cons_of_mem _ among)) distinct]
    simp [known key List.mem_cons_self, fresh]

/-- A record is read if its fields are, whatever their names stand for. -/
theorem reads_namedRecord {names : List String} {read : Fields → Option α}
    {fields : List (String × Value)}
    (known : ∀ name ∈ fields.map (·.1), name ∈ names) (distinct : (fields.map (·.1)).Nodup)
    (h : ∀ depth, Value.depthMembers fields ≤ depth → read (written fields depth) = some a) :
    (namedRecord names read).Reads (.obj fields) a := by
  intro depth deep
  cases depth with
  | zero => cases deep
  | succ depth =>
    rw [Value.tree, namedRecord, collectFields_memberTrees known distinct]
    exact h depth (Nat.le_of_succ_le_succ deep)

theorem reads_record {names : List String} {read : Fields → Option α}
    {fields : List (String × Value)}
    (known : ∀ name ∈ fields.map (·.1), name ∈ names) (distinct : (fields.map (·.1)).Nodup)
    (h : ∀ depth, Value.depthMembers fields ≤ depth → read (written fields depth) = some a) :
    (record names read).Reads (.obj fields) a := by
  intro depth deep
  cases depth with
  | zero => cases deep
  | succ depth => exact reads_namedRecord known distinct h (depth + 1) deep

/-! ## Alternatives -/

theorem reads_variant_alone {read : String → Option (Nat × Tree) → Option α} {name : String}
    (h : read name none = some a) : (variant read).Reads (.str name) a := by
  intro depth _
  rw [Value.tree, variant, Text.text?_piecesOf]
  exact h

theorem reads_variant {read : String → Option (Nat × Tree) → Option α}
    {name : String} {content : Value}
    (h : ∀ depth, content.depth ≤ depth → read name (some (depth, content.tree)) = some a) :
    (variant read).Reads (.obj [(name, content)]) a := by
  intro depth deep
  cases depth with
  | zero => cases deep
  | succ depth =>
    rw [Value.tree, Value.memberTrees, Value.memberTrees, variant, Text.text?_piecesOf]
    exact h depth (Nat.le_trans (Nat.le_max_left _ _) (Nat.le_of_succ_le_succ deep))

theorem reads_enumeration {ofName? : String → Option α} {name : String}
    (h : ofName? name = some a) :
    (enumeration ofName?).Reads (.str name) a :=
  reads_variant_alone h

end Decoder

end StoreFeed.Json
