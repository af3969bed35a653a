import StoreFeed.Proofs.Update.Kinds
import StoreFeed.Proofs.Update.Refusals
import StoreFeed.Proofs.Wire.Records

/-!
# Merging stored bytes

What is stored is the text of a value, so every merge reads and writes it again. That loses nothing
as long as all numbers are integers and no value nests deeper than what is read: a run over stored
bytes is refused where the run over values is, with the same errors, and its bytes are read as the
values of that run (`refines_iff`). Values that are made stay within integers and in key order by
themselves (`Merges.storable`); how deep they nest does not.
-/

namespace StoreFeed

open Json

/-! ## Values that can be stored -/

namespace Json.Value

/-- A value is read as it was written, but for its depth: its numbers are integers of 64 bits and
its objects are in key order. -/
def Storable (v : Value) : Prop := v.Integral ∧ v.Ordered

theorem storable_arr_iff {items : List Value} : (arr items).Storable ↔ ∀ a ∈ items, a.Storable := by
  show IntegralItems items ∧ OrderedItems items ↔ _
  rw [integralItems_iff, orderedItems_iff, ← forall₂_and]
  rfl

theorem storable_obj_iff {members : Entries String Value} : (obj members).Storable ↔
    Entries.Sorted members ∧ ∀ key a, members.find? key = some a → a.Storable := by
  show IntegralMembers members ∧ (obj members).Ordered ↔ _
  rw [integralMembers_iff, ordered_obj_iff]
  constructor
  · rintro ⟨integral, sorted, ordered⟩
    exact ⟨sorted, fun key a found =>
      ⟨integral _ (Entries.mem_of_find? found), ordered key a found⟩⟩
  · rintro ⟨sorted, all⟩
    refine ⟨fun e among => ?_, sorted, fun key a found => (all key a found).2⟩
    exact (all e.1 e.2 (SortedMap.find?_of_mem (m := ⟨members, sorted⟩) among)).1

theorem Storable.member? {v a : Value} {key : String} (h : v.Storable)
    (held : v.member? key = some a) :
    a.Storable := by
  unfold Value.member? at held
  split at held
  · exact (storable_obj_iff.mp h).2 key a held
  · cases held

end Json.Value

/-- A value that nests no deeper than what is read is read from its bytes. -/
theorem decodeValue_toBytes {v : Value} (storable : v.Storable) (shallow : v.depth ≤ maxDepth) :
    decodeValue v.toBytes = .ok v := by
  rw [decodeValue, ((Decoder.reads_value v storable.1 storable.2).run storable.1 shallow).2]

/-- A value that nests deeper is written, but not read. -/
theorem decodeValue_toBytes_of_deep {v : Value} (storable : v.Storable)
    (deep : maxDepth < v.depth) :
    decodeValue v.toBytes = .error .malformed := by
  rw [decodeValue, Decoder.runBytes_toBytes _ storable.1, Decoder.value_tree_of_deep v deep]

/-! ## Merges keep values storable -/

namespace FieldUpdate

/-- All values that an operation carries can be stored. -/
def Storable (op : FieldUpdate) : Prop := op.toJson.Integral ∧ op.InKeyOrder

theorem Storable.set {value : Value} (h : (FieldUpdate.set value).Storable) : value.Storable :=
  ⟨h.1.2.1, h.2⟩

theorem Storable.add {add remove : List Value} (h : (listOps add remove).Storable) :
    ∀ a ∈ add, a.Storable := by
  obtain ⟨⟨-, ⟨integral, -⟩, -⟩, ordered, -⟩ := h
  exact Value.storable_arr_iff.mp ⟨integral, ordered⟩

theorem Storable.put {put : Entries String Value} {remove : List String}
    (h : (mapOps put remove).Storable) :
    (Value.obj put).Storable := by
  obtain ⟨⟨-, ⟨integral, -⟩, -⟩, ordered⟩ := h
  exact ⟨integral, ordered⟩

/-- What a field holds, if anything, can be stored. -/
def StorableIn (held : Option Value) : Prop := ∀ x, held = some x → x.Storable

variable {op : FieldUpdate} {field : String} {held edited : Option Value}

theorem storable_of_listOf {items : List Value} (storable : StorableIn held)
    (h : listOf field held = .ok items) : ∀ a ∈ items, a.Storable := by
  rcases listOf_cases h with own | ⟨-, rfl⟩
  · exact Value.storable_arr_iff.mp (storable _ own)
  · exact nofun

theorem storable_of_mapOf {entries : Entries String Value} (storable : StorableIn held)
    (h : mapOf field held = .ok entries) : (Value.obj entries).Storable := by
  rcases mapOf_cases h with own | ⟨-, rfl⟩
  · exact storable _ own
  · exact ⟨trivial, Entries.sorted_nil, trivial⟩

/-- What an operation makes of what can be stored can be stored. -/
theorem Storable.edit (h : op.Storable) (storable : StorableIn held)
    (made : op.edit field held = .ok edited) : StorableIn edited := by
  cases op with
  | noOp =>
    cases made
    exact storable
  | set value =>
    cases made
    rintro x ⟨⟩
    exact h.set
  | listOps add remove =>
    obtain ⟨items, listed, rfl⟩ := listOps_cases made
    rintro x ⟨⟩
    refine Value.storable_arr_iff.mpr fun a among => ?_
    rcases mem_editList among with old | new
    · exact storable_of_listOf storable listed a old
    · exact h.add a new
  | mapOps put remove =>
    obtain ⟨entries, listed, rfl⟩ := mapOps_cases made
    rintro x ⟨⟩
    obtain ⟨sorted, old⟩ := Value.storable_obj_iff.mp (storable_of_mapOf storable listed)
    obtain ⟨sortedPut, new⟩ := Value.storable_obj_iff.mp h.put
    refine Value.storable_obj_iff.mpr ⟨sorted_editMap sorted put remove, fun key a found => ?_⟩
    rw [find?_editMap, sortedPut.find?_reverse] at found
    rcases Option.or_eq_some_iff.mp found with found | ⟨-, found⟩
    · exact new key a found
    · split at found
      · cases found
      · exact old key a found

end FieldUpdate

/-- All values that an update carries can be stored. -/
def PartialUpdate.Storable (u : PartialUpdate) : Prop := ∀ e ∈ u.entries, e.2.Storable

theorem PartialUpdate.Storable.on {u : PartialUpdate} (h : u.Storable) (field : String) :
    (u.on field).Storable :=
  PartialUpdate.on_of_forall (fun _ named => h _ named) ⟨⟨trivial, trivial⟩, trivial⟩

theorem PartialUpdate.Storable.single {field : String} {op : FieldUpdate} (h : op.Storable) :
    (empty.with_ field op).Storable := by
  intro e among
  cases List.mem_singleton.mp among
  exact h

/-- All defaults can be stored. -/
def Schema.Storable (s : Schema) : Prop := ∀ f ∈ s.fields, f.default.Storable

section Merges

variable {schema : Schema} {current : Option Value} {u : PartialUpdate} {v : Value}

theorem Schema.Storable.start (defaults : schema.Storable) (stored : FieldUpdate.StorableIn current)
    (field : String) : FieldUpdate.StorableIn (schema.start current field) := by
  intro x start
  rcases schema.start_cases start with ⟨c, same, held⟩ | ⟨f, known, rfl⟩
  · exact (stored c same).member? held
  · exact defaults f (List.mem_of_find?_eq_some known)

/-- What a merge makes of what can be stored can be stored. -/
theorem Merges.storable (h : Merges schema current u v) (defaults : schema.Storable)
    (stored : FieldUpdate.StorableIn current) (carried : u.Storable) : v.Storable := by
  obtain ⟨members, rfl, sorted⟩ := h.sorted fun c held => (stored c held).2
  exact Value.storable_obj_iff.mpr ⟨sorted, fun field x held =>
    (carried.on field).edit (defaults.start stored field) (h.fields field) x held⟩

/-! ## Merging what bytes are read as -/

/-- Merging is never refused for want of a value. -/
theorem merge_ne_malformed : merge schema current u ≠ .error .malformed := by
  intro refused
  cases error_iff_refused.mp refused with
  | opposed first =>
    obtain ⟨field, ⟨op, -, opposed⟩, -⟩ := first
    cases opposed
  | missed _ _ first =>
    obtain ⟨field, ⟨op, -, missed⟩, -⟩ := first
    unfold Schema.Misses at missed
    generalize schema.start current field = held at missed
    cases missed

/-- A merge into bytes is the merge into the value that they are read as. -/
theorem mergeBytes_of_read {stored : Option ByteArray}
    (read : stored.mapM decodeValue = .ok current)
    (u : PartialUpdate) : mergeBytes schema stored u =
      (merge schema current u).map Value.toBytes := by
  rw [mergeBytes, read]
  show (merge schema current u >>= fun merged => pure merged.toBytes) = _
  cases merge schema current u <;> rfl

end Merges

/-! ## Runs of merges -/

namespace Schema

/-- The bytes that are stored once an update was tried: one that is refused changes nothing. -/
def keepBytes (s : Schema) (stored : Option ByteArray) (u : PartialUpdate) : Option ByteArray :=
  match mergeBytes s stored u with
  | .ok b => some b
  | .error _ => stored

/-- Of updates that are tried one after the other, one is merged and makes a value. -/
def MakesFrom (s : Schema) (current : Option Value) (us : List PartialUpdate) (v : Value) : Prop :=
  ∃ earlier u later, us = earlier ++ u :: later ∧ merge s (earlier.foldl s.keep current) u = .ok v

/-- Each merge into stored bytes is refused with the error that the merge into values is refused
with, and afterwards the bytes are read as the value. -/
def Refines (s : Schema) (stored : Option ByteArray) (current : Option Value)
    (us : List PartialUpdate) :
    Prop :=
  ∀ earlier u later, us = earlier ++ u :: later →
    (∀ e, mergeBytes s (earlier.foldl s.keepBytes stored) u = .error e ↔
      merge s (earlier.foldl s.keep current) u = .error e) ∧
    ((earlier ++ [u]).foldl s.keepBytes stored).mapM decodeValue =
      .ok ((earlier ++ [u]).foldl s.keep current)

/-- Bytes are read as a value that can be stored. -/
structure Reads (stored : Option ByteArray) (current : Option Value) : Prop where
  read : stored.mapM decodeValue = .ok current
  storable : FieldUpdate.StorableIn current

variable {schema : Schema} {stored : Option ByteArray} {current : Option Value} {u : PartialUpdate}
  {us : List PartialUpdate}

theorem not_makesFrom_nil {v : Value} : ¬ schema.MakesFrom current [] v := by
  rintro ⟨earlier, u, later, split, -⟩
  simp at split

/-- The first update makes a value, or one of the others does. -/
theorem makesFrom_cons_iff {v : Value} : schema.MakesFrom current (u :: us) v ↔
    merge schema current u = .ok v ∨ schema.MakesFrom (schema.keep current u) us v := by
  constructor
  · rintro ⟨earlier, u', later, split, merged⟩
    cases earlier with
    | nil =>
      cases split
      exact .inl merged
    | cons first earlier =>
      cases split
      exact .inr ⟨earlier, u', later, rfl, merged⟩
  · rintro (merged | ⟨earlier, u', later, rfl, merged⟩)
    · exact ⟨[], u, us, rfl, merged⟩
    · exact ⟨u :: earlier, u', later, rfl, merged⟩

theorem reads_none : Reads none none := ⟨rfl, nofun⟩

theorem reads_toBytes {v : Value} (storable : v.Storable) (shallow : v.depth ≤ maxDepth) :
    Reads (some v.toBytes) (some v) where
  read := by
    rw [Option.mapM_some, decodeValue_toBytes storable shallow]
    rfl
  storable := by
    rintro x ⟨⟩
    exact storable

/-- An update that is tried leaves bytes that are read as what it leaves of the value. -/
theorem Reads.keep (h : Reads stored current) (defaults : schema.Storable) (carried : u.Storable)
    (shallow : ∀ v, merge schema current u = .ok v → v.depth ≤ maxDepth) :
    Reads (schema.keepBytes stored u) (schema.keep current u) := by
  unfold keepBytes Schema.keep
  rw [mergeBytes_of_read h.read]
  cases merged : merge schema current u with
  | error e => exact h
  | ok v =>
    have storable := (merges_of_ok merged).storable defaults h.storable carried
    exact reads_toBytes storable (shallow v merged)

/-- So do all updates that are tried one after the other. -/
theorem Reads.foldl (h : Reads stored current) (defaults : schema.Storable)
    (carried : ∀ u ∈ us, u.Storable)
    (shallow : ∀ v, schema.MakesFrom current us v → v.depth ≤ maxDepth) :
    Reads (us.foldl schema.keepBytes stored) (us.foldl schema.keep current) := by
  induction us generalizing stored current with
  | nil => exact h
  | cons u us ih =>
    obtain ⟨first, rest⟩ := List.forall_mem_cons.mp carried
    exact ih (h.keep defaults first fun v merged =>
      shallow v (makesFrom_cons_iff.mpr (.inl merged))) rest
      fun v made => shallow v (makesFrom_cons_iff.mpr (.inr made))

theorem Reads.refines (h : Reads stored current) (defaults : schema.Storable)
    (carried : ∀ u ∈ us, u.Storable)
    (shallow : ∀ v, schema.MakesFrom current us v → v.depth ≤ maxDepth) :
    schema.Refines stored current us := by
  rintro earlier u later rfl
  have upTo : ∀ front back, earlier ++ u :: later = front ++ back →
      Reads (front.foldl schema.keepBytes stored) (front.foldl schema.keep current) := by
    intro front back split
    refine h.foldl defaults (fun u among => carried u (split ▸ List.mem_append_left back among)) ?_
    rintro v ⟨earlier', u', later', rfl, merged⟩
    exact shallow v ⟨earlier', u', later' ++ back, by simp [split], merged⟩
  refine ⟨fun e => ?_, (upTo (earlier ++ [u]) later (by simp)).read⟩
  rw [mergeBytes_of_read (upTo earlier (u :: later) rfl).read]
  cases merge schema (earlier.foldl schema.keep current) u <;> simp [Except.map]

/-- From a value that nests too deep on, bytes are not even read. -/
theorem not_refines_of_deep {v : Value} (storable : v.Storable) (deep : maxDepth < v.depth)
    (nonempty : us ≠ []) : ¬ schema.Refines (some v.toBytes) (some v) us := by
  intro refines
  obtain ⟨u, later, rfl⟩ := List.exists_cons_of_ne_nil nonempty
  have unread : mergeBytes schema (some v.toBytes) u = .error .malformed := by
    rw [mergeBytes, Option.mapM_some, decodeValue_toBytes_of_deep storable deep]
    rfl
  exact merge_ne_malformed (((refines [] u later rfl).1 .malformed).mp unread)

/-- Where all numbers are integers and no value that is made nests too deep, a run of merges into
stored bytes does what the run of merges into values does, with the same errors, exactly if the
value that was stored at first does not nest too deep either (or nothing is merged at all). -/
theorem refines_iff (defaults : schema.Storable) (storable : ∀ v, current = some v → v.Storable)
    (carried : ∀ u ∈ us, u.Storable)
    (shallow : ∀ v, schema.MakesFrom current us v → v.depth ≤ maxDepth) :
    schema.Refines (current.map Value.toBytes) current us ↔
      us = [] ∨ ∀ v, current = some v → v.depth ≤ maxDepth := by
  constructor
  · intro refines
    by_contra neither
    obtain ⟨nonempty, v, rfl, deep⟩ : us ≠ [] ∧ ∃ v, current = some v ∧ maxDepth < v.depth := by
      simpa using neither
    exact not_refines_of_deep (storable v rfl) deep nonempty refines
  · rintro (rfl | start)
    -- Without an update nothing is read, so it does not show how deep the value nests.
    · intro earlier u later none
      simp at none
    · refine Reads.refines ?_ defaults carried shallow
      cases current with
      | none => exact reads_none
      | some v => exact reads_toBytes (storable v rfl) (start v rfl)

/-! ## Samples -/

theorem storable_tagged : tagged.Storable := by
  intro f among
  cases List.mem_singleton.mp among
  exact ⟨trivial, trivial⟩

theorem storable_tagging : PartialUpdate.tagging.Storable :=
  .single ⟨by simp [FieldUpdate.toJson, Value.Integral, Value.IntegralMembers, Value.IntegralItems],
    ⟨trivial, trivial⟩, trivial⟩

/-- A list that is null is added to, set to a text, and refused to be added to. -/
theorem refines_iff_poisoned :
    tagged.Refines (some (Value.obj [("n", .int (-1)), ("tags", .null)]).toBytes)
        (some (.obj [("n", .int (-1)), ("tags", .null)])) [.tagging, .untagging, .tagging] ∧
      merge tagged (some (.obj [("n", .int (-1)), ("tags", .str "none")])) .tagging =
        .error (.notAList "tags" (.str "none")) := by
  have storable : ∀ v, some (Value.obj [("n", .int (-1)), ("tags", .null)]) = some v →
      v.Storable := by
    rintro v ⟨⟩
    have sorted : Entries.Sorted [("n", Value.int (-1)), ("tags", .null)] := by
      unfold Entries.Sorted
      decide
    exact ⟨⟨by unfold Value.Integral; decide, trivial, trivial⟩, sorted, trivial, trivial, trivial⟩
  have carried : ∀ u ∈ [PartialUpdate.tagging, .untagging, .tagging], u.Storable := by
    intro u among
    simp only [List.mem_cons, List.not_mem_nil, or_false] at among
    rcases among with rfl | rfl | rfl
    · exact storable_tagging
    · exact .single ⟨⟨trivial, trivial, trivial⟩, trivial⟩
    · exact storable_tagging
  have shallow : ∀ v, tagged.MakesFrom (some (.obj [("n", .int (-1)), ("tags", .null)]))
      [.tagging, .untagging, .tagging] v → v.depth ≤ maxDepth := by
    intro v made
    simp only [makesFrom_cons_iff, not_makesFrom_nil, or_false] at made
    rcases made with merged | merged | merged
    · cases merged
      decide
    · cases merged
      decide
    · cases merged
  refine ⟨(refines_iff storable_tagged storable carried shallow).mpr (.inr ?_), rfl⟩
  rintro v ⟨⟩
  decide

end Schema

namespace Json.Value

/-- Arrays, each in another. -/
def nested : Nat → Value
  | 0 => .null
  | n + 1 => .arr [nested n]

/-- A list that nests deeper than what is read. -/
def overnested : Value := .obj [("tags", nested maxDepth)]

theorem depth_nested (n : Nat) : (nested n).depth = n := by
  induction n with
  | zero => rfl
  | succ n ih => simp [nested, depth, depthItems, ih]

theorem storable_nested (n : Nat) : (nested n).Storable := by
  induction n with
  | zero => exact ⟨trivial, trivial⟩
  | succ n ih =>
    refine storable_arr_iff.mpr fun a among => ?_
    cases List.mem_singleton.mp among
    exact ih

theorem storable_overnested : overnested.Storable := by
  refine storable_obj_iff.mpr ⟨List.pairwise_singleton _ _, fun key a found => ?_⟩
  cases List.mem_singleton.mp (Entries.mem_of_find? found)
  exact storable_nested maxDepth

theorem deep_overnested : maxDepth < overnested.depth := by
  rw [overnested, depth, depthMembers, depthMembers, depth_nested]
  decide

end Json.Value

namespace Schema

/-- A list that nests too deep would be set to null, but what is stored is not read. -/
theorem unread_overnested :
    tagged.Storable ∧ Value.overnested.Storable ∧ PartialUpdate.emptying.Storable ∧
      (∀ v, tagged.MakesFrom (some .overnested) [.emptying] v → v.depth ≤ maxDepth) ∧
      merge tagged (some .overnested) .emptying = .ok (.obj [("tags", .null)]) ∧
      mergeBytes tagged (some Value.overnested.toBytes) .emptying = .error .malformed ∧
      ¬ tagged.Refines (some Value.overnested.toBytes) (some .overnested) [.emptying] := by
  have merged : merge tagged (some .overnested) .emptying = .ok (.obj [("tags", .null)]) := rfl
  refine ⟨storable_tagged, Value.storable_overnested, ?_, fun v made => ?_, merged, ?_, ?_⟩
  · exact .single ⟨⟨trivial, trivial, trivial⟩, trivial⟩
  · rcases makesFrom_cons_iff.mp made with makes | none
    · cases merged.symm.trans makes
      decide
    · exact absurd none not_makesFrom_nil
  · rw [mergeBytes, Option.mapM_some,
      decodeValue_toBytes_of_deep Value.storable_overnested Value.deep_overnested]
    rfl
  · exact not_refines_of_deep Value.storable_overnested Value.deep_overnested (by simp)

end Schema

end StoreFeed
