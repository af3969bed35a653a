import StoreFeed.Json.Decoder
import StoreFeed.Proofs.SortedMap

/-!
# Laws of JSON values

Equality of values is an equivalence. Equal objects answer every look-up with equal values, and
equal lists have whatever relation between their items respects equality. What is inside a value in
key order is in key order, and every value that is read from a text is (`Decoder.ordered_value`).
-/

namespace StoreFeed

namespace Binary64

theorem mantissa_of_bits {x y : Binary64} (h : x.bits = y.bits) : x.mantissa = y.mantissa := by
  cases x
  cases y
  cases h
  rfl

theorem same_trans {x y z : Binary64} (h : x.same y = true) (h' : y.same z = true) :
    x.same z = true := by
  simp only [same, Bool.or_eq_true, Bool.and_eq_true, beq_iff_eq] at h h' ⊢
  rcases h with bits | ⟨zero, _⟩
  · rw [bits, mantissa_of_bits bits]
    exact h'
  · rcases h' with bits' | ⟨_, zero'⟩
    · rw [← bits', ← mantissa_of_bits bits']
      exact .inr ⟨zero, by assumption⟩
    · exact .inr ⟨zero, zero'⟩

end Binary64

namespace Json.Value

/-! ## Equality -/

mutual

theorem same_comm (a b : Value) : a.same b = b.same a := by
  cases a <;> cases b <;> try rfl
  case bool.bool x y => simpa only [same] using BEq.comm
  case int.int x y => simpa only [same] using BEq.comm
  case float.float x y => simpa only [same] using x.same_comm y
  case str.str x y => simpa only [same] using BEq.comm
  case arr.arr x y => simpa only [same] using sameItems_comm x y
  case obj.obj x y => simpa only [same] using sameMembers_comm x y

theorem sameItems_comm (as bs : List Value) : sameItems as bs = sameItems bs as := by
  cases as <;> cases bs <;> try rfl
  case cons.cons a as b bs => simp only [sameItems, same_comm a b, sameItems_comm as bs]

theorem sameMembers_comm (as bs : List (String × Value)) :
    sameMembers as bs = sameMembers bs as := by
  cases as <;> cases bs <;> try rfl
  case cons.cons a as b bs =>
    simp only [sameMembers, BEq.comm (a := a.1), same_comm a.2 b.2, sameMembers_comm as bs]

end

mutual

theorem same_trans {a b c : Value} (h : a.same b = true) (h' : b.same c = true) :
    a.same c = true := by
  cases a <;> cases b <;> try cases h
  case null.null => exact h'
  all_goals cases c <;> try cases h'
  case bool.bool.bool x y z => simp_all [same]
  case int.int.int x y z => simp_all [same]
  case float.float.float x y z =>
    simp only [same] at h h' ⊢
    exact Binary64.same_trans h h'
  case str.str.str x y z => simp_all [same]
  case arr.arr.arr x y z =>
    simp only [same] at h h' ⊢
    exact sameItems_trans h h'
  case obj.obj.obj x y z =>
    simp only [same] at h h' ⊢
    exact sameMembers_trans h h'
termination_by structural a

theorem sameItems_trans {as bs cs : List Value} (h : sameItems as bs = true)
    (h' : sameItems bs cs = true) : sameItems as cs = true := by
  cases as <;> cases bs <;> try cases h
  case nil.nil => exact h'
  all_goals cases cs <;> try cases h'
  case cons.cons.cons a as b bs c cs =>
    simp only [sameItems, Bool.and_eq_true] at h h' ⊢
    exact ⟨same_trans h.1 h'.1, sameItems_trans h.2 h'.2⟩
termination_by structural as

theorem sameMembers_trans {as bs cs : List (String × Value)} (h : sameMembers as bs = true)
    (h' : sameMembers bs cs = true) : sameMembers as cs = true := by
  cases as <;> cases bs <;> try cases h
  case nil.nil => exact h'
  all_goals cases cs <;> try cases h'
  case cons.cons.cons a as b bs c cs =>
    obtain ⟨k, x⟩ := a
    simp only [sameMembers, Bool.and_eq_true, beq_iff_eq] at h h' ⊢
    exact ⟨⟨h.1.1.trans h'.1.1, same_trans h.1.2 h'.1.2⟩, sameMembers_trans h.2 h'.2⟩
termination_by structural as

end

instance : EquivBEq Value where
  symm {a b} h := (same_comm b a).trans h
  trans := same_trans

/-- Of equal lists each item of one is equal to an item of the other. -/
theorem mem_of_sameItems {as bs : List Value} (h : sameItems as bs = true)
    {b : Value} (hb : b ∈ bs) :
    ∃ a ∈ as, a.same b = true := by
  induction as generalizing bs with
  | nil =>
    cases bs <;> cases h
    cases hb
  | cons a as ih =>
    cases bs with
    | nil => cases h
    | cons b' bs =>
      simp only [sameItems, Bool.and_eq_true] at h
      rcases List.mem_cons.mp hb with rfl | hb
      · exact ⟨a, List.mem_cons_self, h.1⟩
      · obtain ⟨a', ha', same⟩ := ih h.2 hb
        exact ⟨a', List.mem_cons_of_mem _ ha', same⟩

/-- What respects equality holds within equal lists alike. -/
theorem pairwise_of_sameItems {R : Value → Value → Prop}
    (respects : ∀ a a' b b', a.same a' = true → b.same b' = true → R a b → R a' b')
    {as bs : List Value} (h : sameItems as bs = true) (pairwise : as.Pairwise R) :
    bs.Pairwise R := by
  induction as generalizing bs with
  | nil =>
    cases bs <;> cases h
    exact List.Pairwise.nil
  | cons a as ih =>
    cases bs with
    | nil => cases h
    | cons b bs =>
      obtain ⟨first, rest⟩ := List.pairwise_cons.mp pairwise
      simp only [sameItems, Bool.and_eq_true] at h
      refine List.pairwise_cons.mpr ⟨fun b' hb' => ?_, ih h.2 rest⟩
      obtain ⟨a', ha', same⟩ := mem_of_sameItems h.2 hb'
      exact respects a b a' b' h.1 same (first a' ha')

/-- Equal objects answer a look-up with equal values. -/
theorem find?_of_sameMembers {as bs : List (String × Value)} (h : sameMembers as bs = true)
    {key : String} {a : Value} (ha : Entries.find? key as = some a) :
    ∃ b, Entries.find? key bs = some b ∧ a.same b = true := by
  induction as generalizing bs with
  | nil => cases ha
  | cons e as ih =>
    cases bs with
    | nil => cases h
    | cons e' bs =>
      obtain ⟨k, x⟩ := e
      obtain ⟨k', y⟩ := e'
      simp only [sameMembers, Bool.and_eq_true, beq_iff_eq] at h
      obtain ⟨⟨rfl, same⟩, rest⟩ := h
      rw [Entries.find?_cons] at ha ⊢
      split at ha
      · rename_i here
        cases ha
        exact ⟨y, by rw [if_pos here], same⟩
      · rename_i there
        rw [if_neg there]
        exact ih rest ha

/-- Objects in key order with the same keys are equal if what the keys find is. -/
theorem sameMembers_of_find? {as bs : List (String × Value)} (sorted : Entries.Sorted as)
    (sorted' : Entries.Sorted bs)
    (known : ∀ key, (Entries.find? key as).isSome = (Entries.find? key bs).isSome)
    (same : ∀ key a b, Entries.find? key as = some a → Entries.find? key bs = some b →
      a.same b = true) :
    sameMembers as bs = true := by
  -- Both have the same keys, so they can be compared member by member.
  have keys : as.map (fun e => (e.1, ())) = bs.map (fun e => (e.1, ())) := by
    refine Entries.ext_of_sorted (sorted.map fun _ _ => ()) (sorted'.map fun _ _ => ())
      fun key => ?_
    rw [Entries.find?_map (fun _ _ => ()), Entries.find?_map (fun _ _ => ())]
    have both := known key
    revert both
    cases Entries.find? key as <;> cases Entries.find? key bs <;> simp
  induction as generalizing bs with
  | nil =>
    cases bs with
    | nil => rfl
    | cons e bs => cases keys
  | cons e as ih =>
    cases bs with
    | nil => cases keys
    | cons e' bs =>
      obtain ⟨k, a⟩ := e
      obtain ⟨k', b⟩ := e'
      simp only [List.map_cons, List.cons.injEq, Prod.mk.injEq, and_true] at keys
      obtain ⟨rfl, keys⟩ := keys
      obtain ⟨above, sorted⟩ := List.pairwise_cons.mp sorted
      obtain ⟨above', sorted'⟩ := List.pairwise_cons.mp sorted'
      have first : a.same b = true := same k a b (by simp [Entries.find?_cons])
        (by simp [Entries.find?_cons])
      have rest : sameMembers as bs = true := by
        refine ih sorted sorted' (fun key => ?_) (fun key a' b' found found' => ?_) keys
        · by_cases here : key = k
          · subst here
            rw [Entries.find?_eq_none_of_lt above, Entries.find?_eq_none_of_lt above']
          · simpa [Entries.find?_cons, here] using known key
        · have other : key ≠ k := by
            rintro rfl
            cases (Entries.find?_eq_none_of_lt above).symm.trans found
          exact same key a' b' (by simpa [Entries.find?_cons, other] using found)
            (by simpa [Entries.find?_cons, other] using found')
      simp [sameMembers, first, rest]

/-! ## Order -/

theorem orderedItems_iff {items : List Value} : OrderedItems items ↔ ∀ a ∈ items, a.Ordered := by
  induction items with
  | nil => simp [OrderedItems]
  | cons a items ih => simp [OrderedItems, ih]

theorem orderedMembers_iff {members : List (String × Value)} :
    OrderedMembers members ↔ ∀ e ∈ members, e.2.Ordered := by
  induction members with
  | nil => simp [OrderedMembers]
  | cons e members ih =>
    obtain ⟨k, a⟩ := e
    simp [OrderedMembers, ih]

/-- An object is in key order if its keys are, and so is whatever a key finds. -/
theorem ordered_obj_iff {members : Entries String Value} : (obj members).Ordered ↔
    Entries.Sorted members ∧ ∀ k a, members.find? k = some a → a.Ordered := by
  rw [Ordered, orderedMembers_iff]
  refine and_congr_right fun sorted =>
    ⟨fun h k a ha => h _ (Entries.mem_of_find? ha), fun h e he => ?_⟩
  exact h e.1 e.2 (SortedMap.find?_of_mem (m := ⟨members, sorted⟩) he)

/-- What an object holds under a key. -/
def member? (v : Value) (key : String) : Option Value :=
  match v with
  | .obj members => Entries.find? key members
  | _ => none

theorem Ordered.member? {v a : Value} {key : String} (h : v.Ordered) (ha : v.member? key = some a) :
    a.Ordered := by
  unfold Value.member? at ha
  split at ha
  · exact (ordered_obj_iff.mp h).2 key a ha
  · cases ha

theorem ordered_object {members : List (String × Value)} (h : OrderedMembers members) :
    (object members).Ordered := by
  rw [orderedMembers_iff] at h
  exact ⟨Entries.sorted_ofList members, orderedMembers_iff.mpr fun e he =>
    h e (Entries.mem_ofList he)⟩

/-! ## Depth -/

theorem depthItems_le {items : List Value} {n : Nat} (h : ∀ a ∈ items, a.depth ≤ n) :
    depthItems items ≤ n := by
  induction items with
  | nil => exact Nat.zero_le n
  | cons a items ih =>
    exact Nat.max_le.mpr ⟨h a List.mem_cons_self, ih fun b hb => h b (List.mem_cons_of_mem a hb)⟩

end Json.Value

namespace Json.Decoder

open Value

mutual

/-- Whatever is read is in key order. -/
theorem ordered_value {depth : Nat} {t : Tree} {v : Value} (h : value depth t = some v) :
    v.Ordered := by
  cases t with
  | null =>
    cases h
    trivial
  | bool b =>
    cases h
    trivial
  | number literal =>
    change numberOf? literal = some v at h
    unfold numberOf? at h
    split at h
    · cases h
      trivial
    · obtain ⟨x, -, h⟩ := Option.bind_eq_some_iff.mp h
      obtain ⟨y, -, h⟩ := Option.bind_eq_some_iff.mp h
      cases h
      trivial
  | string ps =>
    obtain ⟨text, -, rfl⟩ := Option.map_eq_some_iff.mp h
    trivial
  | array items =>
    cases depth with
    | zero => cases h
    | succ depth =>
      obtain ⟨vs, read, rfl⟩ := Option.map_eq_some_iff.mp h
      exact ordered_valueItems read
  | object members =>
    cases depth with
    | zero => cases h
    | succ depth =>
      obtain ⟨vs, read, rfl⟩ := Option.map_eq_some_iff.mp h
      exact ordered_object (ordered_valueMembers read)

theorem ordered_valueItems {depth : Nat} {ts : List Tree} {vs : List Value}
    (h : valueItems depth ts = some vs) : OrderedItems vs := by
  cases ts with
  | nil =>
    cases h
    trivial
  | cons t ts =>
    rw [valueItems] at h
    obtain ⟨v, first, h⟩ := Option.bind_eq_some_iff.mp h
    obtain ⟨vs, rest, h⟩ := Option.bind_eq_some_iff.mp h
    cases h
    exact ⟨ordered_value first, ordered_valueItems rest⟩

theorem ordered_valueMembers {depth : Nat} {ts : List (List Text.Piece × Tree)}
    {vs : List (String × Value)} (h : valueMembers depth ts = some vs) : OrderedMembers vs := by
  cases ts with
  | nil =>
    cases h
    trivial
  | cons t ts =>
    rw [valueMembers] at h
    obtain ⟨k, -, h⟩ := Option.bind_eq_some_iff.mp h
    obtain ⟨v, first, h⟩ := Option.bind_eq_some_iff.mp h
    obtain ⟨vs, rest, h⟩ := Option.bind_eq_some_iff.mp h
    cases h
    exact ⟨ordered_value first, ordered_valueMembers rest⟩

end

end Json.Decoder

end StoreFeed
