import StoreFeed.Log

/-!
# Reading a log

A log only grows, and every record in it is written under its index. So what a poll brought stays
where it was read, whatever is appended meanwhile: `Log.Gives` says that the records of a partition
from an offset on begin with some given ones, and it is kept when the log is extended.
-/

namespace StoreFeed

/-- Every record is written under its index. -/
def Numbered (records : List ChangeRecord) : Prop :=
  ∀ (i : Nat) (r : ChangeRecord), records[i]? = some r → r.offset = i

theorem Numbered.take {records : List ChangeRecord} (h : Numbered records) (n : Nat) :
    Numbered (records.take n) := by
  intro i r hr
  rw [List.getElem?_take] at hr
  split at hr
  · exact h i r hr
  · cases hr

namespace Log

/-- In every partition the records are written under their indices. -/
def Indexed (log : Log) : Prop := ∀ tp, Numbered (log.records tp)

/-- Nothing that was in a log is gone or changed. -/
def Extends (log log' : Log) : Prop := ∀ tp, log.records tp <+: log'.records tp

/-- The records of a partition from an offset on begin with the given ones. -/
def Gives (log : Log) (tp : TopicPartition) (offset : Nat) (records : List ChangeRecord) : Prop :=
  records <+: (log.records tp).drop offset

theorem indexed_empty : empty.Indexed := by
  intro tp i r h
  simp [records, empty, SortedMap.findD] at h

theorem Indexed.append {log : Log} (h : log.Indexed) (tp : TopicPartition) (r : ChangeRecord) :
    (log.append tp r).2.Indexed := by
  intro tp' i r' hr
  by_cases htp : tp' = tp
  · subst htp
    rw [records_append_self] at hr
    rcases Nat.lt_trichotomy i (log.records tp').length with hi | hi | hi
    · rw [List.getElem?_append_left hi] at hr
      exact h tp' i r' hr
    · subst hi
      simp at hr
      rw [← hr]
    · rw [List.getElem?_eq_none (by simp; omega)] at hr
      cases hr
  · rw [records_append_of_ne log htp] at hr
    exact h tp' i r' hr

namespace Extends

theorem refl (log : Log) : log.Extends log := fun _ => List.prefix_rfl

theorem trans {log₁ log₂ log₃ : Log} (h₁ : log₁.Extends log₂) (h₂ : log₂.Extends log₃) :
    log₁.Extends log₃ := fun tp => (h₁ tp).trans (h₂ tp)

theorem append (log : Log) (tp : TopicPartition) (r : ChangeRecord) :
    log.Extends (log.append tp r).2 := by
  intro tp'
  by_cases htp : tp' = tp
  · subst htp
    rw [records_append_self]
    exact List.prefix_append _ _
  · exact ⟨[], by rw [records_append_of_ne log htp, List.append_nil]⟩

variable {log log' : Log} (h : log.Extends log')
include h

theorem length_le (tp : TopicPartition) :
    (log.records tp).length ≤ (log'.records tp).length := (h tp).length_le

theorem getElem? {tp : TopicPartition} {i : Nat} {r : ChangeRecord}
    (hr : (log.records tp)[i]? = some r) : (log'.records tp)[i]? = some r := by
  obtain ⟨more, hm⟩ := h tp
  have hi : i < (log.records tp).length := (List.getElem?_eq_some_iff.mp hr).1
  rw [← hm, List.getElem?_append_left hi]
  exact hr

/-- What is read below the end stays what it is. -/
theorem getElem?_of_lt {tp : TopicPartition} {i : Nat} (hi : i < (log.records tp).length) :
    (log'.records tp)[i]? = (log.records tp)[i]? := by
  rw [List.getElem?_eq_getElem hi]
  exact h.getElem? (List.getElem?_eq_getElem hi)

/-- A beginning stays what it is. -/
theorem take {tp : TopicPartition} {n : Nat} (hn : n ≤ (log.records tp).length) :
    (log'.records tp).take n = (log.records tp).take n := by
  obtain ⟨more, hm⟩ := h tp
  rw [← hm, List.take_append_of_le_length hn]

/-- A partition that did not grow is as it was. -/
theorem records_eq {tp : TopicPartition}
    (hlength : (log'.records tp).length = (log.records tp).length) :
    log'.records tp = log.records tp :=
  ((h tp).eq_of_length hlength.symm).symm

theorem gives {tp : TopicPartition} {offset : Nat} {records : List ChangeRecord}
    (hg : log.Gives tp offset records) : log'.Gives tp offset records := by
  obtain ⟨more, hm⟩ := h tp
  unfold Gives at hg ⊢
  rw [← hm, List.drop_append]
  exact hg.trans (List.prefix_append _ _)

end Extends

theorem gives_nil (log : Log) (tp : TopicPartition) (offset : Nat) : log.Gives tp offset [] :=
  List.nil_prefix

theorem gives_cons {log : Log} {tp : TopicPartition} {offset : Nat} {r : ChangeRecord}
    {rest : List ChangeRecord} :
    log.Gives tp offset (r :: rest) ↔
      (log.records tp)[offset]? = some r ∧ log.Gives tp (offset + 1) rest := by
  unfold Gives
  by_cases h : offset < (log.records tp).length
  · rw [List.drop_eq_getElem_cons h, List.cons_prefix_cons, List.getElem?_eq_getElem h]
    constructor
    · rintro ⟨rfl, hr⟩
      exact ⟨rfl, hr⟩
    · rintro ⟨hr, hrest⟩
      exact ⟨(Option.some.inj hr).symm, hrest⟩
  · rw [List.drop_eq_nil_of_le (by omega), List.getElem?_eq_none (by omega)]
    simp

/-- Given records come from the offset on. -/
theorem Gives.le_offset {log : Log} (hi : log.Indexed) {tp : TopicPartition} {offset : Nat}
    {records : List ChangeRecord} (h : log.Gives tp offset records) {r : ChangeRecord}
    (hr : r ∈ records) : offset ≤ r.offset := by
  obtain ⟨i, hi', rfl⟩ := List.mem_iff_getElem.mp hr
  have hget : (log.records tp)[offset + i]? = some records[i] := by
    rw [← List.getElem?_drop]
    exact List.prefix_iff_getElem?.mp h i hi'
  rw [hi tp _ _ hget]
  exact Nat.le_add_right _ _

end Log

/-- The records of a batch that come from one partition. -/
def recordsOf (tp : TopicPartition) (batch : List (TopicPartition × ChangeRecord)) :
    List ChangeRecord :=
  (batch.filter fun e => e.1 = tp).map (·.2)

@[simp]
theorem recordsOf_nil (tp : TopicPartition) : recordsOf tp [] = [] := rfl

theorem recordsOf_cons_self (tp : TopicPartition) (r : ChangeRecord)
    (batch : List (TopicPartition × ChangeRecord)) :
    recordsOf tp ((tp, r) :: batch) = r :: recordsOf tp batch := by
  simp [recordsOf]

theorem recordsOf_cons_of_ne {tp tp' : TopicPartition} (h : tp' ≠ tp) (r : ChangeRecord)
    (batch : List (TopicPartition × ChangeRecord)) :
    recordsOf tp ((tp', r) :: batch) = recordsOf tp batch := by
  simp [recordsOf, h]

theorem recordsOf_append (tp : TopicPartition) (b b' : List (TopicPartition × ChangeRecord)) :
    recordsOf tp (b ++ b') = recordsOf tp b ++ recordsOf tp b' := by
  simp [recordsOf]

theorem mem_recordsOf {tp : TopicPartition} {r : ChangeRecord}
    {batch : List (TopicPartition × ChangeRecord)} : r ∈ recordsOf tp batch ↔ (tp, r) ∈ batch := by
  simp [recordsOf]

namespace Consumer

/-- All that some partitions give. -/
def batchOf (given : Entries TopicPartition (List ChangeRecord)) :
    List (TopicPartition × ChangeRecord) :=
  given.flatMap fun (tp, records) => records.map fun r => (tp, r)

theorem recordsOf_batchOf_cons (tp tp' : TopicPartition) (records : List ChangeRecord)
    (given : Entries TopicPartition (List ChangeRecord)) :
    recordsOf tp (batchOf ((tp', records) :: given)) =
      if tp' = tp then records ++ recordsOf tp (batchOf given)
      else recordsOf tp (batchOf given) := by
  have hhead : recordsOf tp (records.map fun r => (tp', r)) = if tp' = tp then records else [] := by
    unfold recordsOf
    rw [List.filter_map, List.map_map]
    by_cases h : tp' = tp <;> simp [h, Function.comp_def]
  rw [batchOf, List.flatMap_cons, recordsOf_append, hhead]
  split <;> rfl

theorem recordsOf_shares_of_none {log : Log} {tp : TopicPartition}
    {positions : Entries TopicPartition Nat} (h : positions.find? tp = none) (limit : Nat) :
    recordsOf tp (batchOf (shares log limit positions)) = [] := by
  induction positions generalizing limit with
  | nil => rfl
  | cons e rest ih =>
    obtain ⟨tp', position⟩ := e
    rw [Entries.find?_cons] at h
    split at h
    · cases h
    · rename_i hne
      have hne : tp' ≠ tp := fun h => hne (Entries.compare_eq_iff.2 h.symm)
      rw [shares, recordsOf_batchOf_cons, if_neg hne]
      exact ih h _

/-- A partition gives to a poll what it has from its position on. -/
theorem recordsOf_shares (log : Log) {tp : TopicPartition} {positions : Entries TopicPartition Nat}
    (sorted : positions.Sorted) {position : Nat} (h : positions.find? tp = some position)
    (limit : Nat) :
    log.Gives tp position (recordsOf tp (batchOf (shares log limit positions))) ∧
      (shares log limit positions).find? tp =
        some (recordsOf tp (batchOf (shares log limit positions))) := by
  induction positions generalizing limit with
  | nil => cases h
  | cons e rest ih =>
    obtain ⟨tp', position'⟩ := e
    have hs := List.pairwise_cons.1 sorted
    rw [Entries.find?_cons] at h
    rw [shares, recordsOf_batchOf_cons]
    split at h
    · rename_i heq
      have heq : tp = tp' := Entries.compare_eq_iff.1 heq
      subst heq
      cases h
      have hnone : Entries.find? tp rest = none := Entries.find?_eq_none_of_lt fun e he => hs.1 e he
      rw [recordsOf_shares_of_none hnone, if_pos rfl, List.append_nil]
      exact ⟨List.take_prefix _ _, by simp [Entries.find?_cons]⟩
    · rename_i hne
      have hne' : tp' ≠ tp := fun h => hne (Entries.compare_eq_iff.2 h.symm)
      rw [if_neg hne', Entries.find?_cons, if_neg hne]
      exact ih hs.2 h _

variable {c c' : Consumer} {log : Log} {limit : Nat} {batch : List (TopicPartition × ChangeRecord)}

/-- A poll brings what a partition has from its position on, and moves the position behind it. -/
theorem poll_of_some (h : c.poll log limit = .ok (batch, c')) {tp : TopicPartition} {position : Nat}
    (hp : c.positions.find? tp = some position) :
    log.Gives tp position (recordsOf tp batch) ∧
      c'.positions.find? tp = some (position + (recordsOf tp batch).length) := by
  obtain ⟨gives, given⟩ := recordsOf_shares log c.positions.sorted hp limit
  unfold poll Log.checkAvailable at h
  split at h
  · cases h
    refine ⟨gives, ?_⟩
    rw [SortedMap.find?_map, hp, given]
    rfl
  · cases h

/-- A poll brings nothing of a partition that is not subscribed. -/
theorem poll_of_none (h : c.poll log limit = .ok (batch, c')) {tp : TopicPartition}
    (hp : c.positions.find? tp = none) :
    recordsOf tp batch = [] ∧ c'.positions.find? tp = none := by
  unfold poll Log.checkAvailable at h
  split at h
  · cases h
    refine ⟨recordsOf_shares_of_none hp limit, ?_⟩
    rw [SortedMap.find?_map, hp]
    rfl
  · cases h

/-- A poll of one partition brings its next records. -/
theorem poll_alone (available : log.available) (tp : TopicPartition) (position limit : Nat) :
    ∃ batch c', (⟨SortedMap.empty.insert tp position⟩ : Consumer).poll log limit = .ok (batch, c') ∧
      c'.positions.find? tp =
        some (position + (((log.records tp).drop position).take limit).length) := by
  have polled : ∃ c', (⟨SortedMap.empty.insert tp position⟩ : Consumer).poll log limit =
      .ok (batchOf (shares log limit [(tp, position)]), c') :=
    ⟨_, by unfold poll Log.checkAvailable; rw [if_pos available]; rfl⟩
  obtain ⟨c', polled⟩ := polled
  have given : recordsOf tp (batchOf (shares log limit [(tp, position)])) =
      ((log.records tp).drop position).take limit := by
    rw [shares, shares, recordsOf_batchOf_cons, if_pos rfl]
    exact List.append_nil _
  refine ⟨_, c', polled, ?_⟩
  rw [(poll_of_some polled (SortedMap.find?_insert_self _ _ _)).2, given]

end Consumer

end StoreFeed
