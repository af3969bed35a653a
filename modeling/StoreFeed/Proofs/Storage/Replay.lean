import StoreFeed.Proofs.Log
import StoreFeed.Storage
import StoreFeed.Update.Merge

/-!
# Replaying records

`replay` is what the contents of a store have to be: the records of a partition, applied in order to
an empty store. A record that is newer than everything a store holds is applied by one write,
whatever role it is written in; all that a write needs for this is the value that the record makes
of its key (`ChangeRecord.Makes`).
-/

namespace StoreFeed

/-- Per key a value or a tombstone, with the offset it stems from. -/
abbrev Contents := SortedMap ByteArray Stored

/-- The value of a key; a tombstone reads as nothing. -/
def Contents.get? (c : Contents) (key : ByteArray) : Option ByteArray :=
  (c.find? key).bind (·.value)

namespace ChangeRecord

/-- What a record makes of the current value of its key; nothing for a control record. -/
inductive Makes (schema : Schema) (r : ChangeRecord) (current : Option ByteArray) :
    Option ByteArray → Prop where
  | put (value : ByteArray) (payload : r.payload = .put value) : Makes schema r current (some value)
  | delete (payload : r.payload = .delete) : Makes schema r current none
  | update (u : PartialUpdate) (value : ByteArray) (payload : r.payload = .update u)
      (merged : mergeBytes schema current u = .ok value) : Makes schema r current (some value)

/-- Apply a record to the contents of a store. -/
def applyTo (schema : Schema) (contents : Contents) (r : ChangeRecord) :
    Except DataError Contents :=
  match r.payload with
  | .put value => .ok (contents.insert r.key ⟨some value, r.offset⟩)
  | .delete => .ok (contents.insert r.key ⟨none, r.offset⟩)
  | .update u => do
    let value ← mergeBytes schema (contents.get? r.key) u
    return contents.insert r.key ⟨some value, r.offset⟩
  | .control _ => .ok contents

theorem Makes.applyTo {schema : Schema} {contents : Contents} {r : ChangeRecord}
    {value : Option ByteArray} (h : r.Makes schema (contents.get? r.key) value) :
    r.applyTo schema contents = .ok (contents.insert r.key ⟨value, r.offset⟩) := by
  unfold ChangeRecord.applyTo
  cases h with
  | put _ payload => rw [payload]
  | delete payload => rw [payload]
  | update u _ payload merged =>
    rw [payload]
    simp only [merged]
    rfl

theorem applyTo_of_control {schema : Schema} {contents : Contents} {r : ChangeRecord}
    {m : ControlMessage} (h : r.payload = .control m) :
    r.applyTo schema contents = .ok contents := by
  unfold applyTo
  rw [h]

/-- A record that can be applied is a control record, or writes what it makes of its key. -/
theorem applyTo_cases {schema : Schema} {contents contents' : Contents} {r : ChangeRecord}
    (h : r.applyTo schema contents = .ok contents') :
    (∃ m, r.payload = .control m ∧ contents' = contents) ∨
      ∃ value, r.Makes schema (contents.get? r.key) value ∧
        contents' = contents.insert r.key ⟨value, r.offset⟩ := by
  unfold applyTo at h
  split at h
  · rename_i value payload
    cases h
    exact .inr ⟨_, .put value payload, rfl⟩
  · rename_i payload
    cases h
    exact .inr ⟨_, .delete payload, rfl⟩
  · rename_i u payload
    cases hm : mergeBytes schema (contents.get? r.key) u with
    | error e =>
      rw [hm] at h
      cases h
    | ok value =>
      rw [hm] at h
      cases h
      exact .inr ⟨_, .update u value payload hm, rfl⟩
  · rename_i m payload
    cases h
    exact .inl ⟨m, payload, rfl⟩

end ChangeRecord

/-- Apply records in order to an empty store. -/
def replay (schema : Schema) (records : List ChangeRecord) : Except DataError Contents :=
  records.foldlM (ChangeRecord.applyTo schema) SortedMap.empty

section Laws

variable {schema : Schema} {records : List ChangeRecord} {contents : Contents}

/-- One more record is applied to what the ones before it left. -/
theorem replay_take_succ {n : Nat} {r : ChangeRecord} (hr : records[n]? = some r) :
    replay schema (records.take (n + 1)) =
      replay schema (records.take n) >>= fun contents => r.applyTo schema contents := by
  rw [List.take_add_one, hr]
  simp [replay, List.foldlM_append]

/-- What is stored after records were replayed stems from one of them. -/
theorem offset_lt_of_replay (h : replay schema records = .ok contents)
    (numbered : Numbered records) {key : ByteArray}
    {stored : Stored} (hs : contents.find? key = some stored) : stored.offset < records.length := by
  suffices ∀ n ≤ records.length, ∀ contents, replay schema (records.take n) = .ok contents →
      ∀ stored, contents.find? key = some stored → stored.offset < n by
    refine this records.length (Nat.le_refl _) contents ?_ stored hs
    rw [List.take_length]
    exact h
  intro n
  induction n with
  | zero =>
    intro _ contents hc stored hs
    cases hc
    cases hs
  | succ n ih =>
    intro hn contents hc stored hs
    have hlt : n < records.length := hn
    have hr := List.getElem?_eq_getElem hlt
    rw [replay_take_succ hr] at hc
    cases hbefore : replay schema (records.take n) with
    | error e =>
      rw [hbefore] at hc
      cases hc
    | ok before =>
      rw [hbefore] at hc
      have old := ih (Nat.le_of_lt hlt) before hbefore
      rcases ChangeRecord.applyTo_cases hc with ⟨_, _, rfl⟩ | ⟨value, _, rfl⟩
      · exact Nat.lt_succ_of_lt (old stored hs)
      · by_cases hkey : key = records[n].key
        · subst hkey
          rw [SortedMap.find?_insert_self] at hs
          cases hs
          rw [show (records[n]).offset = n from numbered n _ hr]
          exact Nat.lt_succ_self n
        · rw [SortedMap.find?_insert_of_ne _ hkey] at hs
          exact Nat.lt_succ_of_lt (old stored hs)

end Laws

/-- A write that is newer than everything stored takes effect. -/
theorem ReplicaData.values_write {d : ReplicaData} {key : ByteArray} {stored : Stored}
    (h : ∀ existing, d.values.find? key = some existing → existing.offset ≤ stored.offset) :
    (d.write key stored).values = d.values.insert key stored := by
  unfold ReplicaData.write
  split
  · rename_i existing hfind
    rw [if_neg (Nat.not_lt.mpr (h existing hfind))]
  · rfl

end StoreFeed
