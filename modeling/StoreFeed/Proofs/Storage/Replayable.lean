import StoreFeed.Proofs.Storage.Replay

/-!
# Replaying records again

A replica that goes on from an old checkpoint applies records to contents that are ahead of them. A
put or a delete does no harm then, since a write that is older than what its key holds is ignored.
An update is merged into a value that it was not written for: that may fail, and where the value is
the update's own result, the merge may not give the same again. `Replayable` says that neither
happens.
-/

namespace StoreFeed

/-- Once some records were replayed, each update among them can be merged into what its key holds,
and makes the same again where that is its own result. -/
def Replayable (schema : Schema) (records : List ChangeRecord) : Prop :=
  ∀ n contents, replay schema (records.take n) = .ok contents →
    ∀ (o : Nat) (r : ChangeRecord) u, o < n → records[o]? = some r → r.payload = .update u →
      ∃ value, mergeBytes schema (contents.get? r.key) u = .ok value ∧
        ∀ stored, contents.find? r.key = some stored → stored.offset = o → stored.value = some value

namespace ChangeRecord.Makes

variable {schema : Schema} {r : ChangeRecord} {current value value' : Option ByteArray}

/-- A record makes one thing of a value. -/
theorem unique (h : r.Makes schema current value) (h' : r.Makes schema current value') :
    value = value' := by
  cases h with
  | put _ payload =>
    cases h' <;> simp_all
  | delete payload =>
    cases h' <;> simp_all
  | update _ _ payload merged =>
    cases h' <;> simp_all

/-- A record that is no update makes the same of every value. -/
theorem of_ne_update (h : r.Makes schema current value) (plain : ∀ u, r.payload ≠ .update u)
    (current' : Option ByteArray) : r.Makes schema current' value := by
  cases h with
  | put _ payload => exact .put _ payload
  | delete payload => exact .delete payload
  | update u _ payload => exact absurd payload (plain u)

end ChangeRecord.Makes

/-- An update that can be applied can be merged. -/
theorem ChangeRecord.merges_of_applyTo {schema : Schema} {contents contents' : Contents}
    {r : ChangeRecord} {u : PartialUpdate} (h : r.applyTo schema contents = .ok contents')
    (payload : r.payload = .update u) :
    ∃ value, mergeBytes schema (contents.get? r.key) u = .ok value := by
  rcases ChangeRecord.applyTo_cases h with ⟨m, control, _⟩ | ⟨value, makes, _⟩
  · rw [payload] at control
    cases control
  · cases makes with
    | put _ put =>
      rw [payload] at put
      cases put
    | delete delete =>
      rw [payload] at delete
      cases delete
    | update u' value update merged =>
      rw [payload] at update
      cases update
      exact ⟨value, merged⟩

variable {schema : Schema} {records : List ChangeRecord} {contents : Contents}

/-- What can be replayed can be replayed up to any earlier record. -/
theorem replay_take_of_le {n m : Nat} (h : replay schema (records.take n) = .ok contents)
    (hle : m ≤ n) : ∃ before, replay schema (records.take m) = .ok before := by
  have hsplit : records.take n = records.take m ++ (records.drop m).take (n - m) := by
    rw [← List.take_add, Nat.add_sub_cancel' hle]
  rw [hsplit, replay, List.foldlM_append] at h
  cases hm : replay schema (records.take m) with
  | ok before => exact ⟨before, rfl⟩
  | error e =>
    rw [replay] at hm
    rw [hm] at h
    cases h

/-- A replayed record either changed nothing, or wrote what it made. -/
theorem replay_succ_cases {n : Nat} {r : ChangeRecord} (hr : records[n]? = some r)
    (h : replay schema (records.take (n + 1)) = .ok contents) :
    ∃ before, replay schema (records.take n) = .ok before ∧
      ((∃ m, r.payload = .control m) ∧ contents = before ∨
        ∃ value, r.Makes schema (before.get? r.key) value ∧
          contents = before.insert r.key ⟨value, r.offset⟩) := by
  rw [replay_take_succ hr] at h
  cases hb : replay schema (records.take n) with
  | error e =>
    rw [hb] at h
    cases h
  | ok before =>
    rw [hb] at h
    refine ⟨before, rfl, ?_⟩
    rcases ChangeRecord.applyTo_cases h with ⟨m, payload, heq⟩ | made
    · exact .inl ⟨⟨m, payload⟩, heq⟩
    · exact .inr made

section Numbered

variable (numbered : Numbered records)
include numbered

/-- What a key holds was made by the record that it stems from. -/
theorem made_of_replay {n : Nat} (hn : n ≤ records.length)
    (h : replay schema (records.take n) = .ok contents) {key : ByteArray} {stored : Stored}
    (hs : contents.find? key = some stored) :
    stored.offset < n ∧ ∃ r before, records[stored.offset]? = some r ∧ r.key = key ∧
      r.Makes schema before stored.value := by
  induction n generalizing contents with
  | zero =>
    cases h
    cases hs
  | succ n ih =>
    have hr := List.getElem?_eq_getElem (Nat.lt_of_succ_le hn)
    obtain ⟨before, hbefore, ⟨_, rfl⟩ | ⟨value, makes, rfl⟩⟩ := replay_succ_cases hr h
    · obtain ⟨hlt, made⟩ := ih (Nat.le_of_succ_le hn) hbefore hs
      exact ⟨Nat.lt_succ_of_lt hlt, made⟩
    · by_cases hkey : key = records[n].key
      · subst hkey
        rw [SortedMap.find?_insert_self] at hs
        cases hs
        have hoffset : records[n].offset = n := numbered n _ hr
        refine ⟨?_, records[n], _, ?_, rfl, makes⟩
        · show records[n].offset < n + 1
          omega
        · rw [← hr]
          exact congrArg (records[·]?) hoffset
      · rw [SortedMap.find?_insert_of_ne _ hkey] at hs
        obtain ⟨hlt, made⟩ := ih (Nat.le_of_succ_le hn) hbefore hs
        exact ⟨Nat.lt_succ_of_lt hlt, made⟩

/-- The key of a record that was replayed holds nothing older. -/
theorem stored_of_replay {n : Nat} (hn : n ≤ records.length)
    (h : replay schema (records.take n) = .ok contents) {o : Nat} {r : ChangeRecord} (ho : o < n)
    (hr : records[o]? = some r) (payload : ∀ m, r.payload ≠ .control m) :
    ∃ stored, contents.find? r.key = some stored ∧ o ≤ stored.offset := by
  induction n generalizing contents with
  | zero => cases ho
  | succ n ih =>
    have hn' := List.getElem?_eq_getElem (Nat.lt_of_succ_le hn)
    have hoffset : records[n].offset = n := numbered n _ hn'
    obtain ⟨before, hbefore, cases⟩ := replay_succ_cases hn' h
    rcases Nat.lt_or_eq_of_le (Nat.le_of_lt_succ ho) with ho | rfl
    · obtain ⟨stored, hs, hle⟩ := ih (Nat.le_of_succ_le hn) hbefore ho
      rcases cases with ⟨_, rfl⟩ | ⟨value, _, rfl⟩
      · exact ⟨stored, hs, hle⟩
      · by_cases hkey : r.key = records[n].key
        · rw [hkey, SortedMap.find?_insert_self]
          exact ⟨_, rfl, by rw [hoffset]; exact Nat.le_of_lt ho⟩
        · rw [SortedMap.find?_insert_of_ne _ hkey]
          exact ⟨stored, hs, hle⟩
    · cases hn'.symm.trans hr
      rcases cases with ⟨⟨m, control⟩, _⟩ | ⟨value, _, rfl⟩
      · exact absurd control (payload m)
      · rw [SortedMap.find?_insert_self]
        exact ⟨_, rfl, Nat.le_of_eq hoffset.symm⟩

/-- A record that is applied again to contents that are ahead of it changes nothing. -/
theorem Replayable.write_again (again : Replayable schema records) {n : Nat}
    (hn : n ≤ records.length) {d : ReplicaData}
    (h : replay schema (records.take n) = .ok d.values) {o : Nat} {r : ChangeRecord} (ho : o < n)
    (hr : records[o]? = some r) {value : Option ByteArray}
    (makes : r.Makes schema (Contents.get? d.values r.key) value) :
    (d.write r.key ⟨value, o⟩).values = d.values := by
  have payload : ∀ m, r.payload ≠ .control m := by
    intro m control
    cases makes <;> simp_all
  obtain ⟨stored, hs, hle⟩ := stored_of_replay numbered hn h ho hr payload
  unfold ReplicaData.write
  simp only [hs]
  rcases Nat.lt_or_eq_of_le hle with hlt | heq
  · rw [if_pos hlt]
  · -- What the key holds stems from the record itself.
    obtain ⟨_, r', before, hr', _, made⟩ := made_of_replay numbered hn h hs
    rw [← heq, hr] at hr'
    cases hr'
    have same : value = stored.value := by
      by_cases plain : ∀ u, r.payload ≠ .update u
      · exact makes.unique (made.of_ne_update plain _)
      · obtain ⟨u, hu⟩ : ∃ u, r.payload = .update u := by
          cases hp : r.payload <;> simp_all
        obtain ⟨value', merged, hvalue⟩ := again n d.values h o r u ho hr hu
        rw [hvalue stored hs heq.symm]
        exact makes.unique (.update u value' hu merged)
    have hstored : (⟨value, o⟩ : Stored) = stored := by rw [same, heq]
    rw [if_neg (by rw [heq]; exact Nat.lt_irrefl _), hstored]
    refine SortedMap.ext fun key => ?_
    by_cases hkey : key = r.key
    · rw [hkey, SortedMap.find?_insert_self, hs]
    · rw [SortedMap.find?_insert_of_ne _ hkey]

end Numbered

/-- Records that can be replayed again can be so up to any of them. -/
theorem Replayable.of_prefix {records' : List ChangeRecord} (h : Replayable schema records')
    (hp : records <+: records') : Replayable schema records := by
  intro n contents hc o r u ho hr hu
  have hlt := (List.getElem?_eq_some_iff.mp hr).1
  obtain ⟨more, rfl⟩ := hp
  refine h (min n records.length) contents ?_ o r u (by omega) ?_ hu
  · rw [List.take_append_of_le_length (Nat.min_le_right _ _), ← List.take_eq_take_min]
    exact hc
  · rw [List.getElem?_append_left hlt]
    exact hr

end StoreFeed
