import Mathlib.Data.Set.Card
import StoreFeed.Proofs.SortedMap
import StoreFeed.Storage

/-!
# Writing in any order

Of the writes of a key the one with the highest offset stays. Each write compares its own offset
with the one that is kept, so what was written before shows in the kept write alone, and one step
keeps the invariant `Holds`: a key holds a latest one of the writes performed so far, and nothing
only where there is none. Where writes of one key and offset agree on the value there is but one
latest write, and the order, repetitions and failed attempts leave no trace.
-/

namespace StoreFeed

namespace SortedMap

variable {κ α : Type} [Ord κ] [Std.TransOrd κ] [Std.LawfulEqOrd κ] [DecidableEq κ]

/-- To count the values that satisfy `p` is to count their keys. -/
theorem length_filter_values (m : SortedMap κ α) (p : α → Bool) :
    (m.values.filter p).length = {k | ∃ v, m.find? k = some v ∧ p v}.ncard := by
  let keys := (m.entries.filter fun e => p e.2).map (·.1)
  have distinct : keys.Nodup := m.nodup_keys.sublist (List.filter_sublist.map _)
  have members : {k | ∃ v, m.find? k = some v ∧ p v} = (keys.toFinset : Set κ) := by
    ext k
    simp [keys, mem_entries]
  rw [members, Set.ncard_coe_finset, List.toFinset_card_of_nodup distinct, values, List.filter_map,
    List.length_map, List.length_map]
  rfl

end SortedMap

namespace Storage

/-- A put, or a delete, which writes a tombstone. -/
structure Write where
  replica : ReplicaId
  key : ByteArray
  stored : Stored

/-- What happens to storage. -/
inductive Call where
  | write (w : Write)
  | failWrites (offset times : Nat)
  | commit (r : ReplicaId) (checkpoint : Checkpoint)

/-- Carry out a call. -/
def answer (s : Storage) : Call → Except IngestionError Unit × Storage
  | .write w => s.write w.replica w.key w.stored
  | .failWrites offset times => (.ok (), s.failWrites offset times)
  | .commit r checkpoint => (.ok (), s.commit r checkpoint)

/-- Carry out calls in order. -/
def after (s : Storage) (calls : List Call) : Storage :=
  calls.foldl (fun s call => (s.answer call).2) s

/-- The write that a call performs; a failed one performs none. -/
def performs? (s : Storage) (call : Call) : Option Write :=
  match call, (s.answer call).1 with
  | .write w, .ok () => some w
  | _, _ => none

/-- The writes that calls perform, in order. -/
def performed (s : Storage) : List Call → List Write
  | [] => []
  | call :: rest => (s.performs? call).toList ++ (s.answer call).2.performed rest

/-- A write that no other one of its key has a higher offset than. -/
def Latest (writes : Set Write) (w : Write) : Prop :=
  w ∈ writes ∧ ∀ w' ∈ writes, w'.replica = w.replica → w'.key = w.key →
    w'.stored.offset ≤ w.stored.offset

/-- Writes of one key at one offset carry one value. -/
def Consistent (writes : Set Write) : Prop :=
  ∀ w ∈ writes, ∀ w' ∈ writes, w.replica = w'.replica → w.key = w'.key →
    w.stored.offset = w'.stored.offset → w.stored.value = w'.stored.value

/-- Two latest writes of a key are one. -/
theorem Consistent.latest_unique {writes : Set Write} (consistent : Consistent writes)
    {r : ReplicaId} {key : ByteArray} {stored stored' : Stored} (h : Latest writes ⟨r, key, stored⟩)
    (h' : Latest writes ⟨r, key, stored'⟩) : stored = stored' := by
  have offset : stored.offset = stored'.offset :=
    Nat.le_antisymm (h'.2 _ h.1 rfl rfl) (h.2 _ h'.1 rfl rfl)
  have value : stored.value = stored'.value := consistent _ h.1 _ h'.1 rfl rfl offset
  cases stored
  cases stored'
  simp_all

/-- What a key holds after some writes: a latest one of them, and nothing only if there is none of
the key. -/
def Kept (writes : Set Write) (r : ReplicaId) (key : ByteArray) : Option Stored → Prop
  | some stored => Latest writes ⟨r, key, stored⟩
  | none => ∀ w ∈ writes, w.replica = r → w.key ≠ key

/-- Each key holds what it has to after some writes. -/
def Holds (s : Storage) (writes : Set Write) : Prop :=
  ∀ r key, Kept writes r key ((s.data r).values.find? key)

theorem holds_empty : empty.Holds ∅ := fun _ _ _ h => h.elim

/-! ## One call -/

/-- A failed write, an injected failure and a checkpoint write nothing. -/
theorem values_answer_of_none {s : Storage} {call : Call} (h : s.performs? call = none)
    (r : ReplicaId) : ((s.answer call).2.data r).values = (s.data r).values := by
  cases call with
  | write w =>
    cases failed : (s.write w.replica w.key w.stored).1 with
    | ok =>
      have performed : s.performs? (.write w) = some w := by simp only [performs?, answer, failed]
      cases performed.symm.trans h
    | error e => rw [answer, data_write_of_error failed]
  | failWrites offset times => rfl
  | commit r' checkpoint =>
    by_cases here : r = r'
    · subst here
      rw [answer, data_commit_self]
    · simp [answer, commit, data, SortedMap.findD, SortedMap.find?_insert_of_ne _ here]

/-- A performed write is the call's own, and reaches the one replica. -/
theorem data_answer_of_some {s : Storage} {call : Call} {w : Write} (h : s.performs? call = some w)
    (r : ReplicaId) : (s.answer call).2.data r =
      if r = w.replica then (s.data r).write w.key w.stored else s.data r := by
  unfold performs? at h
  split at h
  · rename_i performed
    cases h
    rw [answer, data_write_of_ok performed]
    split
    · rename_i here
      rw [here]
    · rfl
  · cases h

section Keeping

variable {writes : Set Write} {r : ReplicaId} {key : ByteArray} {found : Option Stored} {w : Write}

/-- Another write leaves the latest of a key of which it is no later write. -/
theorem Latest.insert {latest : Write} (h : Latest writes latest)
    (later : w.replica = latest.replica → w.key = latest.key →
      w.stored.offset ≤ latest.stored.offset) :
    Latest (insert w writes) latest := by
  refine ⟨Set.mem_insert_of_mem _ h.1, fun v hv replica key => ?_⟩
  rcases hv with rfl | hv
  · exact later replica key
  · exact h.2 v hv replica key

/-- What is written is the latest of its key where no earlier write has a higher offset. -/
theorem latest_insert_self
    (h : ∀ w' ∈ writes, w'.replica = w.replica → w'.key = w.key →
      w'.stored.offset ≤ w.stored.offset) :
    Latest (insert w writes) w := by
  refine ⟨Set.mem_insert _ _, fun v hv replica key => ?_⟩
  rcases hv with rfl | hv
  · exact Nat.le_refl _
  · exact h v hv replica key

/-- A write to one key is none of any other. -/
theorem Kept.insert_of_ne (kept : Kept writes r key found)
    (other : ¬(r = w.replica ∧ key = w.key)) :
    Kept (insert w writes) r key found := by
  cases found with
  | some stored => exact Latest.insert kept fun replica key => (other ⟨replica.symm, key.symm⟩).elim
  | none =>
    intro v hv replica key
    rcases hv with rfl | hv
    · exact other ⟨replica.symm, key.symm⟩
    · exact kept v hv replica key

/-- Of what a key held and what is written to it the later one stays, of two with one offset the
written. -/
theorem Kept.write {d : ReplicaData} (kept : Kept writes w.replica w.key (d.values.find? w.key)) :
    Kept (insert w writes) w.replica w.key ((d.write w.key w.stored).values.find? w.key) := by
  rw [ReplicaData.find?_write_self]
  cases found : d.values.find? w.key with
  | none =>
    rw [found] at kept
    exact latest_insert_self fun v hv replica key => absurd key (kept v hv replica)
  | some existing =>
    rw [found] at kept
    dsimp only
    split
    · rename_i older
      exact Latest.insert kept fun _ _ => Nat.le_of_lt older
    · rename_i newer
      exact latest_insert_self fun v hv replica key =>
        (kept.2 v hv replica key).trans (Nat.not_lt.mp newer)

end Keeping

variable {s : Storage} {writes : Set Write}

/-- A written key holds the later one of what it held and what is written, any other key what it
held. -/
theorem Holds.write (holds : s.Holds writes) {w : Write} {s' : Storage}
    (written : ∀ r, s'.data r =
      if r = w.replica then (s.data r).write w.key w.stored else s.data r) :
    s'.Holds (insert w writes) := by
  intro r key
  rw [written r]
  by_cases here : r = w.replica
  · rw [if_pos here]
    by_cases same : key = w.key
    · rw [here, same]
      exact (holds w.replica w.key).write
    · rw [ReplicaData.find?_write_of_ne _ same]
      exact (holds r key).insert_of_ne fun h => same h.2
  · rw [if_neg here]
    exact (holds r key).insert_of_ne fun h => here h.1

/-- A call adds what it performs to the writes that keys hold the latest of. -/
theorem Holds.answer (holds : s.Holds writes) (call : Call) :
    (s.answer call).2.Holds (writes ∪ {w | s.performs? call = some w}) := by
  cases performs : s.performs? call with
  | none =>
    have nothing : {w | (none : Option Write) = some w} = ∅ := by simp
    rw [nothing, Set.union_empty]
    intro r key
    rw [values_answer_of_none performs]
    exact holds r key
  | some w =>
    have only : writes ∪ {v | some w = some v} = insert w writes := by
      ext v
      simp [eq_comm]
    rw [only]
    exact holds.write (data_answer_of_some performs)

/-- What holds before some calls holds after them, of the writes that they perform as well. -/
theorem Holds.after (holds : s.Holds writes) (calls : List Call) :
    (s.after calls).Holds (writes ∪ {w | w ∈ s.performed calls}) := by
  -- From any storage and the writes so far, as a first call may change both.
  induction calls generalizing s writes with
  | nil => simpa [Storage.after, performed] using holds
  | cons call rest ih =>
    have performs : {w | w ∈ s.performed (call :: rest)} =
        {w | s.performs? call = some w} ∪ {w | w ∈ (s.answer call).2.performed rest} := by
      ext w
      simp [performed]
    rw [performs, ← Set.union_assoc]
    exact ih (holds.answer call)

/-! ## All calls -/

section Outcome

variable {calls : List Call} (performs : ∀ w, w ∈ empty.performed calls ↔ w ∈ writes)
include performs

/-- Storage that was empty holds the latest of what was performed on it. -/
theorem holds_after : (empty.after calls).Holds writes := by
  have all : {w | w ∈ empty.performed calls} = writes := Set.ext performs
  simpa [all] using holds_empty.after calls

/-- Where writes agree, a key holds exactly the latest one. -/
theorem find?_after_iff (consistent : Consistent writes) (r : ReplicaId) (key : ByteArray)
    (stored : Stored) : ((empty.after calls).data r).values.find? key = some stored ↔
      Latest writes ⟨r, key, stored⟩ := by
  have kept := holds_after performs r key
  cases found : ((empty.after calls).data r).values.find? key with
  | none =>
    rw [found] at kept
    exact ⟨nofun, fun latest => absurd rfl (kept _ latest.1 rfl)⟩
  | some existing =>
    rw [found] at kept
    refine ⟨fun h => Option.some.inj h ▸ kept, fun latest => ?_⟩
    rw [consistent.latest_unique kept latest]

end Outcome

/-- Whatever order writes are performed in, however often, and whatever attempts fail in between: a
key holds its latest write. A tombstone reads as nothing and is not counted. A failed write leaves
all values, offsets and checkpoints as they were. -/
theorem last_write_wins (consistent : Consistent writes) {calls : List Call}
    (performs : ∀ w, w ∈ empty.performed calls ↔ w ∈ writes) :
    (∀ r key stored, ((empty.after calls).data r).values.find? key = some stored ↔
      Latest writes ⟨r, key, stored⟩) ∧
    (∀ r key value, (empty.after calls).get? r key = some value ↔
      ∃ offset, Latest writes ⟨r, key, some value, offset⟩) ∧
    (∀ r, (empty.after calls).size r =
      {key | ∃ value offset, Latest writes ⟨r, key, some value, offset⟩}.ncard) ∧
    (∀ calls', (∀ w, w ∈ empty.performed calls' ↔ w ∈ writes) → ∀ r,
      ((empty.after calls').data r).values = ((empty.after calls).data r).values) ∧
    ∀ earlier w later e, calls = earlier ++ .write w :: later →
      ((empty.after earlier).answer (.write w)).1 = .error e → ∀ r,
        (empty.after (earlier ++ [.write w])).data r = (empty.after earlier).data r := by
  have holds := find?_after_iff performs consistent
  refine ⟨holds, fun r key value => ?_, fun r => ?_, fun calls' performs' r => ?_, ?_⟩
  · rw [get?, Option.bind_eq_some_iff]
    constructor
    · rintro ⟨⟨_, offset⟩, found, rfl⟩
      exact ⟨offset, (holds r key _).mp found⟩
    · rintro ⟨offset, latest⟩
      exact ⟨_, (holds r key _).mpr latest, rfl⟩
  · rw [size, SortedMap.length_filter_values]
    refine congrArg Set.ncard (Set.ext fun key => ?_)
    constructor
    · rintro ⟨⟨value, offset⟩, found, put⟩
      obtain ⟨value, rfl⟩ := Option.isSome_iff_exists.mp put
      exact ⟨value, offset, (holds r key _).mp found⟩
    · rintro ⟨value, offset, latest⟩
      exact ⟨_, (holds r key _).mpr latest, rfl⟩
  · refine SortedMap.ext fun key => Option.ext fun stored => ?_
    rw [holds, find?_after_iff performs' consistent]
  · intro earlier w later e _ failed r
    rw [after, List.foldl_append]
    exact data_write_of_error failed r

/-- A put that a later delete shadows, and a put of another key. -/
def editions : List Write :=
  [⟨⟨"orders", 1, 0⟩, ⟨#[107]⟩, some ⟨#[49]⟩, 3⟩, ⟨⟨"orders", 1, 0⟩, ⟨#[107]⟩, none, 5⟩,
    ⟨⟨"orders", 1, 0⟩, ⟨#[108]⟩, some ⟨#[50]⟩, 4⟩]

/-- The same writes from behind, the delete only at its second attempt, and the other put twice. -/
def shuffled : List Call :=
  .failWrites 5 1 :: (editions.drop 1 ++ editions.reverse).map .write

/-- The delete stays in either order, though the put it shadows comes last in one. -/
theorem last_write_wins_shuffled :
    Consistent {w | w ∈ editions} ∧
    (∀ w, w ∈ empty.performed (editions.map .write) ↔ w ∈ {w | w ∈ editions}) ∧
    (∀ w, w ∈ empty.performed shuffled ↔ w ∈ {w | w ∈ editions}) ∧
    (∀ r, ((empty.after shuffled).data r).values =
      ((empty.after (editions.map .write)).data r).values) ∧
    (empty.after shuffled).get? ⟨"orders", 1, 0⟩ ⟨#[107]⟩ = none ∧
    (empty.after shuffled).size ⟨"orders", 1, 0⟩ = 1 := by
  have consistent : Consistent {w | w ∈ editions} := by
    show ∀ w ∈ editions, ∀ w' ∈ editions, _
    decide
  have inOrder : empty.performed (editions.map .write) = editions := rfl
  have again : empty.performed shuffled = editions.drop 2 ++ editions.reverse := rfl
  have performs : ∀ w, w ∈ empty.performed shuffled ↔ w ∈ {w | w ∈ editions} := fun w => by
    rw [again, List.mem_append, List.mem_reverse]
    exact ⟨fun h => h.elim List.mem_of_mem_drop id, .inr⟩
  refine ⟨consistent, fun w => by rw [inOrder]; rfl, performs, ?_, rfl, rfl⟩
  exact (last_write_wins consistent (fun w => by rw [inOrder]; rfl)).2.2.2.1 shuffled performs

end Storage

end StoreFeed
