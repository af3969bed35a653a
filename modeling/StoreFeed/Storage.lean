import StoreFeed.Error
import StoreFeed.Record

/-!
# Storage

A host's storage keeps, for each replica, the current value of every key and the last checkpoint.
Every write carries the offset it stems from and is ignored where the key already holds a greater
one, so that a put or a delete that is read again from an earlier checkpoint does no harm. A deleted
key keeps its offset, as a tombstone.

Writes of chosen offsets can be made to fail a number of times.
-/

namespace StoreFeed

/-! ## Order of keys -/

instance byteArrayOrd : Ord ByteArray := ⟨compareOn (·.data.toList)⟩

instance byteArrayTransOrd : Std.TransOrd ByteArray :=
  inferInstanceAs (Std.TransCmp (compareOn fun b : ByteArray => b.data.toList))

instance byteArrayLawfulEqOrd : Std.LawfulEqOrd ByteArray where
  eq_of_compare {a b} h := by
    have : a.data.toList = b.data.toList := Std.LawfulEqOrd.compare_eq_iff_eq.1 h
    cases a
    cases b
    simpa using this

/-- How far a replica has come, kept so that it can go on from there. -/
structure Checkpoint where
  /-- Next offset of the version topic. -/
  versionOffset : Nat
  endOfPush : Bool
  startOfBufferReplay : Bool
  /-- Next offsets of the real-time topics. -/
  realTime : List RealTimePosition
deriving DecidableEq

/-- What a key holds. -/
structure Stored where
  /-- None for a tombstone. -/
  value : Option ByteArray
  /-- The offset that the write stems from. -/
  offset : Nat

/-- What is kept for one replica. -/
structure ReplicaData where
  values : SortedMap ByteArray Stored
  checkpoint : Option Checkpoint

namespace ReplicaData

/-- Nothing kept yet. -/
def empty : ReplicaData := ⟨SortedMap.empty, none⟩

/-- Write a value or a tombstone, unless the key holds a later one. -/
def write (d : ReplicaData) (key : ByteArray) (stored : Stored) : ReplicaData :=
  match d.values.find? key with
  | some existing =>
    if stored.offset < existing.offset then d
    else { d with values := d.values.insert key stored }
  | none => { d with values := d.values.insert key stored }

@[simp]
theorem checkpoint_write (d : ReplicaData) (key : ByteArray) (stored : Stored) :
    (d.write key stored).checkpoint = d.checkpoint := by
  unfold write
  split
  · split <;> rfl
  · rfl

/-- Of the stored and the written value the later one stays, of two with one offset the written. -/
theorem find?_write_self (d : ReplicaData) (key : ByteArray) (stored : Stored) :
    (d.write key stored).values.find? key =
      match d.values.find? key with
      | some existing => if stored.offset < existing.offset then some existing else some stored
      | none => some stored := by
  unfold write
  split
  · rename_i existing h
    split <;> simp [h]
  · simp

theorem find?_write_of_ne (d : ReplicaData) {key key' : ByteArray} (h : key' ≠ key)
    (stored : Stored) : (d.write key stored).values.find? key' = d.values.find? key' := by
  unfold write
  split
  · split
    · rfl
    · exact SortedMap.find?_insert_of_ne _ h _
  · exact SortedMap.find?_insert_of_ne _ h _

end ReplicaData

/-- The storage of a host. -/
structure Storage where
  replicas : SortedMap ReplicaId ReplicaData
  /-- How many more writes of an offset fail. -/
  writeFailures : SortedMap Nat Nat

namespace Storage

/-- Storage that nothing was written to. -/
def empty : Storage := ⟨SortedMap.empty, SortedMap.empty⟩

instance : Inhabited Storage := ⟨empty⟩

/-- What is kept for a replica. -/
def data (s : Storage) (r : ReplicaId) : ReplicaData := s.replicas.findD r ReplicaData.empty

/-- Make the next writes of an offset fail. -/
def failWrites (s : Storage) (offset times : Nat) : Storage :=
  { s with writeFailures := s.writeFailures.insert offset times }

/-- Write a value or a tombstone. -/
def write (s : Storage) (r : ReplicaId) (key : ByteArray) (stored : Stored) :
    Except IngestionError Unit × Storage :=
  match s.writeFailures.findD stored.offset 0 with
  | 0 => (.ok (), { s with replicas := s.replicas.insert r ((s.data r).write key stored) })
  | times + 1 =>
    (.error (.storage ("injected write failure at offset " ++ toString stored.offset)),
      s.failWrites stored.offset times)

/-- The value of a key; a tombstone reads as nothing. -/
def get? (s : Storage) (r : ReplicaId) (key : ByteArray) : Option ByteArray :=
  ((s.data r).values.find? key).bind (·.value)

/-- How many keys hold a value. -/
def size (s : Storage) (r : ReplicaId) : Nat :=
  ((s.data r).values.values.filter (·.value.isSome)).length

/-- The last checkpoint. -/
def checkpoint? (s : Storage) (r : ReplicaId) : Option Checkpoint := (s.data r).checkpoint

/-- Keep a checkpoint in place of the last one. -/
def commit (s : Storage) (r : ReplicaId) (checkpoint : Checkpoint) : Storage :=
  { s with replicas := s.replicas.insert r { s.data r with checkpoint := some checkpoint } }

/-! ## Laws of writing -/

@[simp]
theorem data_failWrites (s : Storage) (offset times : Nat) (r : ReplicaId) :
    (s.failWrites offset times).data r = s.data r := rfl

/-- A write that fails leaves everything as it was. -/
theorem data_write_of_error {s : Storage} {r : ReplicaId} {key : ByteArray} {stored : Stored}
    {e : IngestionError} (h : (s.write r key stored).1 = .error e) (r' : ReplicaId) :
    (s.write r key stored).2.data r' = s.data r' := by
  unfold write at h ⊢
  split
  · rename_i h0
    simp [h0] at h
  · rfl

/-- A write that does not fail reaches the one replica. -/
theorem data_write_of_ok {s : Storage} {r : ReplicaId} {key : ByteArray} {stored : Stored}
    (h : (s.write r key stored).1 = .ok ()) (r' : ReplicaId) :
    (s.write r key stored).2.data r' =
      if r' = r then (s.data r).write key stored else s.data r' := by
  unfold write at h ⊢
  split
  · by_cases hr : r' = r
    · subst hr
      simp [data, SortedMap.findD]
    · simp [data, SortedMap.findD, SortedMap.find?_insert_of_ne _ hr, hr]
  · rename_i h0
    simp [h0] at h

/-! ## Laws of committing -/

theorem data_commit_self (s : Storage) (r : ReplicaId) (c : Checkpoint) :
    (s.commit r c).data r = { s.data r with checkpoint := some c } := by
  simp [commit, data, SortedMap.findD]

@[simp]
theorem checkpoint?_commit_self (s : Storage) (r : ReplicaId) (c : Checkpoint) :
    (s.commit r c).checkpoint? r = some c := by
  simp [commit, checkpoint?, data, SortedMap.findD]

@[simp]
theorem get?_commit (s : Storage) (r r' : ReplicaId) (c : Checkpoint) (key : ByteArray) :
    (s.commit r c).get? r' key = s.get? r' key := by
  by_cases h : r' = r
  · subst h
    simp [commit, get?, data, SortedMap.findD]
  · simp [commit, get?, data, SortedMap.findD, SortedMap.find?_insert_of_ne _ h]

end Storage

end StoreFeed
