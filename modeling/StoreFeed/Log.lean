import StoreFeed.Error
import StoreFeed.Record

/-!
# The log

A log holds the records of every topic partition. The offset of a record is its index, which
`append` writes into it, so the end of a partition is the offset that the next record will get.
While the log is unavailable every call fails except reading it at rest.

A consumer has a position in each partition it is subscribed to. One poll shares its limit among the
partitions, in their order: each gives what it has, up to what the ones before it left over.
-/

namespace StoreFeed

/-- The records of every topic partition. -/
structure Log where
  partitions : SortedMap TopicPartition (List ChangeRecord)
  available : Bool

namespace Log

/-- A log without records. -/
def empty : Log := ⟨SortedMap.empty, true⟩

instance : Inhabited Log := ⟨empty⟩

/-- All records of a partition. -/
def records (log : Log) (tp : TopicPartition) : List ChangeRecord :=
  log.partitions.findD tp []

/-- Write a record at the end of a partition, and say at which offset. -/
def append (log : Log) (tp : TopicPartition) (record : ChangeRecord) : Nat × Log :=
  let written := log.records tp
  let offset := written.length
  let partitions := log.partitions.insert tp (written ++ [{ record with offset }])
  (offset, { log with partitions })

/-- Write several records. -/
def appendAll (log : Log) (tp : TopicPartition) : List ChangeRecord → List Nat × Log
  | [] => ([], log)
  | record :: rest =>
    let (offset, log) := log.append tp record
    let (offsets, log) := log.appendAll tp rest
    (offset :: offsets, log)

/-- Fails while the log is unavailable. -/
def checkAvailable (log : Log) : Except IngestionError Unit :=
  if log.available then .ok () else .error (.sourceUnavailable "log is unavailable")

/-- The offset that the next record of a partition will get. -/
def endOffset (log : Log) (tp : TopicPartition) : Except IngestionError Nat := do
  log.checkAvailable
  return (log.records tp).length

/-- The offset of the first record produced at an instant or later; the end if there is none. -/
def offsetForTimestamp (log : Log) (tp : TopicPartition) (timestamp : Nat) :
    Except IngestionError Nat := do
  log.checkAvailable
  let records := log.records tp
  match records.find? fun r => timestamp ≤ r.timestamp with
  | some r => return r.offset
  | none => return records.length

/-- Append through a producer, whose topics belong to no region. -/
def produce (log : Log) (topic : String) (partition : UInt32) (record : ChangeRecord) :
    Except IngestionError (Nat × Log) := do
  log.checkAvailable
  return log.append ⟨topic, partition, none⟩ record

/-! ## Laws of appending -/

theorem records_append_self (log : Log) (tp : TopicPartition) (r : ChangeRecord) :
    (log.append tp r).2.records tp =
      log.records tp ++ [{ r with offset := (log.records tp).length }] := by
  simp [append, records, SortedMap.findD]

theorem records_append_of_ne (log : Log) {tp tp' : TopicPartition} (h : tp' ≠ tp)
    (r : ChangeRecord) : (log.append tp r).2.records tp' = log.records tp' := by
  simp [append, records, SortedMap.findD, SortedMap.find?_insert_of_ne _ h]

end Log

/-- The partitions that one reader is subscribed to, each with the offset of the next record. -/
structure Consumer where
  positions : SortedMap TopicPartition Nat

namespace Consumer

/-- A consumer without subscriptions. -/
def fresh : Consumer := ⟨SortedMap.empty⟩

/-- Read a partition from an offset on. -/
def subscribe (c : Consumer) (log : Log) (tp : TopicPartition) (offset : Nat) :
    Except IngestionError Consumer := do
  log.checkAvailable
  return ⟨c.positions.insert tp offset⟩

/-- Read a partition no longer. This needs no log. -/
def unsubscribe (c : Consumer) (tp : TopicPartition) : Consumer := ⟨c.positions.erase tp⟩

/-- What each of some partitions gives to a poll of at most `limit` records. -/
def shares (log : Log) :
    Nat → Entries TopicPartition Nat → Entries TopicPartition (List ChangeRecord)
  | _, [] => []
  | limit, (tp, position) :: rest =>
    let given := ((log.records tp).drop position).take limit
    (tp, given) :: shares log (limit - given.length) rest

/-- The next records of all partitions, at most `limit` together. -/
def poll (c : Consumer) (log : Log) (limit : Nat) :
    Except IngestionError (List (TopicPartition × ChangeRecord) × Consumer) := do
  log.checkAvailable
  let given := shares log limit c.positions.entries
  let batch := given.flatMap fun (tp, records) => records.map fun r => (tp, r)
  let positions := c.positions.map fun tp position =>
    position + ((given.find? tp).getD []).length
  return (batch, ⟨positions⟩)

/-! ## Laws of polling -/

/-- All partitions together give no more than the limit. -/
theorem length_shares_le (log : Log) (limit : Nat) (positions : Entries TopicPartition Nat) :
    ((shares log limit positions).flatMap (·.2)).length ≤ limit := by
  induction positions generalizing limit with
  | nil => exact Nat.zero_le _
  | cons e rest ih =>
    obtain ⟨tp, position⟩ := e
    have hg : (((log.records tp).drop position).take limit).length ≤ limit :=
      List.length_take_le _ _
    have hr := ih (limit - (((log.records tp).drop position).take limit).length)
    simp only [shares, List.flatMap_cons, List.length_append]
    omega

end Consumer

end StoreFeed
