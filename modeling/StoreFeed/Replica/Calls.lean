import StoreFeed.Replica.Act

/-!
# Calls to the log and to storage

Every call first asks the host's plan whether it fails; a call that fails changes nothing else but
the plan and the list of calls.
-/

namespace StoreFeed.Act

/-- Whether the next call of an operation fails. -/
def plannedFailure (op : Operation) : Act (Option IngestionError) := do
  let (error, faults) := (← get).site.faults.next op
  modifySite fun s => { s with faults }
  pure error

/-- Make a call, unless it is planned to fail. -/
def call {α : Type} (op : Operation) (effect : Run → Except IngestionError α × Run) :
    Act (Except IngestionError α) := do
  match ← plannedFailure op with
  | some e => pure (.error e)
  | none => modifyGet effect

/-- Write a call down. -/
def note (c : Call) : Act Unit := modifySite fun s => { s with calls := c :: s.calls }

/-! ## The log -/

/-- Why a replica without a consumer cannot read. -/
def noConsumer : IngestionError := .sourceUnavailable "no consumer acquired"

/-- Get a consumer without subscriptions. -/
def acquireConsumer : Act (Except IngestionError Consumer) := do
  note (.acquireConsumer (← self).id)
  call .acquireConsumer fun run =>
    (run.commons.log.checkAvailable.map fun _ => Consumer.fresh, run)

/-- Let the consumer read a partition from an offset on. -/
def subscribe (c : Consumer) (tp : TopicPartition) (offset : Nat) :
    Act (Except IngestionError Unit) := do
  note (.subscribe tp offset)
  call .subscribe fun run =>
    match c.subscribe run.commons.log tp offset with
    | .ok c => (.ok (), { run with replica := { run.replica with consumer := some c } })
    | .error e => (.error e, run)

/-- Let the consumer read a partition no longer. -/
def unsubscribe (c : Consumer) (tp : TopicPartition) : Act (Except IngestionError Unit) := do
  note (.unsubscribe tp)
  call .unsubscribe fun run =>
    (.ok (), { run with replica := { run.replica with consumer := some (c.unsubscribe tp) } })

/-- Get the next batch. What was injected comes first and is not counted against the limit. -/
def poll (c : Consumer) : Act (Except IngestionError (List (TopicPartition × ChangeRecord))) :=
  call .poll fun run =>
    match c.poll run.commons.log run.site.settings.pollBatchSize with
    | .ok (batch, c) =>
      (.ok (run.site.injected ++ batch),
        { run with
          replica := { run.replica with consumer := some c }
          site := { run.site with injected := [] } })
    | .error e => (.error e, run)

/-- The end of a partition. -/
def endOffset (tp : TopicPartition) : Act (Except IngestionError Nat) :=
  call .endOffset fun run => (run.commons.log.endOffset tp, run)

/-- The offset of the first record produced at an instant or later. -/
def offsetForTimestamp (tp : TopicPartition) (timestamp : Nat) :
    Act (Except IngestionError Nat) := do
  note (.offsetForTimestamp tp timestamp)
  call .offsetForTimestamp fun run => (run.commons.log.offsetForTimestamp tp timestamp, run)

/-- Get the producer of a topic. Only a handle that is not open yet takes a call. -/
def openTopic (topic : String) : Act (Except IngestionError Unit) := do
  let run ← get
  let opened : Site → Site := fun s => { s with producers := s.producers.use run.commons.now topic }
  if run.site.producers.contains run.commons.now topic then
    modifySite opened
    return .ok ()
  else
    note (.producer topic)
    let answer ← call .producer fun run => (run.commons.log.checkAvailable, run)
    match answer with
    | .ok () =>
      modifySite opened
      return .ok ()
    | .error e => return .error (Producers.openFailure topic e)

/-- Append a record to the replica's partition of a topic. -/
def produce (topic : String) (record : ChangeRecord) : Act (Except IngestionError Nat) :=
  call .produce fun run =>
    match run.commons.log.produce topic run.replica.id.partition record with
    | .ok (offset, log) => (.ok offset, { run with commons := { run.commons with log } })
    | .error e => (.error e, run)

/-! ## Storage -/

/-- The last checkpoint. -/
def readCheckpoint : Act (Except IngestionError (Option Checkpoint)) := do
  note (.checkpoint (← self).id)
  call .checkpoint fun run => (.ok (run.site.storage.checkpoint? run.replica.id), run)

/-- The value of a key. -/
def readValue (key : ByteArray) : Act (Except IngestionError (Option ByteArray)) :=
  call .get fun run => (.ok (run.site.storage.get? run.replica.id key), run)

/-- Write a value, or a deletion. -/
def writeValue (key : ByteArray) (stored : Stored) : Act (Except IngestionError Unit) :=
  call (if stored.value.isSome then .put else .delete) fun run =>
    let (answer, storage) := run.site.storage.write run.replica.id key stored
    (answer, { run with site := { run.site with storage } })

/-- Keep a checkpoint. -/
def commit (c : Checkpoint) : Act (Except IngestionError Unit) := do
  note (.commit (← self).id c.versionOffset)
  call .commit fun run =>
    (.ok (), { run with
      site := { run.site with storage := run.site.storage.commit run.replica.id c } })

end StoreFeed.Act
