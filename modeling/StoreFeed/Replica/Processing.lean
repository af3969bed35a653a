import StoreFeed.Replica.Failure
import StoreFeed.Update.Merge

/-!
# Processing a record

A record of the version topic is written under its own offset. A record of a real-time topic is
first published in the version topic, stamped with the place it was read at, and then written under
the offset it got there. In both cases an update is first merged into the stored value. A control
record of the version topic marks a stage of the push; in a real-time topic it only moves the
position.

When a call fails the record is started over from its first call.
-/

namespace StoreFeed.Act

/-- Go to the next record of the batch that was not consumed before, or end the batch. Records of
partitions that are not subscribed, and records of the version topic below the position, are passed
over. -/
def nextRecord : List (TopicPartition × ChangeRecord) → Bool → Act Unit
  | [], true => do goTo (.committing (Backoff.ofSettings (← settings)))
  | [], false => goTo (.safePoint false)
  | (topic, record) :: rest, processed => do
    let r ← self
    if !r.subscriptions.contains topic then nextRecord rest processed
    else if topic = r.id.versionTopic ∧ record.offset < r.tracker.versionPosition then
      nextRecord rest processed
    else
      let backoff := Backoff.ofSettings (← settings)
      goTo (.working ⟨topic, record, .fresh, backoff, rest⟩)

/-- Poll a batch. -/
def pollBatch : Act Unit := do
  match (← self).consumer with
  | none => retrySource Operation.poll.label noConsumer (.aligning false)
  | some c =>
    match ← poll c with
    | .error e => retrySource Operation.poll.label e (.aligning false)
    | .ok batch =>
      sourceRecovered
      let role := (← self).role
      modifyMetrics (·.polled role batch.length)
      nextRecord batch false

/-! ## Effects of a record that was processed -/

/-- A control message takes effect. -/
def applyControl : ControlMessage → Act Unit
  | .startOfPush => pure ()
  | .endOfPush => modifyTracker fun t => { t with endOfPush := true }
  | .startOfBufferReplay => modifyTracker fun t => { t with startOfBufferReplay := true }

/-- Record that a record was consumed. -/
def recordConsumed (r : ChangeRecord) (region : Option RegionId) : Act Unit := do
  let size := r.estimatedSize
  let role := (← self).role
  record (.recordsConsumed 1)
  record (.bytesConsumed size)
  record (.recordsConsumedAs role 1)
  record (.bytesConsumedAs role size)
  match region with
  | some region =>
    record (.recordsConsumedFrom region 1)
    record (.bytesConsumedFrom region size)
  | none => pure ()

/-- A record of the version topic is done. -/
def finishVersionRecord (r : ChangeRecord) : Act Unit := do
  match r.origin with
  | some origin =>
    let next ← ofWord (Word.add origin.offset 1)
    modifyTracker (·.atRealTimePosition origin.region next)
  | none => pure ()
  let next ← ofWord (Word.add r.offset 1)
  modifyTracker (·.atVersionPosition next)
  recordConsumed r none

/-- A control record of a real-time topic is done. -/
def finishRealTimeControl (tp : TopicPartition) (r : ChangeRecord) : Act Unit := do
  let next ← ofWord (Word.add r.offset 1)
  modifyTracker (·.atRealTimePosition tp.region next)

/-- What a leader publishes for a record of a real-time topic. -/
def republished (tp : TopicPartition) (r : ChangeRecord) (value : Option ByteArray) :
    ChangeRecord :=
  { offset := 0
    timestamp := r.timestamp
    key := r.key
    payload := match value with
      | some v => .put v
      | none => .delete
    origin := some ⟨tp.region, r.offset⟩ }

/-- A record of a real-time topic is done, published at an offset. -/
def finishRealTimeRecord (tp : TopicPartition) (r : ChangeRecord) (value : Option ByteArray)
    (published : Nat) : Act Unit := do
  let next ← ofWord (Word.add r.offset 1)
  modifyTracker (·.atRealTimePosition tp.region next)
  let next ← ofWord (Word.add published 1)
  modifyTracker (·.atVersionPosition next)
  record (.recordsProduced 1)
  record (.bytesProduced (republished tp r value).estimatedSize)
  recordConsumed r tp.region

/-! ## Steps of a record -/

/-- Start a record over after a pause, or halt. -/
def recordFailed (w : Work) (e : IngestionError) : Act Unit :=
  processingFailed e w.backoff fun backoff => .working { w with stage := .fresh, backoff }

/-- Whether a record was read from the replica's version topic. -/
def fromVersionTopic (w : Work) : Act Bool := do
  return w.topic.topic = (← self).id.versionTopic.topic

/-- The new value of the record's key is known: write it, or publish it first. -/
def settleValue (w : Work) (value : Option ByteArray) : Act Unit := do
  if ← fromVersionTopic w then goTo (.working { w with stage := .write value w.record.offset })
  else goTo (.working { w with stage := .openTopic value })

/-- Look at a record. -/
def lookAt (w : Work) : Act Unit := do
  match w.record.payload with
  | .put value => settleValue w (some value)
  | .delete => settleValue w none
  | .update u => goTo (.working { w with stage := .merge u })
  | .control m =>
    if ← fromVersionTopic w then
      applyControl m
      finishVersionRecord w.record
    else finishRealTimeControl w.topic w.record
    nextRecord w.rest true

/-- Merge an update into the stored value. -/
def mergeUpdate (w : Work) (u : PartialUpdate) : Act Unit := do
  match ← readValue w.record.key with
  | .error e => recordFailed w e
  | .ok current =>
    let r ← self
    let merged := mergeBytes r.settings.schema current u
    modifyMetrics (·.merged r.id.store merged.isOk)
    match merged with
    | .ok value =>
      modifySelf fun r => { r with mergeErrorCode := 0 }
      settleValue w (some value)
    | .error e => recordFailed w (.merge e)

/-- Open the topic that a value is to be published in. -/
def openVersionTopic (w : Work) (value : Option ByteArray) : Act Unit := do
  match ← openTopic (← self).id.versionTopic.topic with
  | .error e => recordFailed w e
  | .ok () => goTo (.working { w with stage := .publish value })

/-- Publish a value. -/
def publishValue (w : Work) (value : Option ByteArray) : Act Unit := do
  match ← produce (← self).id.versionTopic.topic (republished w.topic w.record value) with
  | .error e => recordFailed w e
  | .ok offset => goTo (.working { w with stage := .write value offset })

/-- Write a value; with that the record is done. -/
def storeValue (w : Work) (value : Option ByteArray) (offset : Nat) : Act Unit := do
  match ← writeValue w.record.key ⟨value, offset⟩ with
  | .error e => recordFailed w e
  | .ok () =>
    if ← fromVersionTopic w then finishVersionRecord w.record
    else finishRealTimeRecord w.topic w.record value offset
    nextRecord w.rest true

/-- Do what is next to a record. -/
def workOn (w : Work) : Act Unit :=
  match w.stage with
  | .fresh => lookAt w
  | .merge u => mergeUpdate w u
  | .openTopic value => openVersionTopic w value
  | .publish value => publishValue w value
  | .write value offset => storeValue w value offset

end StoreFeed.Act
