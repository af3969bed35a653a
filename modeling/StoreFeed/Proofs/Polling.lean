import StoreFeed.Proofs.Log

/-!
# Reading while the log grows

A reader polls a log that others append to. A subscription stands for one piece of state, the
position, and all that is delivered is the records between the offset it started from and the
position. So the invariant of a subscription (`Delivered`) is that the partition gives, from that
offset on, what was delivered so far, and that the position lies right behind it. A poll adds to
both; what other partitions take of its limit, a poll that fails and an append touch neither.
-/

namespace StoreFeed

/-- Given records are followed by the ones given behind them. -/
theorem Log.Gives.append {log : Log} {tp : TopicPartition} {offset : Nat}
    {records more : List ChangeRecord} (h : log.Gives tp offset records)
    (next : log.Gives tp (offset + records.length) more) :
    log.Gives tp offset (records ++ more) := by
  obtain ⟨rest, split⟩ := h
  unfold Gives at next ⊢
  rw [← List.drop_drop, ← split, List.drop_left] at next
  rw [← split]
  exact (List.prefix_append_right_inj _).mpr next

theorem Consumer.length_batchOf (given : Entries TopicPartition (List ChangeRecord)) :
    (batchOf given).length = (given.flatMap (·.2)).length := by
  simp [batchOf, List.length_flatMap]

namespace Consumer

variable {c c' : Consumer} {log : Log} {limit : Nat} {batch : List (TopicPartition × ChangeRecord)}

/-- A poll brings no more than its limit. -/
theorem length_of_poll (h : c.poll log limit = .ok (batch, c')) : batch.length ≤ limit := by
  unfold poll Log.checkAvailable at h
  split at h
  · cases h
    exact Nat.le_trans (Nat.le_of_eq (length_batchOf _)) (length_shares_le log limit _)
  · cases h

/-- A poll brings each record from where its offset says. -/
theorem getElem?_of_poll (indexed : log.Indexed) (h : c.poll log limit = .ok (batch, c'))
    {tp : TopicPartition} {r : ChangeRecord} (hr : (tp, r) ∈ batch) :
    (log.records tp)[r.offset]? = some r := by
  have given := mem_recordsOf.mpr hr
  cases subscribed : c.positions.find? tp with
  | none =>
    rw [(poll_of_none h subscribed).1] at given
    cases given
  | some position =>
    have written := List.mem_of_mem_drop ((poll_of_some h subscribed).1.subset given)
    obtain ⟨i, hi⟩ := List.mem_iff_getElem?.mp written
    rw [indexed tp i r hi]
    exact hi

end Consumer

/-- A log, and a consumer that reads it. -/
structure Reader where
  log : Log
  consumer : Consumer

namespace Reader

/-- A consumer without subscriptions, of a log without records. -/
def start : Reader := ⟨Log.empty, Consumer.fresh⟩

/-- What happens to a log and its consumer. -/
inductive Call where
  | append (tp : TopicPartition) (r : ChangeRecord)
  | produce (topic : String) (partition : UInt32) (r : ChangeRecord)
  | setAvailable (available : Bool)
  | subscribe (tp : TopicPartition) (offset : Nat)
  | unsubscribe (tp : TopicPartition)
  | poll (limit : Nat)

/-- What a call delivers, and what it leaves. -/
def carryOut (s : Reader) : Call →
    Except IngestionError (List (TopicPartition × ChangeRecord) × Reader)
  | .append tp r => .ok ([], { s with log := (s.log.append tp r).2 })
  | .produce topic partition r => do
    let (_, log) ← s.log.produce topic partition r
    return ([], { s with log })
  | .setAvailable available => .ok ([], { s with log := { s.log with available } })
  | .subscribe tp offset => do
    let consumer ← s.consumer.subscribe s.log tp offset
    return ([], { s with consumer })
  | .unsubscribe tp => .ok ([], { s with consumer := s.consumer.unsubscribe tp })
  | .poll limit => do
    let (batch, consumer) ← s.consumer.poll s.log limit
    return (batch, { s with consumer })

/-- A call that fails leaves everything as it was. -/
def next (s : Reader) (call : Call) : Reader :=
  match s.carryOut call with
  | .ok (_, s') => s'
  | .error _ => s

/-- A call that fails delivers nothing. -/
def batch (s : Reader) (call : Call) : List (TopicPartition × ChangeRecord) :=
  match s.carryOut call with
  | .ok (batch, _) => batch
  | .error _ => []

/-- Carry out calls in order. -/
def after (s : Reader) (calls : List Call) : Reader := calls.foldl next s

/-- What calls deliver, in order. -/
def delivered (s : Reader) : List Call → List (TopicPartition × ChangeRecord)
  | [] => []
  | call :: rest => s.batch call ++ (s.next call).delivered rest

/-- A call that starts or ends the subscription of a partition, and does not fail. -/
def Resets (s : Reader) (tp : TopicPartition) (call : Call) : Prop :=
  (s.carryOut call).isOk ∧ (call = .unsubscribe tp ∨ ∃ offset, call = .subscribe tp offset)

/-- None of some calls, carried out in order, starts or ends the subscription of a partition. -/
def Undisturbed (tp : TopicPartition) (s : Reader) : List Call → Prop
  | [] => True
  | call :: rest => ¬s.Resets tp call ∧ Undisturbed tp (s.next call) rest

variable {s s' : Reader} {batch : List (TopicPartition × ChangeRecord)}

/-! ## One call -/

/-- What a call that does not fail delivers and leaves. -/
inductive Answers (s : Reader) : Call → List (TopicPartition × ChangeRecord) → Reader → Prop where
  | append (tp : TopicPartition) (r : ChangeRecord) :
    Answers s (.append tp r) [] { s with log := (s.log.append tp r).2 }
  | produce (topic : String) (partition : UInt32) (r : ChangeRecord) :
    Answers s (.produce topic partition r) []
      { s with log := (s.log.append ⟨topic, partition, none⟩ r).2 }
  | setAvailable (available : Bool) :
    Answers s (.setAvailable available) [] { s with log := { s.log with available } }
  | subscribe (tp : TopicPartition) (offset : Nat) :
    Answers s (.subscribe tp offset) []
      { s with consumer := ⟨s.consumer.positions.insert tp offset⟩ }
  | unsubscribe (tp : TopicPartition) :
    Answers s (.unsubscribe tp) [] { s with consumer := s.consumer.unsubscribe tp }
  | poll (limit : Nat) (batch : List (TopicPartition × ChangeRecord)) (consumer : Consumer)
    (polled : s.consumer.poll s.log limit = .ok (batch, consumer)) :
    Answers s (.poll limit) batch { s with consumer }

theorem answers_of_carryOut {call : Call} (h : s.carryOut call = .ok (batch, s')) :
    s.Answers call batch s' := by
  cases call with
  | append tp r =>
    cases h
    exact .append tp r
  | produce topic partition r =>
    simp only [carryOut, Log.produce, Log.checkAvailable] at h
    split at h
    · cases h
      exact .produce topic partition r
    · cases h
  | setAvailable available =>
    cases h
    exact .setAvailable available
  | subscribe tp offset =>
    simp only [carryOut, Consumer.subscribe, Log.checkAvailable] at h
    split at h
    · cases h
      exact .subscribe tp offset
    · cases h
  | unsubscribe tp =>
    cases h
    exact .unsubscribe tp
  | poll limit =>
    cases polled : s.consumer.poll s.log limit with
    | error e =>
      simp only [carryOut, polled] at h
      cases h
    | ok given =>
      simp only [carryOut, polled] at h
      cases h
      exact .poll limit _ _ polled

variable {call : Call} {tp : TopicPartition} {offset : Nat} {records : List ChangeRecord}

/-- The log only grows. -/
theorem Answers.extends (h : s.Answers call batch s') : s.log.Extends s'.log := by
  cases h with
  | append tp r => exact .append _ tp r
  | produce topic partition r => exact .append _ _ r
  | setAvailable | subscribe | unsubscribe | poll => exact .refl _

/-- Every record is written under its index. -/
theorem Answers.indexed (h : s.Answers call batch s') (indexed : s.log.Indexed) :
    s'.log.Indexed := by
  cases h with
  | append tp r => exact indexed.append tp r
  | produce topic partition r => exact indexed.append _ r
  | setAvailable | subscribe | unsubscribe | poll => exact indexed

/-- What was delivered of a partition since it was subscribed from an offset on is what the
partition gives from there, and the position is the offset behind it. -/
structure Delivered (s : Reader) (tp : TopicPartition) (offset : Nat)
    (records : List ChangeRecord) :
    Prop where
  position : s.consumer.positions.find? tp = some (offset + records.length)
  gives : s.log.Gives tp offset records

/-- A subscription starts with nothing delivered. -/
theorem delivered_of_subscribe (h : s.Answers (.subscribe tp offset) batch s') :
    s'.Delivered tp offset [] := by
  cases h with
  | subscribe => exact ⟨SortedMap.find?_insert_self _ _ _, Log.gives_nil _ _ _⟩

/-- A call that leaves the subscription of a partition adds the records that it delivers of it. -/
theorem Delivered.answers (delivered : s.Delivered tp offset records) (h : s.Answers call batch s')
    (kept : call ≠ .unsubscribe tp ∧ ∀ offset, call ≠ .subscribe tp offset) :
    s'.Delivered tp offset (records ++ recordsOf tp batch) := by
  have before := h.extends.gives delivered.gives
  cases h with
  | append | produce | setAvailable =>
    rw [recordsOf_nil, List.append_nil]
    exact ⟨delivered.position, before⟩
  | subscribe tp' offset' =>
    have other : tp ≠ tp' := fun same => kept.2 offset' (same ▸ rfl)
    rw [recordsOf_nil, List.append_nil]
    exact ⟨(SortedMap.find?_insert_of_ne _ other _).trans delivered.position, before⟩
  | unsubscribe tp' =>
    have other : tp ≠ tp' := fun same => kept.1 (same ▸ rfl)
    rw [recordsOf_nil, List.append_nil]
    exact ⟨(SortedMap.find?_erase_of_ne _ other).trans delivered.position, before⟩
  | poll limit batch consumer polled =>
    obtain ⟨gives, position⟩ := Consumer.poll_of_some polled delivered.position
    refine ⟨?_, before.append gives⟩
    rw [position, List.length_append, Nat.add_assoc]

/-! ## All calls -/

theorem indexed_after (h : s.log.Indexed) (calls : List Call) : (s.after calls).log.Indexed := by
  induction calls generalizing s with
  | nil => exact h
  | cons call rest ih =>
    refine ih (s := s.next call) ?_
    unfold next
    split
    · rename_i answered
      exact (answers_of_carryOut answered).indexed h
    · exact h

/-- Along calls that leave the subscription of a partition its records are delivered one after the
other. -/
theorem Delivered.after (h : s.Delivered tp offset records) {calls : List Call}
    (undisturbed : s.Undisturbed tp calls) :
    (s.after calls).Delivered tp offset (records ++ recordsOf tp (s.delivered calls)) := by
  -- From any point of the subscription on, as a first call may move the position.
  induction calls generalizing s records with
  | nil => simpa [Reader.after, delivered] using h
  | cons call rest ih =>
    have step : (s.next call).Delivered tp offset (records ++ recordsOf tp (s.batch call)) := by
      cases answered : s.carryOut call with
      | error e => simpa [next, Reader.batch, answered] using h
      | ok answer =>
        have kept : call ≠ .unsubscribe tp ∧ ∀ offset, call ≠ .subscribe tp offset := by
          simpa [Resets, answered, Except.isOk, Except.toBool] using undisturbed.1
        simpa [next, Reader.batch, answered] using h.answers (answers_of_carryOut answered) kept
    have := ih step undisturbed.2
    rwa [List.append_assoc, ← recordsOf_append] at this

/-- Whatever is appended, subscribed and polled, and whatever calls fail: a poll delivers no more
than its limit, each record under its index; and while a subscription lasts, what is delivered of
its partition is all records from the offset it started from up to the position, in order. -/
theorem delivers_each_once (earlier : List Call) :
    (∀ limit batch s', (start.after earlier).carryOut (.poll limit) = .ok (batch, s') →
      batch.length ≤ limit ∧
      ∀ tp r, (tp, r) ∈ batch → ((start.after earlier).log.records tp)[r.offset]? = some r) ∧
    ∀ tp offset s', (start.after earlier).carryOut (.subscribe tp offset) = .ok ([], s') →
      ∀ between, s'.Undisturbed tp between →
        ∃ position, (s'.after between).consumer.positions.find? tp = some position ∧
          position = offset + (recordsOf tp (s'.delivered between)).length ∧
          recordsOf tp (s'.delivered between) =
            (((s'.after between).log.records tp).drop offset).take (position - offset) := by
  constructor
  · intro limit batch s' answered
    have indexed := indexed_after (s := start) Log.indexed_empty earlier
    cases answers_of_carryOut answered with
    | poll _ _ consumer polled =>
      exact ⟨Consumer.length_of_poll polled, fun tp r => Consumer.getElem?_of_poll indexed polled⟩
  · intro tp offset s' answered between undisturbed
    have delivered := (delivered_of_subscribe (answers_of_carryOut answered)).after undisturbed
    refine ⟨_, delivered.position, by rw [List.nil_append], ?_⟩
    rw [Nat.add_sub_cancel_left]
    exact List.prefix_iff_eq_take.mp delivered.gives

/-- A delete of a key, as it is before it is appended. -/
def noted (key : UInt8) : ChangeRecord := ⟨0, 0, ⟨#[key]⟩, .delete, none⟩

/-- Two partitions with records before any subscription. -/
def stocked : List Call :=
  [.append ⟨"a", 0, none⟩ (noted 1), .append ⟨"a", 0, none⟩ (noted 2),
    .append ⟨"b", 0, none⟩ (noted 3), .append ⟨"b", 0, none⟩ (noted 4), .subscribe ⟨"a", 0, none⟩ 0]

/-- A subscription of one partition besides that of the other. -/
def subscribed : Reader := (start.after stocked).next (.subscribe ⟨"b", 0, none⟩ 1)

/-- Polls of which one gives its limit to the other partition first, and one fails. -/
def polled : List Call :=
  [.poll 3, .setAvailable false, .poll 8, .subscribe ⟨"b", 0, none⟩ 0, .setAvailable true,
    .append ⟨"b", 0, none⟩ (noted 5), .poll 1, .poll 8]

/-- The two records from the subscription's offset on are delivered, in two polls. -/
theorem delivers_each_once_polled :
    (start.after stocked).carryOut (.subscribe ⟨"b", 0, none⟩ 1) = .ok ([], subscribed) ∧
    subscribed.Undisturbed ⟨"b", 0, none⟩ polled ∧
    (recordsOf ⟨"b", 0, none⟩ (subscribed.delivered polled)).map (·.offset) = [1, 2] ∧
    recordsOf ⟨"b", 0, none⟩ (subscribed.delivered polled) =
      ((subscribed.after polled).log.records ⟨"b", 0, none⟩).drop 1 := by
  have undisturbed : subscribed.Undisturbed ⟨"b", 0, none⟩ polled := by
    have refused :
        ((((subscribed.next (.poll 3)).next (.setAvailable false)).next (.poll 8)).carryOut
        (.subscribe ⟨"b", 0, none⟩ 0)).isOk = false := rfl
    simp [polled, Undisturbed, Resets, refused]
  obtain ⟨position, found, -, all⟩ :=
    (delivers_each_once stocked).2 ⟨"b", 0, none⟩ 1 subscribed rfl polled undisturbed
  have place : (subscribed.after polled).consumer.positions.find? ⟨"b", 0, none⟩ = some 3 := rfl
  obtain rfl := Option.some.inj (place.symm.trans found)
  exact ⟨rfl, undisturbed, rfl, all⟩

end Reader

end StoreFeed
