import StoreFeed.Error
import StoreFeed.Topic

/-!
# Faults and traces

Every call of a replica to the log or to its host's storage can be made to fail: it first succeeds
a number of times, then fails a number of times or for ever. A call that fails has no effect. Calls
that set a replica up or make it durable are also written down, whether they fail or not.
-/

namespace StoreFeed

/-- A call of a replica to the log or to storage. -/
inductive Operation where
  | acquireConsumer
  | subscribe
  | unsubscribe
  | poll
  | endOffset
  | offsetForTimestamp
  | producer
  | produce
  | get
  | put
  | delete
  | checkpoint
  | commit
deriving DecidableEq

namespace Operation

/-- All operations. -/
def all : List Operation :=
  [.acquireConsumer, .subscribe, .unsubscribe, .poll, .endOffset, .offsetForTimestamp, .producer,
    .produce, .get, .put, .delete, .checkpoint, .commit]

/-- The name shown to operators. -/
def label : Operation → String
  | .acquireConsumer => "acquire_consumer"
  | .subscribe => "subscribe"
  | .unsubscribe => "unsubscribe"
  | .poll => "poll"
  | .endOffset => "end_offset"
  | .offsetForTimestamp => "offset_for_timestamp"
  | .producer => "producer"
  | .produce => "produce"
  | .get => "get"
  | .put => "put"
  | .delete => "delete"
  | .checkpoint => "checkpoint"
  | .commit => "commit"

/-- The operation of a name. -/
def ofLabel? (s : String) : Option Operation := all.find? fun op => op.label = s

/-- Place in the list of all operations. -/
def rank (op : Operation) : Nat := op.ctorIdx

instance : Ord Operation := ⟨compareOn rank⟩

instance : Std.TransOrd Operation := inferInstanceAs (Std.TransCmp (compareOn rank))

theorem rank_injective {a b : Operation} (h : a.rank = b.rank) : a = b := by
  cases a <;> cases b <;> first | rfl | exact absurd h (by decide)

instance : Std.LawfulEqOrd Operation where
  eq_of_compare h := rank_injective (Std.LawfulEqOrd.compare_eq_iff_eq.1 h)

end Operation

/-- How an operation is going to fail. -/
structure Fault where
  error : IngestionError
  /-- How many calls succeed before. -/
  after : Nat
  /-- How many calls fail then; none for ever. -/
  times : Option Nat

/-- The faults of a host's operations. -/
abbrev FaultPlan := SortedMap Operation Fault

/-- Whether the next call of an operation fails, and the plan after that call. -/
def FaultPlan.next (plan : FaultPlan) (op : Operation) : Option IngestionError × FaultPlan :=
  match plan.find? op with
  | none => (none, plan)
  | some fault =>
    match fault.after, fault.times with
    | after + 1, _ => (none, plan.insert op { fault with after })
    | 0, none => (some fault.error, plan)
    | 0, some (times + 1) => (some fault.error, plan.insert op { fault with times := some times })
    | 0, some 0 => (none, plan)

/-- Without a fault a call succeeds and leaves the plan as it is. -/
theorem FaultPlan.next_of_none {plan : FaultPlan} {op : Operation} (h : plan.find? op = none) :
    plan.next op = (none, plan) := by
  simp [FaultPlan.next, h]

/-- A call changes no plan but that of its own operation. -/
theorem FaultPlan.find?_next_of_ne (plan : FaultPlan) {op op' : Operation} (h : op' ≠ op) :
    SortedMap.find? (plan.next op).2 op' = plan.find? op' := by
  unfold FaultPlan.next
  split
  · rfl
  · split
    · exact SortedMap.find?_insert_of_ne _ h _
    · rfl
    · exact SortedMap.find?_insert_of_ne _ h _
    · rfl

/-- A call that is written down. -/
inductive Call where
  | acquireConsumer (replica : ReplicaId)
  | subscribe (tp : TopicPartition) (offset : Nat)
  | unsubscribe (tp : TopicPartition)
  | offsetForTimestamp (tp : TopicPartition) (timestamp : Nat)
  | producer (topic : String)
  | checkpoint (replica : ReplicaId)
  | commit (replica : ReplicaId) (versionOffset : Nat)
deriving DecidableEq

/-- The line that a call is written down as. -/
def Call.text : Call → String
  | .acquireConsumer replica => "acquire_consumer " ++ replica.label
  | .subscribe tp offset => "subscribe " ++ tp.label ++ " " ++ toString offset
  | .unsubscribe tp => "unsubscribe " ++ tp.label
  | .offsetForTimestamp tp timestamp =>
    "offset_for_timestamp " ++ tp.label ++ " " ++ toString timestamp
  | .producer topic => "producer " ++ topic
  | .checkpoint replica => "checkpoint " ++ replica.label
  | .commit replica versionOffset => "commit " ++ replica.label ++ " " ++ toString versionOffset

end StoreFeed
