import StoreFeed.Lag

/-!
# The life of a replica, seen from outside

A replica subscribes, bootstraps until it is caught up, and then serves reads. Errors after the end
of the push halt it; whatever happened, it ends unsubscribed.
-/

namespace StoreFeed

/-- A stage in the life of a replica. -/
inductive ReplicaState where
  | notSubscribed
  | subscribing
  | bootstrapping
  | online
  | error
  | unsubscribed
deriving DecidableEq

namespace ReplicaState

/-- All states, in the order a life passes through them. -/
def all : List ReplicaState :=
  [.notSubscribed, .subscribing, .bootstrapping, .online, .error, .unsubscribed]

/-- The name shown to operators. -/
def label : ReplicaState → String
  | .notSubscribed => "NOT_SUBSCRIBED"
  | .subscribing => "SUBSCRIBING"
  | .bootstrapping => "BOOTSTRAPPING"
  | .online => "ONLINE"
  | .error => "ERROR"
  | .unsubscribed => "UNSUBSCRIBED"

theorem label_injective {a b : ReplicaState} (h : a.label = b.label) : a = b := by
  cases a <;> cases b <;> first | rfl | simp [label] at h

/-! States are listed by their names. -/

instance : Ord ReplicaState := ⟨compareOn label⟩

instance : Std.TransOrd ReplicaState := inferInstanceAs (Std.TransCmp (compareOn label))

instance : Std.LawfulEqOrd ReplicaState where
  eq_of_compare h := label_injective (Std.LawfulEqOrd.compare_eq_iff_eq.1 h)

end ReplicaState

/-- What a replica shows of itself. -/
structure ReplicaStatus where
  state : ReplicaState
  role : Role
  /-- Caught up and serving reads. -/
  ready : Bool
  /-- Processing failed after the end of the push. -/
  errored : Bool
  /-- The push did not end in time. -/
  pushTimeout : Bool
  /-- The source has been failing for longer than the grace period. -/
  stale : Bool
  lag : LagSnapshot
deriving DecidableEq

/-- What a replica shows before it has done anything. -/
def ReplicaStatus.initial (role : Role) : ReplicaStatus :=
  ⟨.notSubscribed, role, false, false, false, false, LagSnapshot.initial role⟩

/-- What a replica can be told while it runs. -/
inductive Command where
  | changeRole (role : Role)
  | stop
deriving DecidableEq

end StoreFeed
