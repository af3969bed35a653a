import StoreFeed.SortedMap
import StoreFeed.Decimal.Natural

/-!
# Replicas and the topics they read

A replica is one partition of one version of a store. A version of a store has one topic, which
carries its batch push and everything a leader publishes again; a store has one real-time topic, or
one in every region. Topic names are built from the store's name and parsed back.
-/

namespace StoreFeed

/-- A region that owns a real-time topic. -/
abbrev RegionId := UInt32

/-- What a replica does for its partition. -/
inductive Role where
  | leader
  | standby
deriving DecidableEq

/-- The name shown to operators. -/
def Role.label : Role → String
  | .leader => "LEADER"
  | .standby => "STANDBY"

/-- One partition of one version of a store. -/
structure ReplicaId where
  store : String
  version : UInt32
  partition : UInt32
deriving DecidableEq

/-- One partition of a topic, in a region or in none. -/
structure TopicPartition where
  topic : String
  partition : UInt32
  region : Option RegionId
deriving DecidableEq

/-! ## Names -/

/-- What stands between a store's name and the version in the name of a version topic. -/
def versionMark : List Char := ['_', 'v']

/-- What follows a store's name in the name of its real-time topic. -/
def realTimeMark : List Char := ['_', 'r', 't']

/-- The name of a version's topic. -/
def versionTopicName (store : String) (version : UInt32) : String :=
  String.ofList (store.toList ++ versionMark ++ Nat.toDigits 10 version.toNat)

/-- The name of a store's real-time topic. -/
def realTimeTopicName (store : String) : String :=
  String.ofList (store.toList ++ realTimeMark)

/-- What a topic is for. -/
inductive TopicKind where
  | version (store : String) (version : UInt32)
  | realTime (store : String)
deriving DecidableEq

/-- Cut a text at the last occurrence of the version mark. -/
def splitAtLastMark : List Char → Option (List Char × List Char)
  | [] => none
  | c :: rest =>
    match splitAtLastMark rest with
    | some (before, after) => some (c :: before, after)
    | none =>
      match rest with
      | d :: after => if [c, d] = versionMark then some ([], after) else none
      | [] => none

/-- The store and version of a version topic's name. -/
def parseVersionTopic? (name : List Char) : Option TopicKind := do
  let (store, digits) ← splitAtLastMark name
  if store.isEmpty then none
  let version ← Decimal.naturalUpTo? Decimal.maxWord32 digits
  pure (.version (String.ofList store) (UInt32.ofNat version))

/-- The store of a real-time topic's name. -/
def parseRealTimeTopic? (name : List Char) : Option TopicKind := do
  let store ← List.isSuffixOf? realTimeMark name
  if store.isEmpty then none
  pure (.realTime (String.ofList store))

/-- What a topic of this name is for. A name of both shapes is a real-time topic. -/
def parseTopic? (name : String) : Option TopicKind :=
  (parseRealTimeTopic? name.toList).or (parseVersionTopic? name.toList)

namespace ReplicaId

/-- The replica's partition of its version topic. -/
def versionTopic (r : ReplicaId) : TopicPartition :=
  ⟨versionTopicName r.store r.version, r.partition, none⟩

/-- The replica's partition of the real-time topic in a region. -/
def realTimeTopic (r : ReplicaId) (region : Option RegionId) : TopicPartition :=
  ⟨realTimeTopicName r.store, r.partition, region⟩

/-- A version topic is no real-time topic. -/
theorem versionTopic_ne_realTimeTopic (r : ReplicaId) (region : Option RegionId) :
    r.versionTopic.topic ≠ (r.realTimeTopic region).topic := by
  intro h
  have h : r.store.toList ++ versionMark ++ Nat.toDigits 10 r.version.toNat =
      r.store.toList ++ realTimeMark := String.ofList_injective h
  rw [List.append_assoc] at h
  have h := List.append_cancel_left h
  simp [versionMark, realTimeMark] at h

/-- The name shown to operators. -/
def label (r : ReplicaId) : String :=
  versionTopicName r.store r.version ++ "-" ++ toString r.partition.toNat

end ReplicaId

/-- The name shown to operators. -/
def TopicPartition.label (tp : TopicPartition) : String :=
  tp.topic ++ "-" ++ toString tp.partition.toNat ++
    match tp.region with
    | some region => "@r" ++ toString region.toNat
    | none => ""

/-! ## Order

Replicas and topic partitions are ordered field by field; no region comes before any region. -/

namespace ReplicaId

instance : Ord ReplicaId :=
  ⟨compareLex (compareOn store) (compareLex (compareOn version) (compareOn partition))⟩

instance : Std.TransOrd ReplicaId :=
  inferInstanceAs (Std.TransCmp
    (compareLex (compareOn store) (compareLex (compareOn version) (compareOn partition))))

instance : Std.LawfulEqOrd ReplicaId where
  eq_of_compare {a b} h := by
    obtain ⟨hs, h⟩ := Ordering.then_eq_eq.1 h
    obtain ⟨hv, hp⟩ := Ordering.then_eq_eq.1 h
    replace hs : compare a.store b.store = .eq := hs
    replace hv : compare a.version b.version = .eq := hv
    replace hp : compare a.partition b.partition = .eq := hp
    cases a
    cases b
    simp_all

end ReplicaId

namespace TopicPartition

instance : Ord TopicPartition :=
  ⟨compareLex (compareOn topic) (compareLex (compareOn partition) (compareOn region))⟩

instance : Std.TransOrd TopicPartition :=
  inferInstanceAs (Std.TransCmp
    (compareLex (compareOn topic) (compareLex (compareOn partition) (compareOn region))))

instance : Std.LawfulEqOrd TopicPartition where
  eq_of_compare {a b} h := by
    obtain ⟨ht, h⟩ := Ordering.then_eq_eq.1 h
    obtain ⟨hp, hr⟩ := Ordering.then_eq_eq.1 h
    replace ht : compare a.topic b.topic = .eq := ht
    replace hp : compare a.partition b.partition = .eq := hp
    replace hr : compare a.region b.region = .eq := hr
    cases a
    cases b
    simp_all

end TopicPartition

end StoreFeed
