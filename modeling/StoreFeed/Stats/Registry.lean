import StoreFeed.SortedMap
import StoreFeed.Word
import StoreFeed.Metrics.Family

/-!
# Readings by version and in total

A store has one payload of statistics for each of its versions and one for the store in total.
Recording reaches both. Payloads come and go, but what an operator watches must not: a `Reporter`
for each store and scope keeps its gauges for ever and is bound to the payload that currently
belongs to the scope, or to none, in which case every gauge reads its default.

Payloads are numbered in the order of their creation. The registry says which number belongs to a
scope, and a reporter says which number it is bound to, so that the two can be compared.
-/

namespace StoreFeed.Stats

/-- Whom a reading is about: one version of a store, or the store in total. -/
inductive Scope where
  | version (n : UInt32)
  | total
deriving DecidableEq

namespace Scope

/-- The name shown to operators. -/
def label : Scope → String
  | .version n => toString n.toNat
  | .total => "total"

/-- Versions by number, then the total. -/
def rank : Scope → Nat
  | .version n => n.toNat
  | .total => 4294967296

instance : Ord Scope := ⟨compareOn rank⟩

instance : Std.TransOrd Scope := inferInstanceAs (Std.TransCmp (compareOn rank))

theorem rank_injective {a b : Scope} (h : a.rank = b.rank) : a = b := by
  cases a with
  | version m =>
    cases b with
    | version n => rw [UInt32.toNat_inj.1 h]
    | total => exact absurd h (Nat.ne_of_lt m.toNat_lt)
  | total =>
    cases b with
    | version n => exact absurd h.symm (Nat.ne_of_lt n.toNat_lt)
    | total => rfl

instance : Std.LawfulEqOrd Scope where
  eq_of_compare h := rank_injective (Std.LawfulEqOrd.compare_eq_iff_eq.1 h)

end Scope

/-- A scope of a store. -/
structure ScopeKey where
  store : String
  scope : Scope
deriving DecidableEq

namespace ScopeKey

instance : Ord ScopeKey := ⟨compareLex (compareOn store) (compareOn scope)⟩

instance : Std.TransOrd ScopeKey :=
  inferInstanceAs (Std.TransCmp (compareLex (compareOn store) (compareOn scope)))

instance : Std.LawfulEqOrd ScopeKey where
  eq_of_compare {a b} h := by
    obtain ⟨hs, hc⟩ : compare a.store b.store = .eq ∧ compare a.scope b.scope = .eq :=
      Ordering.then_eq_eq.1 h
    cases a
    cases b
    simp_all

end ScopeKey

/-- The number of a payload. -/
abbrev PayloadId := Nat

/-- How to read one figure from a payload. Reading at an instant may roll the payload's windows, and
may run out of range. -/
structure Gauge (S : Type) where
  read : Int → S → Except Overflow Float × S
  /-- What is read while there is no payload. -/
  default : Float

/-- The gauges of one scope, and the payload they read. -/
structure Reporter (S : Type) where
  bound : Option PayloadId
  gauges : SortedMap String (Gauge S)
  /-- Groups of gauges that were registered. -/
  groups : SortedSet String

namespace Reporter

variable {S : Type}

/-- A reporter without gauges and payload. -/
def empty : Reporter S := ⟨none, SortedMap.empty, SortedMap.empty⟩

/-- Add a gauge; a name that is taken keeps its gauge. -/
def register (r : Reporter S) (name : String) (s : Gauge S) : Reporter S :=
  { r with gauges := r.gauges.insertNew name s }

/-- Add several gauges. -/
def registerAll (r : Reporter S) (gauges : List (String × Gauge S)) : Reporter S :=
  gauges.foldl (fun r e => r.register e.1 e.2) r

/-- Add the gauges of a group unless that was done before, and say whether they were added. -/
def registerOnce (r : Reporter S) (group : String) (gauges : List (String × Gauge S)) :
    Bool × Reporter S :=
  if r.groups.contains group then (false, r)
  else
    let r := r.registerAll gauges
    (true, { r with groups := r.groups.add group })

end Reporter

/-- Payloads and reporters of all stores. -/
structure Registry (S : Type) where
  /-- Gauges that every reporter starts with. -/
  baseGauges : List (String × Gauge S)
  /-- All payloads ever created, by number. -/
  payloads : Array S
  /-- The payload that belongs to a scope. -/
  held : SortedMap ScopeKey PayloadId
  reporters : SortedMap ScopeKey (Reporter S)

namespace Registry

variable {S α : Type}

/-- A registry without stores. -/
def empty (baseGauges : List (String × Gauge S)) : Registry S :=
  ⟨baseGauges, #[], SortedMap.empty, SortedMap.empty⟩

/-! ## Payloads -/

/-- Number a new payload. -/
def create (r : Registry S) (payload : S) : PayloadId × Registry S :=
  (r.payloads.size, { r with payloads := r.payloads.push payload })

/-- The payload of a scope, which becomes `fresh` if there is none. -/
def hold (r : Registry S) (key : ScopeKey) (fresh : S) : PayloadId × Registry S :=
  match r.held.find? key with
  | some id => (id, r)
  | none =>
    let (id, r) := r.create fresh
    (id, { r with held := r.held.insert key id })

/-- The reporter of a scope. -/
def reporter? (r : Registry S) (key : ScopeKey) : Option (Reporter S) := r.reporters.find? key

/-- Change the reporter of a scope, if there is one. -/
def modifyReporter (r : Registry S) (key : ScopeKey) (f : Reporter S → Reporter S) : Registry S :=
  { r with reporters := r.reporters.modify key f }

/-- Bind the reporter of a scope, which is created if there is none. -/
def attach (r : Registry S) (key : ScopeKey) (id : PayloadId) : Registry S :=
  let reporter := (r.reporter? key).getD (Reporter.empty.registerAll r.baseGauges)
  { r with reporters := r.reporters.insert key { reporter with bound := some id } }

/-- Make sure that a version and its store have payloads, and bind their reporters to them. -/
def getOrCreate (r : Registry S) (store : String) (version : UInt32) (fresh : S) : Registry S :=
  let (v, r) := r.hold ⟨store, .version version⟩ fresh
  let (t, r) := r.hold ⟨store, .total⟩ fresh
  (r.attach ⟨store, .version version⟩ v).attach ⟨store, .total⟩ t

/-- The payload that belongs to a scope. -/
def payload? (r : Registry S) (key : ScopeKey) : Option S :=
  (r.held.find? key).bind fun id => r.payloads[id]?

/-- Change the payload of a number. -/
def modifyPayload (r : Registry S) (id : PayloadId) (f : S → S) : Registry S :=
  { r with payloads := r.payloads.modify id f }

/-- Change the payload that belongs to a scope, if there is one. -/
def modifyHeld (r : Registry S) (key : ScopeKey) (f : S → S) : Registry S :=
  match r.held.find? key with
  | some id => r.modifyPayload id f
  | none => r

/-- Record into the total and into a version. -/
def withBoth (r : Registry S) (store : String) (version : UInt32) (f : S → S) : Registry S :=
  (r.modifyHeld ⟨store, .total⟩ f).modifyHeld ⟨store, .version version⟩ f

/-- Measure the payload that belongs to a scope, if there is one. -/
def measureHeld (r : Registry S) (key : ScopeKey) (f : S → α × S) : Option α × Registry S :=
  match r.held.find? key with
  | none => (none, r)
  | some id =>
    match r.payloads[id]? with
    | none => (none, r)
    | some payload =>
      let (a, payload) := f payload
      (some a, { r with payloads := r.payloads.setIfInBounds id payload })

/-- Bind a reporter to a payload that belongs to no scope. -/
def bindFresh (r : Registry S) (key : ScopeKey) (payload : S) : Registry S :=
  let (id, r) := r.create payload
  r.modifyReporter key fun reporter => { reporter with bound := some id }

/-- Bind a reporter to no payload. -/
def unbind (r : Registry S) (key : ScopeKey) : Registry S :=
  r.modifyReporter key fun reporter => { reporter with bound := none }

/-- Take the payload from a version and unbind its reporter; say whether there was a payload. -/
def removeVersion (r : Registry S) (store : String) (version : UInt32) : Bool × Registry S :=
  let key : ScopeKey := ⟨store, .version version⟩
  (r.held.contains key, { r with held := r.held.erase key }.unbind key)

/-- Take all payloads from a store and unbind its reporters. -/
def removeStore (r : Registry S) (store : String) : Registry S :=
  { r with
    held := r.held.filter fun key _ => key.store != store
    reporters := r.reporters.map fun key reporter =>
      if key.store = store then { reporter with bound := none } else reporter }

/-! ## Readings -/

/-- Read one gauge of a payload, or its default. -/
def readGauge (r : Registry S) (now : Int) (bound : Option PayloadId) (s : Gauge S) :
    Except Overflow Float × Registry S :=
  match bound with
  | none => (.ok s.default, r)
  | some id =>
    match r.payloads[id]? with
    | none => (.ok s.default, r)
    | some payload =>
      let (v, payload) := s.read now payload
      (v, { r with payloads := r.payloads.setIfInBounds id payload })

/-- Read a gauge of a scope, if there is one of that name. -/
def read (r : Registry S) (now : Int) (key : ScopeKey) (name : String) :
    Option (Except Overflow Float) × Registry S :=
  match (r.reporter? key).bind fun reporter =>
      (reporter.gauges.find? name).map fun s => (reporter.bound, s) with
  | none => (none, r)
  | some (bound, s) =>
    let (v, r) := r.readGauge now bound s
    (some v, r)

/-- Read gauges in order, up to the first that is out of range. -/
def readGauges (now : Int) (bound : Option PayloadId) :
    List (String × Gauge S) → Registry S → Except Overflow (List (String × Float)) × Registry S
  | [], r => (.ok [], r)
  | (name, s) :: rest, r =>
    match r.readGauge now bound s with
    | (.error e, r) => (.error e, r)
    | (.ok v, r) =>
      match readGauges now bound rest r with
      | (.error e, r) => (.error e, r)
      | (.ok vs, r) => (.ok ((name, v) :: vs), r)

/-- Read all gauges of a reporter. -/
def snapshot (r : Registry S) (now : Int) (reporter : Reporter S) :
    Except Overflow (List (String × Float)) × Registry S :=
  readGauges now reporter.bound reporter.gauges.entries r

/-- One figure of one scope. -/
structure Figure where
  key : ScopeKey
  gauge : String
  value : Float

/-- Read all gauges of some reporters in order, up to the first that is out of range. -/
def readReporters (now : Int) :
    List (ScopeKey × Reporter S) → Registry S → Except Overflow (List Figure) × Registry S
  | [], r => (.ok [], r)
  | (key, reporter) :: rest, r =>
    match r.snapshot now reporter with
    | (.error e, r) => (.error e, r)
    | (.ok vs, r) =>
      match readReporters now rest r with
      | (.error e, r) => (.error e, r)
      | (.ok figures, r) => (.ok (vs.map (fun (name, v) => ⟨key, name, v⟩) ++ figures), r)

/-- Read everything, by store, scope and gauge. -/
def readings (r : Registry S) (now : Int) : Except Overflow (List Figure) × Registry S :=
  readReporters now r.reporters.entries r

/-- The figure as a sample. -/
def Figure.sample (f : Figure) : Metrics.Sample :=
  ⟨[("sensor", f.gauge), ("store", f.key.store), ("version", f.key.scope.label)], .value f.value⟩

/-- What the figure's sample is known by. -/
def Figure.fingerprint (f : Figure) : UInt64 :=
  Metrics.fingerprint [f.key.store, f.key.scope.label, f.gauge]

/-- Everything read, as one family of gauges, set in the order of reading. -/
def family (name help : String) (figures : List Figure) : Metrics.Family :=
  let samples : Metrics.Samples :=
    figures.foldl (fun m f => m.set f.fingerprint f.sample) SortedMap.empty
  ⟨name, help, .gauge,
    samples.values.mergeSort fun a b => (compare (a.labels.map (·.2)) (b.labels.map (·.2))).isLE⟩

/-- Read everything for a scrape. -/
def collect (r : Registry S) (now : Int) (name help : String) :
    Except Overflow (List Metrics.Family) × Registry S :=
  let (figures, r) := r.readings now
  (figures.map fun figures => Metrics.gather [family name help figures], r)

end Registry

end StoreFeed.Stats
