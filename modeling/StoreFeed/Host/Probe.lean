import StoreFeed.Metrics.Exposition
import StoreFeed.Metrics.Replicas

/-!
# Probes

What a host answers to those who watch over it: whether it is alive, whether it serves reads, and
what was counted.
-/

namespace StoreFeed

/-- An answer to a probe. -/
structure ProbeAnswer where
  status : Nat
  contentType : Option String
  body : List String
deriving DecidableEq

namespace ProbeAnswer

/-- An answer in one line of text. -/
def text (line : String) : ProbeAnswer := ⟨200, some "text/plain; charset=utf-8", [line]⟩

/-- An answer that is only a status. -/
def bare (status : Nat) : ProbeAnswer := ⟨status, none, []⟩

/-- Everything counted. -/
def scrape (m : Metrics.ReplicaMetrics) : ProbeAnswer :=
  ⟨200, some "text/plain; version=0.0.4", m.families.flatMap Metrics.Family.lines⟩

end ProbeAnswer

/-! ## Targets

A target is a path, or names scheme and authority before one. A query or a fragment may follow. What
is in the path stands for itself: nothing in it is decoded or shortened.
-/

namespace Target

/-- What stands before a query or a fragment. -/
def beforeQuery (cs : List Char) : List Char := cs.takeWhile fun c => c ≠ '?' && c ≠ '#'

/-- Schemes are made of ASCII letters and digits, pluses, hyphens and dots. -/
def isSchemeChar (c : Char) : Bool := c.isAlphanum || c = '+' || c = '-' || c = '.'

/-- What follows scheme and authority, where a target names them. -/
def afterAuthority? (target : List Char) : Option (List Char) :=
  match target.dropWhile isSchemeChar with
  | ':' :: '/' :: '/' :: rest => some (rest.dropWhile fun c => c ≠ '/' && c ≠ '?' && c ≠ '#')
  | _ => none

/-- The path that a target asks for. A target that is only an authority asks for none. -/
def path? (target : String) : Option String :=
  let cs := target.toList
  let rest? := if cs.head? = some '/' then some cs else afterAuthority? cs
  rest?.map fun rest =>
    match beforeQuery rest with
    | [] => "/"
    | path => String.ofList path

end Target

/-! ## Answers -/

/-- Answer a request where only the metrics are served. -/
def answerScrape (m : Metrics.ReplicaMetrics) (target : String) : ProbeAnswer :=
  if Target.path? target = some "/metrics" then .scrape m else .bare 404

/-- Answer a request. -/
def answerProbe (m : Metrics.ReplicaMetrics) (ready : Bool) (target : String) : ProbeAnswer :=
  if Target.path? target = some "/health" then .text "OK"
  else if Target.path? target = some "/ready" then if ready then .text "READY" else .bare 503
  else answerScrape m target

end StoreFeed
