import StoreFeed.SortedMap

/-!
# Metric families

What an operator scrapes: named families of samples. Families are listed by name and the samples of
a family by the values of their labels; a family without samples is not listed. Within a family a
sample is known by a fingerprint of its label values.
-/

namespace StoreFeed.Metrics

/-- Counts of observations up to each of some bounds. -/
structure Histogram where
  /-- Upper bounds, each with the number of observations between it and the bound before. -/
  buckets : List (Float × Nat)
  count : Nat
  sum : Float

namespace Histogram

/-- Nothing observed. -/
def withBounds (bounds : List Float) : Histogram := ⟨bounds.map fun b => (b, 0), 0, 0⟩

/-- Count an observation in the first bucket whose bound it does not exceed. -/
def observeIn (value : Float) : List (Float × Nat) → List (Float × Nat)
  | [] => []
  | (bound, n) :: rest =>
    if value ≤ bound then (bound, n + 1) :: rest else (bound, n) :: observeIn value rest

/-- Observe a value. -/
def observe (h : Histogram) (value : Float) : Histogram :=
  ⟨observeIn value h.buckets, h.count + 1, h.sum + value⟩

/-- Upper bounds, each with the number of observations up to it. -/
def cumulative (h : Histogram) : List (Float × Nat) :=
  (h.buckets.foldl (fun (seen, out) (bound, n) => (seen + n, (bound, seen + n) :: out))
    (0, [])).2.reverse

end Histogram

/-- What a sample shows. -/
inductive Reading where
  | value (v : Float)
  | histogram (h : Histogram)

/-- One sample of a family. -/
structure Sample where
  /-- Names and values of labels, by name. -/
  labels : List (String × String)
  reading : Reading

/-! ## Telling samples apart -/

/-- Take a byte into a fingerprint. -/
def absorb (fingerprint : UInt64) (byte : UInt8) : UInt64 :=
  (fingerprint ^^^ byte.toUInt64) * 0x100000001b3

/-- The fingerprint of label values, by which a family tells its samples apart. The values follow
each other without a mark between them, so values that join to the same text have the same
fingerprint. -/
def fingerprint (values : List String) : UInt64 :=
  values.foldl (fun h value => value.toUTF8.data.foldl absorb h) 0xcbf29ce484222325

/-- Samples by their fingerprints. -/
abbrev Samples := SortedMap UInt64 Sample

/-- Set a sample. Where its fingerprint is taken, the labels that are there stay, and only the
reading changes. -/
def Samples.set (m : Samples) (fingerprint : UInt64) (s : Sample) : Samples :=
  match m.find? fingerprint with
  | some old => m.insert fingerprint { old with reading := s.reading }
  | none => m.insert fingerprint s

/-! ## Families -/

/-- How a family's samples are to be understood. -/
inductive Kind where
  | counter
  | gauge
  | histogram
deriving DecidableEq

/-- The name of a kind. -/
def Kind.label : Kind → String
  | .counter => "counter"
  | .gauge => "gauge"
  | .histogram => "histogram"

/-- Samples of one name. -/
structure Family where
  name : String
  help : String
  kind : Kind
  samples : List Sample

/-- List families by name, leaving out the empty ones. -/
def gather (families : List Family) : List Family :=
  (families.filter fun f => !f.samples.isEmpty).mergeSort fun a b => (compare a.name b.name).isLE

/-- Why a family cannot be set up. -/
inductive FamilyError where
  | emptyHelp
  | invalidName (name : String)

/-- The text shown to operators. -/
def FamilyError.message : FamilyError → String
  | .emptyHelp => "Error: empty help string"
  | .invalidName name => "Error: '" ++ name ++ "' is not a valid metric name"

private def isNameStart (c : Char) : Bool := c.isAlpha || c = '_' || c = ':'

/-- A metric name starts with an ASCII letter, an underscore or a colon, and goes on with those or
ASCII digits. -/
def isValidName (name : String) : Bool :=
  match name.toList with
  | [] => false
  | c :: rest => isNameStart c && rest.all fun c => isNameStart c || c.isDigit

/-- Check name and help of a family. -/
def checkFamily (name help : String) : Except FamilyError Unit :=
  if help.isEmpty then .error .emptyHelp
  else if isValidName name then .ok ()
  else .error (.invalidName name)

end StoreFeed.Metrics
