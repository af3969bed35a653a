import StoreFeed.Decimal.Shortest
import StoreFeed.Metrics.Family

/-!
# The text that a scrape returns

Each family has a line of help, a line that names its kind, and a line for every sample. A histogram
has a line for every bound, with the observations up to it, then the sum and the number of
observations.
-/

namespace StoreFeed.Metrics

/-- Numbers are written without exponent and without a point where they are whole. -/
def numberStyle : Decimal.Style := ⟨-400, 400, false⟩

/-- A number in a sample. -/
def numberText (v : Float) : String :=
  match Binary64.ofFloat? v with
  | some x => String.ofList (numberStyle.render x)
  | none => if v.isNaN then "NaN" else if v > 0 then "inf" else "-inf"

/-- Escape a text; a quote is escaped only where the text stands between quotes. -/
def escape (quoted : Bool) (s : String) : String :=
  String.ofList (s.toList.flatMap fun
    | '\\' => ['\\', '\\']
    | '\n' => ['\\', 'n']
    | '"' => if quoted then ['\\', '"'] else ['"']
    | c => [c])

/-- Labels between braces; nothing where there are none. -/
def labelsText (labels : List (String × String)) : String :=
  if labels.isEmpty then ""
  else
    let items := labels.map fun (name, value) => name ++ "=\"" ++ escape true value ++ "\""
    "\x7b" ++ String.intercalate "," items ++ "\x7d"

/-- One line of a sample. -/
def sampleLine (name : String) (labels : List (String × String)) (number : String) : String :=
  name ++ labelsText labels ++ " " ++ number

/-- The lines of a sample. -/
def Sample.lines (name : String) (s : Sample) : List String :=
  match s.reading with
  | .value v => [sampleLine name s.labels (numberText v)]
  | .histogram h =>
    let bucket (bound : String) (n : Nat) : String :=
      sampleLine (name ++ "_bucket") (s.labels ++ [("le", bound)]) (toString n)
    h.cumulative.map (fun (bound, n) => bucket (numberText bound) n) ++
      [bucket "+Inf" h.count, sampleLine (name ++ "_sum") s.labels (numberText h.sum),
        sampleLine (name ++ "_count") s.labels (toString h.count)]

/-- The lines of a family. -/
def Family.lines (f : Family) : List String :=
  ("# HELP " ++ f.name ++ " " ++ escape false f.help) ::
    ("# TYPE " ++ f.name ++ " " ++ f.kind.label) ::
    f.samples.flatMap (Sample.lines f.name)

end StoreFeed.Metrics
