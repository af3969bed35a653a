import StoreFeed.Stats.Registry
import StoreFeed.Text.Hidden

/-!
# Describing a reporter in a log line

Store and gauge names stand in double quotes, where double quotes, backslashes and hidden characters
are escaped, so that a line shows all there is in a name.
-/

namespace StoreFeed.Stats

/-- A character inside double quotes. -/
def escapeChar (c : Char) : List Char :=
  if c = '"' then ['\\', '"']
  else if c = '\\' then ['\\', '\\']
  else if c = '\n' then ['\\', 'n']
  else if c = '\r' then ['\\', 'r']
  else if c = '\t' then ['\\', 't']
  else if c = '\x00' then ['\\', '0']
  else if Text.isHidden c then
    ['\\', 'u', '{'] ++ Nat.toDigits 16 c.toNat ++ ['}']
  else [c]

/-- A text in double quotes. -/
def quoted (s : String) : String := "\"" ++ String.ofList (s.toList.flatMap escapeChar) ++ "\""

/-- The scope as a log line names it. -/
def Scope.describe : Scope → String
  | .version n => "Version(" ++ toString n.toNat ++ ")"
  | .total => "Total"

/-- Store, scope and gauge names of a reporter. -/
def Reporter.describe {S : Type} (r : Reporter S) (key : ScopeKey) : String :=
  "StatsReporter \x7b store: " ++ quoted key.store ++ ", scope: " ++ key.scope.describe ++
    ", sensors: [" ++ ", ".intercalate (r.gauges.keys.map quoted) ++ "] \x7d"

end StoreFeed.Stats
