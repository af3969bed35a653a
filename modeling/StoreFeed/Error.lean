import StoreFeed.Json.Printer
import StoreFeed.Update.Schema

/-!
# Errors

`DataError` says what is wrong with a name, a value or an update; `IngestionError` says why a
replica could not go on. Their texts are shown to operators.
-/

namespace StoreFeed

open Json

/-- What is wrong with a piece of data. -/
inductive DataError where
  | invalidTopic (name : String)
  /-- An update names a field that the schema lacks. -/
  | unknownField (field : String)
  /-- An operation on a field of another kind. -/
  | kindMismatch (field : String) (expected actual : FieldKind)
  /-- The stored value is not an object. -/
  | notAnObject (found : Value)
  /-- A list operation meets a stored field that is not a list. -/
  | notAList (field : String) (found : Value)
  /-- A map operation meets a stored field that is not a map. -/
  | notAMap (field : String) (found : Value)
  /-- Stored bytes are not a JSON document. -/
  | malformed

namespace DataError

/-- The text shown to operators. -/
def message : DataError → String
  | .invalidTopic name => "Invalid topic name: " ++ name
  | .unknownField field => "Unknown field in write-compute record: " ++ field
  | .kindMismatch field expected actual =>
    "Field " ++ field ++ " is a " ++ expected.label ++ " field, got a " ++ actual.label ++
      " operation"
  | .notAnObject found => "Stored value is not a record: " ++ found.render
  | .notAList field found =>
    "Stored value is not a record: field " ++ field ++ " holds " ++ found.render ++
      ", expected a list"
  | .notAMap field found =>
    "Stored value is not a record: field " ++ field ++ " holds " ++ found.render ++
      ", expected a map"
  | .malformed => ""

/-- The code that readings report for the error. -/
def code : DataError → Int
  | .invalidTopic _ => 1
  | .unknownField _ => 2
  | .kindMismatch .. => 3
  | .notAnObject _ | .notAList .. | .notAMap .. => 4
  | .malformed => 5

end DataError

/-- Why a replica could not go on. -/
inductive IngestionError where
  | sourceUnavailable (reason : String)
  | storage (reason : String)
  | merge (cause : DataError)
  | configuration (reason : String)
  /-- The replica's task did not end on its own. -/
  | join

namespace IngestionError

/-- The label that counts errors of this kind. -/
def kind : IngestionError → String
  | .sourceUnavailable _ => "source_unavailable"
  | .storage _ => "storage"
  | .merge _ => "write_compute"
  | .configuration _ => "configuration"
  | .join => "join"

/-- The text shown to operators. -/
def message : IngestionError → String
  | .sourceUnavailable reason => "Source unavailable: " ++ reason
  | .storage reason => "Storage error: " ++ reason
  | .merge .malformed => ""
  | .merge cause => "Write-compute error: " ++ cause.message
  | .configuration reason => "Configuration error: " ++ reason
  | .join => ""

/-- Whether the source is away and the operation is to be tried again. -/
def isRetriable : IngestionError → Bool
  | .sourceUnavailable _ => true
  | _ => false

/-- Whether processing a record failed. -/
def isProcessing : IngestionError → Bool
  | .storage _ | .merge _ => true
  | _ => false

/-- The code of a merge failure; zero for all else. -/
def code : IngestionError → Int
  | .merge cause => cause.code
  | _ => 0

end IngestionError

end StoreFeed
