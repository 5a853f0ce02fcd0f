import FeatureTree.Assembly.Error
import FeatureTree.Json.Basic
import FeatureTree.Log.Severity
/-!
# Log entries

What an assembly tells while it runs. Every entry has a severity, a
message and named fields.
-/

namespace FeatureTree

/-- One entry of the log. -/
inductive Entry where
  /-- A line was met. -/
  | leaf (kind : TokenKind) (location : Location)
  /-- A rule was entered with `depth` rules open around it. -/
  | entered (rule : Rule) (depth : Nat)
  /-- A rule was exited; `sort` is the word for what it became. -/
  | exited (rule : Rule) (sort : String)
  /-- A feature was made. -/
  | made (name language : String) (definitions : Nat)
  /-- A row has another number of cells than the first. -/
  | oddRow (location : Location) (expected actual : Nat)
  /-- An exit does not fit the open rules. -/
  | refused (rule : Rule) (violation : Violation)
  /-- A rule could not be closed. -/
  | failed (rule : Rule) (error : AssemblyError)
  deriving DecidableEq

namespace Entry

/-- How much an entry matters. -/
def severity : Entry → Severity
  | .leaf .. | .entered .. | .exited .. => .trace
  | .made .. => .debug
  | .oddRow .. => .warn
  | .refused .. | .failed .. => .error

/-- What an entry says. -/
def message : Entry → String
  | .leaf .. => "leaf"
  | .entered .. => "enter rule"
  | .exited .. => "exit rule"
  | .made .. => "reduced feature"
  | .oddRow .. => "inconsistent cell count within the table"
  | .refused .. => "rule exit does not match the open rule"
  | .failed .. => "rule could not be reduced"

/-- The fields of an entry by name. -/
def fields : Entry → List (String × Json)
  | .leaf kind location =>
    [("kind", .string kind.name), ("location", .string location.text)]
  | .entered rule depth => [("rule", .string rule.name), ("depth", .number depth)]
  | .exited rule sort => [("rule", .string rule.name), ("reduced", .string sort)]
  | .made name language definitions =>
    [("name", .string name), ("language", .string language), ("scenarios", .number definitions)]
  | .oddRow location expected actual =>
    [("location", .string location.text), ("expected", .number expected),
      ("actual", .number actual)]
  | .refused rule violation =>
    [("rule", .string rule.name), ("error", .string violation.message)]
  | .failed rule error => [("rule", .string rule.name), ("error", .string error.message)]

/-- The entries of a log that matter as much as `threshold` or more. -/
def restrict (threshold : Severity) (log : List Entry) : List Entry :=
  log.filter fun entry => threshold.shows entry.severity

end Entry

end FeatureTree
