import FeatureTree.Text.Case
/-!
# Severities

How much a log entry matters, from the finest trace to an error, and the
names by which settings choose one.
-/

namespace FeatureTree

/-- How much a log entry matters. -/
inductive Severity where
  | trace
  | debug
  | info
  | warn
  | error
  deriving DecidableEq

namespace Severity

/-- All severities, the least first. -/
def all : List Severity :=
  [.trace, .debug, .info, .warn, .error]

/-- The place of a severity among all, the least first. -/
def rank : Severity → Nat
  | .trace => 0
  | .debug => 1
  | .info => 2
  | .warn => 3
  | .error => 4

/-- Whether a log set to `threshold` shows an entry of severity `s`: the
threshold itself and all that matters more. -/
def shows (threshold s : Severity) : Bool :=
  threshold.rank ≤ s.rank

/-- The name of a severity in settings. -/
def name : Severity → String
  | .trace => "trace"
  | .debug => "debug"
  | .info => "info"
  | .warn => "warn"
  | .error => "error"

/-- The word a log line starts with. -/
def label : Severity → String
  | .trace => "TRACE"
  | .debug => "DEBUG"
  | .info => "INFO"
  | .warn => "WARN"
  | .error => "ERROR"

/-- The names that settings may use; `warning` is a second one for
`warn`. -/
def names : List (String × Severity) :=
  ("warning", .warn) :: all.map fun s => (s.name, s)

/-- The severity with a name, whatever its case. Nothing is trimmed. -/
def named? (name : String) : Option Severity :=
  names.lookup (lower name)

end Severity

end FeatureTree
