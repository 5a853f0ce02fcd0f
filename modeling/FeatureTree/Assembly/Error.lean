import FeatureTree.Grammar.Rule
/-!
# What can go wrong at an exit

An exit fails for one of two reasons. The document may hold an uneven
table, which is its author's fault and has a place. Or the events broke
the contract of the grammar, which no document can cause. A `Fault` is an
error with what the log tells about it beside the error itself.
-/

namespace FeatureTree

/-- A breach of the grammar's contract. -/
inductive Violation where
  /-- The innermost open rule is another than the one exited. -/
  | crossedExit (opened found : Rule)
  /-- No rule is open. -/
  | exitAtRoot (rule : Rule)
  /-- A definition holds neither a scenario nor an outline. -/
  | noScenario
  /-- A rule lacks the line it is made from. -/
  | missingToken (rule : Rule) (kind : TokenKind)
  deriving DecidableEq

/-- The violation in words. -/
def Violation.message : Violation → String
  | .crossedExit opened found =>
    "exit of rule " ++ found.name ++ " while rule " ++ opened.name ++ " is open"
  | .exitAtRoot rule => "exit of rule " ++ rule.name ++ " with no open rule"
  | .noScenario => "scenario definition contains neither a scenario nor a scenario outline"
  | .missingToken rule kind => "rule " ++ rule.name ++ " has no " ++ kind.name ++ " token"

/-- Why an exit failed. -/
inductive AssemblyError where
  /-- The row at this place has another number of cells than the first
  row of its table. -/
  | unevenTable (location : Location)
  /-- The events broke the contract. -/
  | contract (violation : Violation)
  deriving DecidableEq

namespace AssemblyError

/-- Whether the document itself is at fault. -/
def isStructural : AssemblyError → Bool
  | .unevenTable _ => true
  | .contract _ => false

/-- The place in the document that is at fault. -/
def location? : AssemblyError → Option Location
  | .unevenTable location => some location
  | .contract _ => none

/-- The breach of contract behind an error. -/
def violation? : AssemblyError → Option Violation
  | .unevenTable _ => none
  | .contract violation => some violation

/-- The error in words. -/
def message : AssemblyError → String
  | .unevenTable location =>
    location.text ++ ": inconsistent cell count within the table"
  | .contract violation => "internal grammar error: " ++ violation.message

end AssemblyError

/-- A failure with the numbers that the log gives: `expected` cells as in
the first row, `actual` cells in the row at `location`. -/
inductive Fault where
  | unevenTable (location : Location) (expected actual : Nat)
  | contract (violation : Violation)
  deriving DecidableEq

/-- The error of a failure. -/
def Fault.error : Fault → AssemblyError
  | .unevenTable location _ _ => .unevenTable location
  | .contract violation => .contract violation

end FeatureTree
