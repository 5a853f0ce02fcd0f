import FeatureTree.Json.Basic
/-!
# Places in a document

A place is a line and a column. Places are ordered by line and then by
column, and written as `(line:column)`.
-/

namespace FeatureTree

/-- A line of a document and a column in it. -/
structure Location where
  line : Nat
  column : Nat
  deriving DecidableEq

namespace Location

/-- The place at another column of the same line. -/
def atColumn (l : Location) (column : Nat) : Location :=
  { l with column }

/-- The line decides, and the column between places on one line. -/
instance : Ord Location where
  compare a b := (compare a.line b.line).then (compare a.column b.column)

/-- The place as messages show it. -/
def text (l : Location) : String :=
  "(" ++ toString l.line ++ ":" ++ toString l.column ++ ")"

/-- The place as an object of its two numbers. -/
def toJson (l : Location) : Json :=
  .object [("line", .number l.line), ("column", .number l.column)]

end Location

end FeatureTree
