import FeatureTree.Document.Basic
import FeatureTree.Text.Lines
/-!
# Reading a document

What is asked of the parts of a document: the values and measures of a
table, the text of a doc string, the fields that scenarios and outlines
share, and the tags in effect for one definition.
-/

namespace FeatureTree

/-- The texts of a row's cells. -/
def TableRow.values (row : TableRow) : List String :=
  row.cells.map TableCell.value

/-- The number of a row's cells. -/
def TableRow.width (row : TableRow) : Nat :=
  row.cells.length

namespace DataTable

/-- A table is where its first row is. -/
def location? (table : DataTable) : Option Location :=
  table.rows.head?.map TableRow.location

/-- A table is as wide as its first row, and of no width without one. -/
def width (table : DataTable) : Nat :=
  (table.rows.head?.map TableRow.width).getD 0

end DataTable

/-- The lines of a doc string as one text. -/
def DocString.content (doc : DocString) : String :=
  joinLines (doc.lines.map DocLine.text)

/-- Whether a step has no argument. -/
def StepArgument.isEmpty : StepArgument → Bool
  | .empty => true
  | .table _ | .docString _ => false

namespace Step

/-- The table below a step, if its argument is one. -/
def table? (s : Step) : Option DataTable :=
  match s.argument with
  | .table table => some table
  | .docString _ | .empty => none

/-- The doc string below a step, if its argument is one. -/
def docString? (s : Step) : Option DocString :=
  match s.argument with
  | .docString doc => some doc
  | .table _ | .empty => none

end Step

namespace ExamplesTable

/-- The row that names the columns. -/
def header? (examples : ExamplesTable) : Option TableRow :=
  examples.rows.head?

/-- The rows below the header. -/
def body (examples : ExamplesTable) : List TableRow :=
  examples.rows.tail

end ExamplesTable

namespace ScenarioDefinition

/-- What a definition holds whichever of the two it is: its title, its
description, its tags and its steps. -/
def shared : ScenarioDefinition → Scenario
  | .scenario s => s
  | .outline o => o.toScenario

/-- The examples tables of a definition; a plain scenario has none. -/
def examples : ScenarioDefinition → List ExamplesTable
  | .scenario _ => []
  | .outline o => o.examples

/-- Whether a definition is an outline. -/
def isOutline : ScenarioDefinition → Bool
  | .scenario _ => false
  | .outline _ => true

end ScenarioDefinition

/-- The names of the tags in effect for the definition at `index`: the
feature's and then its own. Past the last definition only the feature's
are left. -/
def Feature.effectiveTags (f : Feature) (index : Nat) : List String :=
  let own := (f.definitions[index]?.map fun d => d.shared.tags).getD []
  (f.tags ++ own).map Tag.name

end FeatureTree
