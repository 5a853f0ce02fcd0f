import FeatureTree.Location
/-!
# The parts of a feature document

A feature holds its tags, a title with a description, perhaps a
background, and its scenario definitions in document order. A scenario
and a scenario outline share all but the examples, so an outline is a
scenario with examples tables. Every part carries the place it was
written at.
-/

namespace FeatureTree

/-- One tag of a feature, a definition or an examples table. -/
structure Tag where
  location : Location
  name : String
  deriving DecidableEq

/-- One cell of a table row. -/
structure TableCell where
  location : Location
  value : String
  deriving DecidableEq

/-- One row of a table, its cells from left to right. -/
structure TableRow where
  location : Location
  cells : List TableCell
  deriving DecidableEq

/-- The table below a step. -/
structure DataTable where
  rows : List TableRow
  deriving DecidableEq

/-- One line of a doc string, as written. -/
structure DocLine where
  location : Location
  text : String
  deriving DecidableEq

/-- The text block below a step; `contentType` is what follows the opening
delimiter. -/
structure DocString where
  location : Location
  contentType : String
  lines : List DocLine
  deriving DecidableEq

/-- What a step hands to its action beside its text. -/
inductive StepArgument where
  | table (table : DataTable)
  | docString (doc : DocString)
  | empty
  deriving DecidableEq

/-- One step of a background or a scenario. -/
structure Step where
  location : Location
  keyword : String
  text : String
  argument : StepArgument
  deriving DecidableEq

/-- What every titled part of a document starts with: a title line and
the description below it, empty when there is none. -/
structure Section where
  location : Location
  keyword : String
  name : String
  description : String
  deriving DecidableEq

/-- The steps that come before those of every scenario. -/
structure Background extends Section where
  steps : List Step
  deriving DecidableEq

/-- An examples table of an outline; its first row names the columns. -/
structure ExamplesTable extends Section where
  tags : List Tag
  rows : List TableRow
  deriving DecidableEq

/-- A scenario with its own tags and steps. -/
structure Scenario extends Section where
  tags : List Tag
  steps : List Step
  deriving DecidableEq

/-- A scenario that is run once for each row of its examples. -/
structure ScenarioOutline extends Scenario where
  examples : List ExamplesTable
  deriving DecidableEq

/-- A scenario or a scenario outline. -/
inductive ScenarioDefinition where
  | scenario (scenario : Scenario)
  | outline (outline : ScenarioOutline)
  deriving DecidableEq

/-- A whole document: `language` is the dialect its keywords are written
in. -/
structure Feature extends Section where
  tags : List Tag
  language : String
  background : Option Background
  definitions : List ScenarioDefinition
  deriving DecidableEq

end FeatureTree
