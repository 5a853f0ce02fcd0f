import FeatureTree.Document.Basic
/-!
# A document as JSON

Every part is an object of its fields in a fixed order. A definition and
a step argument name their variant in a first member `type`; a feature
without a background has no member for it.
-/

namespace FeatureTree

/-- A list of parts as an array. -/
def Json.listOf {α : Type _} (toJson : α → Json) (items : List α) : Json :=
  .array (items.map toJson)

/-- A tag as an object. -/
def Tag.toJson (tag : Tag) : Json :=
  .object [("location", tag.location.toJson), ("name", .string tag.name)]

/-- A cell as an object. -/
def TableCell.toJson (cell : TableCell) : Json :=
  .object [("location", cell.location.toJson), ("value", .string cell.value)]

/-- A row as an object. -/
def TableRow.toJson (row : TableRow) : Json :=
  .object [("location", row.location.toJson), ("cells", .listOf TableCell.toJson row.cells)]

/-- A line of a doc string as an object. -/
def DocLine.toJson (line : DocLine) : Json :=
  .object [("location", line.location.toJson), ("text", .string line.text)]

/-- A step's argument as an object that names its variant first. -/
def StepArgument.toJson : StepArgument → Json
  | .table grid =>
    .object [("type", .string "DataTable"), ("rows", .listOf TableRow.toJson grid.rows)]
  | .docString doc =>
    .object [("type", .string "DocString"), ("location", doc.location.toJson),
      ("contentType", .string doc.contentType), ("lines", .listOf DocLine.toJson doc.lines)]
  | .empty => .object [("type", .string "Empty")]

/-- A step as an object. -/
def Step.toJson (s : Step) : Json :=
  .object [("location", s.location.toJson), ("keyword", .string s.keyword),
    ("text", .string s.text), ("argument", s.argument.toJson)]

/-- The members that every titled part has in common, in order. -/
def Section.members (s : Section) : List (String × Json) :=
  [("location", s.location.toJson), ("keyword", .string s.keyword), ("name", .string s.name),
    ("description", .string s.description)]

/-- A background as an object. -/
def Background.toJson (b : Background) : Json :=
  .object (b.toSection.members ++ [("steps", .listOf Step.toJson b.steps)])

/-- An examples table as an object. -/
def ExamplesTable.toJson (e : ExamplesTable) : Json :=
  .object (("tags", .listOf Tag.toJson e.tags) :: e.toSection.members ++
    [("rows", .listOf TableRow.toJson e.rows)])

/-- The members that scenarios and outlines have in common, in order. -/
def Scenario.members (s : Scenario) : List (String × Json) :=
  ("tags", .listOf Tag.toJson s.tags) :: s.toSection.members ++
    [("steps", .listOf Step.toJson s.steps)]

/-- A definition as an object that names its variant first. -/
def ScenarioDefinition.toJson : ScenarioDefinition → Json
  | .scenario s => .object (("type", .string "Scenario") :: s.members)
  | .outline o =>
    .object (("type", .string "ScenarioOutline") :: o.toScenario.members ++
      [("examples", .listOf ExamplesTable.toJson o.examples)])

/-- A feature as an object; its background has a member only where there
is one. -/
def Feature.toJson (f : Feature) : Json :=
  .object <|
    [("tags", .listOf Tag.toJson f.tags), ("location", f.location.toJson),
      ("language", .string f.language), ("keyword", .string f.keyword), ("name", .string f.name),
      ("description", .string f.description)] ++
    (f.background.map fun b => ("background", b.toJson)).toList ++
    [("scenarioDefinitions", .listOf ScenarioDefinition.toJson f.definitions)]

end FeatureTree
