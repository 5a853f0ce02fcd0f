import FeatureTree.Assembly.Frame
import FeatureTree.Document.Views
import FeatureTree.Text.Blank
/-!
# Closing a frame

What becomes of a frame when its rule is exited. Eight rules make a part
of the document from the children filed in their frame; every other rule
hands its frame on as a group. A part takes the first line of the kind
that titles it and fails without one; an uneven table fails at its first
row that differs from the first. Nothing is computed but descriptions:
places and texts are those of the lines.
-/

namespace FeatureTree

/-- The first row that is not as wide as the first one. -/
def oddRow? : List TableRow → Option TableRow
  | [] => none
  | first :: rest => rest.find? fun row => row.width != first.width

/-- The rows, if all are as wide as the first; else the first that is not,
with the width it should have and the width it has. -/
def evenRows (rows : List TableRow) : Except Fault (List TableRow) :=
  match oddRow? rows with
  | none => .ok rows
  | some row =>
    .error (.unevenTable row.location ((rows.head?.map TableRow.width).getD 0) row.width)

namespace Frame

/-- The first line of the kind a rule is made from. -/
def require (f : Frame) (kind : TokenKind) : Except Fault Token :=
  match f.token? kind with
  | some line => .ok line
  | none => .error (.contract (.missingToken f.rule kind))

/-- The title and the description of a part titled by a line of `kind`. -/
def titled (f : Frame) (kind : TokenKind) : Except Fault Section :=
  (f.require kind).map fun line => line.titled f.description

/-- The rows of a table, one for each table line. -/
def rows (f : Frame) : Except Fault (List TableRow) :=
  evenRows ((f.tokens .tableRow).map Token.row)

/-- A step: its line and its argument. -/
def toStep (f : Frame) : Except Fault Step :=
  (f.require .stepLine).map fun line =>
    { location := line.location, keyword := line.keyword, text := line.text,
      argument := f.argument }

/-- A doc string: its first delimiter opens it, and every other line is
content. -/
def toDocString (f : Frame) : Except Fault DocString :=
  (f.require .docStringSeparator).map fun opening =>
    { location := opening.location, contentType := opening.text,
      lines := (f.tokens .other).map Token.docLine }

/-- A data table. -/
def toDataTable (f : Frame) : Except Fault DataTable :=
  f.rows.map fun rows => { rows }

/-- A background: its title and its steps. -/
def toBackground (f : Frame) : Except Fault Background :=
  (f.titled .backgroundLine).map fun title => { toSection := title, steps := f.steps }

/-- What a scenario and an outline are both made of, under the tags of
their definition. -/
def toScenario (f : Frame) (kind : TokenKind) (tags : List Tag) : Except Fault Scenario :=
  (f.titled kind).map fun title => { toSection := title, tags, steps := f.steps }

/-- An outline: a scenario with examples. -/
def toOutline (f : Frame) (tags : List Tag) : Except Fault ScenarioOutline :=
  (f.toScenario .outlineLine tags).map fun s => { toScenario := s, examples := f.examples }

/-- A definition: its first scenario, or else its first outline, with the
tags of the definition. -/
def toDefinition (f : Frame) : Except Fault ScenarioDefinition :=
  match f.group? .scenario with
  | some scenario => (scenario.toScenario .scenarioLine f.tags).map .scenario
  | none =>
    match f.group? .outline with
    | some outline => (outline.toOutline f.tags).map .outline
    | none => .error (.contract .noScenario)

/-- An examples table: a missing title comes before uneven rows. -/
def toExamples (f : Frame) : Except Fault ExamplesTable := do
  let title ← f.titled .examplesLine
  let rows ← f.rows
  return { toSection := title, tags := f.tags, rows }

/-- The text of the description lines. -/
def toDescription (f : Frame) : String :=
  describe ((f.tokens .other).map Token.text)

/-- The frame of the feature's header; without one it is as if it had
been empty. -/
def header (f : Frame) : Frame :=
  (f.group? .featureHeader).getD (empty .featureHeader)

/-- A feature: its header with tags, title and description, its
background and its definitions. A feature line without a language leaves
it to `fallback`. -/
def toFeature (fallback : String) (f : Frame) : Except Fault Feature :=
  (f.header.require .featureLine).map fun line =>
    { toSection := line.titled f.header.description
      tags := f.header.tags
      language := line.language.getD fallback
      background := f.background?
      definitions := f.definitions }

/-- **What an exit makes of the frame**: a part of the document, or the
frame itself as a group where the rule makes none. -/
def close (fallback : String) (f : Frame) : Except Fault Child :=
  match f.rule with
  | .step => f.toStep.map .step
  | .docString => f.toDocString.map .docString
  | .dataTable => f.toDataTable.map .dataTable
  | .background => f.toBackground.map .background
  | .definition => f.toDefinition.map .definition
  | .examples => f.toExamples.map .examples
  | .description => .ok (.description f.toDescription)
  | .feature => (f.toFeature fallback).map .feature
  | .root | .featureHeader | .scenario | .outline | .tags | .custom _ =>
    .ok (.group f.rule f.children)

end Frame

end FeatureTree
