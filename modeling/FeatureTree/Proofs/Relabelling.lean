import FeatureTree.Assembly.Run
/-!
# Relabellings

A relabelling changes what a document carries along without looking into
it: the numbers of lines and columns, keywords, the texts of titles and
of spans. It acts on a line of the document and on every part that is
made of lines. What is left alone is what is looked into, the lines of
descriptions and doc strings, and what no line but the feature line
names, the language.
-/

namespace FeatureTree

/-- A map for each of the things that a document carries; none of them
need be one-to-one. -/
structure Relabelling where
  line : Nat → Nat
  column : Nat → Nat
  keyword : String → String
  text : String → String
  span : String → String

namespace Relabelling

/-- The relabelling that changes nothing. -/
def unchanged : Relabelling where
  line := id
  column := id
  keyword := id
  text := id
  span := id

variable (m : Relabelling)

/-! ## On the parts of a document -/

def location (l : Location) : Location :=
  { line := m.line l.line, column := m.column l.column }

def tag (t : Tag) : Tag :=
  { location := m.location t.location, name := m.span t.name }

def cell (c : TableCell) : TableCell :=
  { location := m.location c.location, value := m.span c.value }

def row (row : TableRow) : TableRow :=
  { location := m.location row.location, cells := row.cells.map m.cell }

def dataTable (grid : DataTable) : DataTable :=
  { rows := grid.rows.map m.row }

/-- The text of a doc string's line stays. -/
def docLine (line : DocLine) : DocLine :=
  { line with location := m.location line.location }

def docString (doc : DocString) : DocString :=
  { location := m.location doc.location
    contentType := m.text doc.contentType
    lines := doc.lines.map m.docLine }

def argument : StepArgument → StepArgument
  | .table grid => .table (m.dataTable grid)
  | .docString doc => .docString (m.docString doc)
  | .empty => .empty

def step (s : Step) : Step :=
  { location := m.location s.location
    keyword := m.keyword s.keyword
    text := m.text s.text
    argument := m.argument s.argument }

/-- The description below a title stays. -/
def title (s : Section) : Section :=
  { s with
    location := m.location s.location
    keyword := m.keyword s.keyword
    name := m.text s.name }

def background (b : Background) : Background :=
  { toSection := m.title b.toSection, steps := b.steps.map m.step }

def examples (e : ExamplesTable) : ExamplesTable :=
  { toSection := m.title e.toSection, tags := e.tags.map m.tag, rows := e.rows.map m.row }

def scenario (s : Scenario) : Scenario :=
  { toSection := m.title s.toSection, tags := s.tags.map m.tag, steps := s.steps.map m.step }

def outline (o : ScenarioOutline) : ScenarioOutline :=
  { toScenario := m.scenario o.toScenario, examples := o.examples.map m.examples }

def definition : ScenarioDefinition → ScenarioDefinition
  | .scenario s => .scenario (m.scenario s)
  | .outline o => .outline (m.outline o)

/-- The language of a feature stays. -/
def feature (f : Feature) : Feature :=
  { toSection := m.title f.toSection
    tags := f.tags.map m.tag
    language := f.language
    background := f.background.map m.background
    definitions := f.definitions.map m.definition }

/-- A breach of contract has no place. -/
def error : AssemblyError → AssemblyError
  | .unevenTable location => .unevenTable (m.location location)
  | .contract violation => .contract violation

/-- What comes of a run, relabelled: the place of its error, or its
feature. -/
def outcome : Outcome → Outcome
  | .error error => .error (m.error error)
  | .ok made => .ok (made.map m.feature)

/-! ## On the lines of a document -/

/-- A line, relabelled. The text of one that may go into a description or
a doc string stays. -/
def token (t : Token) : Token :=
  { t with
    location := m.location t.location
    keyword := m.keyword t.keyword
    text := if t.kind = .other then t.text else m.text t.text
    spans := t.spans.map fun s => { column := m.column s.column, text := m.span s.text } }

/-- Rules have nothing to relabel. -/
def event : Event → Event
  | .enter rule => .enter rule
  | .leaf token => .leaf (m.token token)
  | .exit rule => .exit rule

/-- A row keeps its width. -/
@[simp] theorem width_row (row : TableRow) : (m.row row).width = row.width :=
  List.length_map ..

/-! ## Changing nothing -/

@[simp] theorem keyword_unchanged : unchanged.keyword = id := rfl

@[simp] theorem text_unchanged : unchanged.text = id := rfl

@[simp] theorem location_unchanged : unchanged.location = id := rfl

@[simp] theorem tag_unchanged : unchanged.tag = id := rfl

@[simp] theorem cell_unchanged : unchanged.cell = id := rfl

@[simp] theorem docLine_unchanged : unchanged.docLine = id := rfl

@[simp] theorem title_unchanged : unchanged.title = id := rfl

@[simp] theorem row_unchanged : unchanged.row = id := by
  funext r
  simp [row]

@[simp] theorem dataTable_unchanged : unchanged.dataTable = id := by
  funext grid
  simp [dataTable]

@[simp] theorem docString_unchanged : unchanged.docString = id := by
  funext doc
  simp [docString]

@[simp] theorem argument_unchanged : unchanged.argument = id := by
  funext a
  cases a <;> simp [argument]

@[simp] theorem step_unchanged : unchanged.step = id := by
  funext s
  simp [step]

@[simp] theorem background_unchanged : unchanged.background = id := by
  funext b
  simp [background]

@[simp] theorem examples_unchanged : unchanged.examples = id := by
  funext e
  simp [examples]

@[simp] theorem scenario_unchanged : unchanged.scenario = id := by
  funext s
  simp [scenario]

@[simp] theorem outline_unchanged : unchanged.outline = id := by
  funext o
  simp [outline]

@[simp] theorem definition_unchanged : unchanged.definition = id := by
  funext d
  cases d <;> simp [definition]

/-- Changing nothing leaves a feature as it is. -/
@[simp] theorem feature_unchanged : unchanged.feature = id := by
  funext f
  simp [feature]

end Relabelling

end FeatureTree
