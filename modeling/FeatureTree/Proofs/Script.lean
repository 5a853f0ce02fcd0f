import FeatureTree.Proofs.Document
/-!
# The script of a feature

Every feature can be told in a canonical way: its parts in document
order, each rule with the line it is made from, each tag on a line of its
own, each description on one line (`Feature.script`). A feature does not
say where its descriptions were written, nor whether an empty one had a
block or a doc string was closed; a `Layout` chooses. What is told is
what is read: the assembly of a script gives back the feature it was
written from (`assemble_script`), if only the feature is one that lines
can tell (`Feature.Tellable`).
-/

namespace FeatureTree

/-! ## What lines can tell -/

/-- Every cell is on the line of its row. -/
def TableRow.InLine (row : TableRow) : Prop :=
  ∀ cell ∈ row.cells, cell.location.line = row.location.line

/-- Rows of one width, each on one line. -/
def RowsTellable (rows : List TableRow) : Prop :=
  (∀ row ∈ rows, ∀ row' ∈ rows, row.width = row'.width) ∧ ∀ row ∈ rows, row.InLine

/-- A description that is empty or leaves a mark. -/
def Section.Tellable (s : Section) : Prop :=
  s.description = "" ∨ ∃ c ∈ s.description.toList, isBlankChar c = false

/-- Of the arguments, only a table asks for something. -/
def StepArgument.Tellable : StepArgument → Prop
  | .table grid => RowsTellable grid.rows
  | .docString _ | .empty => True

/-- A background that lines can tell. -/
def Background.Tellable (b : Background) : Prop :=
  b.toSection.Tellable ∧ ∀ step ∈ b.steps, step.argument.Tellable

/-- An examples table that lines can tell. -/
def ExamplesTable.Tellable (e : ExamplesTable) : Prop :=
  e.toSection.Tellable ∧ RowsTellable e.rows

/-- What a scenario and an outline have in common can be told. -/
def Scenario.Tellable (s : Scenario) : Prop :=
  s.toSection.Tellable ∧ ∀ step ∈ s.steps, step.argument.Tellable

/-- A definition that lines can tell. -/
def ScenarioDefinition.Tellable (d : ScenarioDefinition) : Prop :=
  d.shared.Tellable ∧ ∀ e ∈ d.examples, e.Tellable

/-- **A feature that lines can tell**: the rows of each table have one
width and their cells stand in line, and no description is blank but the
empty one. -/
def Feature.Tellable (f : Feature) : Prop :=
  f.toSection.Tellable ∧ (∀ b ∈ f.background, b.Tellable) ∧ ∀ d ∈ f.definitions, d.Tellable

/-! Whether a feature can be told can be computed. -/

instance : DecidablePred RowsTellable := fun rows =>
  inferInstanceAs (Decidable ((∀ row ∈ rows, ∀ row' ∈ rows, row.width = row'.width) ∧
    ∀ row ∈ rows, ∀ cell ∈ row.cells, cell.location.line = row.location.line))

instance : DecidablePred Section.Tellable := fun s =>
  @instDecidableOr (s.description = "") (∃ c ∈ s.description.toList, isBlankChar c = false)
    inferInstance (List.decidableBEx _ _)

instance : DecidablePred StepArgument.Tellable
  | .table grid => inferInstanceAs (Decidable (RowsTellable grid.rows))
  | .docString _ | .empty => .isTrue trivial

instance : DecidablePred Background.Tellable := fun b =>
  inferInstanceAs (Decidable (b.toSection.Tellable ∧ ∀ step ∈ b.steps, step.argument.Tellable))

instance : DecidablePred ExamplesTable.Tellable := fun e =>
  inferInstanceAs (Decidable (e.toSection.Tellable ∧ RowsTellable e.rows))

instance : DecidablePred Scenario.Tellable := fun s =>
  inferInstanceAs (Decidable (s.toSection.Tellable ∧ ∀ step ∈ s.steps, step.argument.Tellable))

instance : DecidablePred ScenarioDefinition.Tellable := fun d =>
  inferInstanceAs (Decidable (d.shared.Tellable ∧ ∀ e ∈ d.examples, e.Tellable))

instance : DecidablePred Feature.Tellable := fun f =>
  inferInstanceAs (Decidable (f.toSection.Tellable ∧ (∀ b ∈ f.background, b.Tellable) ∧
    ∀ d ∈ f.definitions, d.Tellable))

/-! ## The script -/

/-- What a script says and its feature does not. -/
structure Layout where
  /-- Where the description of a section is written. -/
  description : Section → Location
  /-- Whether an empty description has a block, which then has no lines. -/
  emptyBlock : Section → Bool
  /-- Where the delimiter that closes a doc string is written, if it is. -/
  closing : DocString → Option Location

/-- As little as can be, with descriptions at the place of their title. -/
def Layout.plain : Layout :=
  { description := Section.location, emptyBlock := fun _ => false, closing := fun _ => none }

/-- A tag on a line of its own. -/
def Tag.line (tag : Tag) : Token :=
  { kind := .tagLine, location := tag.location,
    spans := [{ column := tag.location.column, text := tag.name }] }

/-- Tags as a block of their lines; no tags make no block. -/
def tagsScript : List Tag → Body
  | [] => []
  | tag :: tags => [.scope .tags (((tag :: tags).map Tag.line).map .leaf)]

namespace Section

variable (layout : Layout) (s : Section)

/-- The title of a section. -/
def line (kind : TokenKind) : Token :=
  { kind, location := s.location, keyword := s.keyword, text := s.name }

/-- The description of a section on one line; an empty one has no line. -/
def descriptionScript : Body :=
  if s.description = "" then
    if layout.emptyBlock s then [.scope .description []] else []
  else
    [.scope .description
      [.leaf { kind := .other, location := layout.description s, text := s.description }]]

/-- The title of a section and its description. -/
def script (kind : TokenKind) : Body :=
  .leaf (s.line kind) :: s.descriptionScript layout

end Section

/-- A row on a line, one span for each cell. -/
def TableRow.line (row : TableRow) : Token :=
  { kind := .tableRow, location := row.location,
    spans := row.cells.map fun cell => { column := cell.location.column, text := cell.value } }

/-- The lines of a table. -/
def rowsScript (rows : List TableRow) : Body :=
  (rows.map TableRow.line).map .leaf

/-- A line of a doc string. -/
def DocLine.line (line : DocLine) : Token :=
  { kind := .other, location := line.location, text := line.text }

section Parts

variable (layout : Layout)

/-- The delimiter of a doc string, its lines, and the delimiter that
closes it. -/
def DocString.script (doc : DocString) : Body :=
  .leaf { kind := .docStringSeparator, location := doc.location, text := doc.contentType } ::
    ((doc.lines.map DocLine.line).map .leaf ++ (layout.closing doc).toList.map fun location =>
      .leaf { kind := .docStringSeparator, location })

/-- An argument as a block of its own, or nothing. -/
def StepArgument.script : StepArgument → Body
  | .table grid => [.scope .dataTable (rowsScript grid.rows)]
  | .docString doc => [.scope .docString (doc.script layout)]
  | .empty => []

/-- The line of a step and its argument. -/
def Step.script (s : Step) : Body :=
  .leaf { kind := .stepLine, location := s.location, keyword := s.keyword, text := s.text } ::
    s.argument.script layout

/-- Steps one after the other. -/
def stepsScript (steps : List Step) : Body :=
  (steps.map (Step.script layout)).map (.scope .step)

/-- A background: title, description and steps. -/
def Background.script (b : Background) : Body :=
  b.toSection.script layout .backgroundLine ++ stepsScript layout b.steps

/-- An examples table: tags, title, description and rows. -/
def ExamplesTable.script (e : ExamplesTable) : Body :=
  tagsScript e.tags ++ e.toSection.script layout .examplesLine ++ rowsScript e.rows

/-- The title, description and steps of a scenario or an outline. -/
def Scenario.script (kind : TokenKind) (s : Scenario) : Body :=
  s.toSection.script layout kind ++ stepsScript layout s.steps

/-- Examples tables one after the other. -/
def examplesScript (examples : List ExamplesTable) : Body :=
  (examples.map (ExamplesTable.script layout)).map (.scope .examples)

/-- The tags of a definition, and its scenario or its outline. -/
def ScenarioDefinition.script : ScenarioDefinition → Body
  | .scenario s => tagsScript s.tags ++ [.scope .scenario (s.script layout .scenarioLine)]
  | .outline o =>
    tagsScript o.tags ++
      [.scope .outline
        (o.toScenario.script layout .outlineLine ++ examplesScript layout o.examples)]

end Parts

namespace Feature

variable (layout : Layout) (f : Feature)

/-- The header of a feature, whose line names the language. -/
def headerScript : Body :=
  tagsScript f.tags ++
    .leaf { f.toSection.line .featureLine with language := some f.language } ::
      f.toSection.descriptionScript layout

/-- The inside of a feature: header, background and definitions. -/
def insideScript : Body :=
  .scope .featureHeader (f.headerScript layout) ::
    ((f.background.toList.map (Background.script layout)).map (.scope .background) ++
      (f.definitions.map (ScenarioDefinition.script layout)).map (.scope .definition))

/-- **The script of a feature.** -/
def script : Body :=
  [.scope .feature (f.insideScript layout)]

end Feature

/-! ## Reading what was written -/

section Pieces

variable {body : Body} {kind : TokenKind} {rule : Rule} {layout : Layout}

/-- Parts written one after the other are read one after the other. -/
theorem filterMap_written {α : Type _} {parts : List α} {write : α → Body} {read : Body → Option α}
    (h : ∀ part ∈ parts, read (write part) = some part) :
    (parts.map write).filterMap read = parts := by
  rw [List.filterMap_map]
  exact (List.filterMap_congr h).trans List.filterMap_some

@[simp] theorem leaves_tagsScript (tags : List Tag) : Body.leaves kind (tagsScript tags) = [] := by
  cases tags <;> rfl

theorem bodies_tagsScript (tags : List Tag) (h : rule ≠ .tags) :
    Body.bodies rule (tagsScript tags) = [] := by
  cases tags with
  | nil => rfl
  | cons tag tags => rw [tagsScript, Body.bodies_scope, if_neg h.symm, Body.bodies_nil]

/-- The tags that were written are read, whatever else stands beside
them. -/
theorem tags_of_bodies {tags : List Tag}
    (h : Body.bodies .tags body = Body.bodies .tags (tagsScript tags)) : body.tags = tags := by
  rw [Body.tags, h]
  cases tags with
  | nil => rfl
  | cons tag tags =>
    have hleaves : Body.leaves .tagLine (((tag :: tags).map Tag.line).map .leaf) =
        (tag :: tags).map Tag.line :=
      Body.leaves_map_leaf fun line hline => by
        obtain ⟨tag, -, rfl⟩ := List.mem_map.mp hline
        rfl
    have htag (tag : Tag) : tag.line.tags = [tag] := rfl
    rw [tagsScript, Body.bodies_scope, if_pos rfl, List.head?_cons, Option.map_some, hleaves,
      Option.getD_some, List.flatMap_map]
    simp only [htag, List.flatMap_singleton']

@[simp] theorem leaves_descriptionScript (s : Section) :
    Body.leaves kind (s.descriptionScript layout) = [] := by
  rw [Section.descriptionScript]
  split
  · split <;> rfl
  · rfl

theorem bodies_descriptionScript (s : Section) (h : rule ≠ .description) :
    Body.bodies rule (s.descriptionScript layout) = [] := by
  rw [Section.descriptionScript]
  split
  · split
    · rw [Body.bodies_scope, if_neg h.symm, Body.bodies_nil]
    · rfl
  · rw [Body.bodies_scope, if_neg h.symm, Body.bodies_nil]

/-- A text that leaves a mark is not blank. -/
theorem isBlank_eq_false_of_exists {text : String}
    (h : ∃ c ∈ text.toList, isBlankChar c = false) : isBlank text = false := by
  obtain ⟨c, hc, hmark⟩ := h
  exact List.all_eq_false.mpr ⟨c, hc, by simp [hmark]⟩

/-- The description that was written is read. -/
theorem description_of_bodies (layout : Layout) {s : Section} (hs : s.Tellable)
    (h : Body.bodies .description body =
      Body.bodies .description (s.descriptionScript layout)) :
    body.description = s.description := by
  rw [Body.description, h, Section.descriptionScript]
  by_cases hempty : s.description = ""
  · rw [if_pos hempty, hempty]
    cases layout.emptyBlock s <;> rfl
  · have hblank := isBlank_eq_false_of_exists (hs.resolve_left hempty)
    -- The one line is the last, so it is kept only because it is not blank.
    have hdescribe : describe [s.description] = s.description := by
      rw [describe, ← List.nil_append [s.description], dropTrailing_append_of_neg _ hblank]
      simp [joinLines]
    rw [if_neg hempty]
    exact hdescribe

theorem leaves_stepsScript (steps : List Step) : Body.leaves kind (stepsScript layout steps) = [] :=
  Body.leaves_map_scope

theorem bodies_stepsScript (steps : List Step) :
    Body.bodies rule (stepsScript layout steps) =
      if .step = rule then steps.map (Step.script layout) else [] :=
  Body.bodies_map_scope

theorem bodies_rowsScript (rows : List TableRow) : Body.bodies rule (rowsScript rows) = [] :=
  Body.bodies_map_leaf

theorem leaves_examplesScript (examples : List ExamplesTable) :
    Body.leaves kind (examplesScript layout examples) = [] :=
  Body.leaves_map_scope

theorem bodies_examplesScript (examples : List ExamplesTable) :
    Body.bodies rule (examplesScript layout examples) =
      if .examples = rule then examples.map (ExamplesTable.script layout) else [] :=
  Body.bodies_map_scope

/-- A row that stands in line is read as it was written. -/
theorem row_line {row : TableRow} (h : row.InLine) : row.line.row = row := by
  have hcells : (row.line.spans.map fun span =>
      ({ location := row.line.locate span, value := span.text } : TableCell)) = row.cells := by
    -- A span keeps the column of its cell, and gets its line from the row.
    rw [TableRow.line, List.map_map]
    refine (List.map_congr_left fun cell hcell => ?_).trans (List.map_id row.cells)
    change ({ location := ⟨row.location.line, cell.location.column⟩, value := cell.value } :
      TableCell) = cell
    rw [← h cell hcell]
  rw [Token.row, hcells]
  rfl

theorem leaves_rowsScript (rows : List TableRow) :
    Body.leaves .tableRow (rowsScript rows) = rows.map TableRow.line :=
  Body.leaves_map_leaf fun line hline => by
    obtain ⟨row, -, rfl⟩ := List.mem_map.mp hline
    rfl

/-- The rows that were written are read. -/
theorem rows_of_leaves {rows : List TableRow} (hrows : RowsTellable rows)
    (h : Body.leaves .tableRow body = rows.map TableRow.line) : body.rows = rows := by
  rw [Body.rows, h, List.map_map]
  exact (List.map_congr_left fun row hrow => row_line (hrows.2 row hrow)).trans (List.map_id rows)

/-- And no line of theirs is odd. -/
theorem uneven?_of_leaves {rows : List TableRow} (hrows : RowsTellable rows)
    (h : Body.leaves .tableRow body = rows.map TableRow.line) : body.uneven? = none := by
  have hwidth (row : TableRow) : row.line.spans.length = row.width := List.length_map ..
  have heven : EvenLines (rows.map TableRow.line) := by
    intro line hline line' hline'
    obtain ⟨row, hrow, rfl⟩ := List.mem_map.mp hline
    obtain ⟨row', hrow', rfl⟩ := List.mem_map.mp hline'
    rw [hwidth, hwidth, hrows.1 row hrow row' hrow']
  rw [Body.uneven?, h, Body.oddLine?_eq_none_iff.mpr heven]
  rfl

/-- The title that was written is read, with its description. -/
theorem titled?_written (layout : Layout) {s : Section} (hs : s.Tellable)
    (hline : body.leaves kind = [s.line kind])
    (hdescription : Body.bodies .description body =
      Body.bodies .description (s.descriptionScript layout)) :
    body.titled? kind = some s := by
  rw [Body.titled?, Body.line?, hline, description_of_bodies layout hs hdescription]
  rfl

theorem missing?_of_leaves {line : Token} {lines : List Token}
    (h : body.leaves kind = line :: lines) : Body.missing? rule kind body = none :=
  Body.missing?_of_line? (show body.line? kind = some line by rw [Body.line?, h]; rfl)

theorem error?_tagsScript (tags : List Tag) : Body.error? (tagsScript tags) = none := by
  cases tags with
  | nil => rfl
  | cons tag tags =>
    exact Body.error?_singleton (error?_scope Body.error?_map_leaf rfl)

theorem error?_descriptionScript (s : Section) : (s.descriptionScript layout).error? = none := by
  rw [Section.descriptionScript]
  split
  · split <;> rfl
  · rfl

theorem error?_sectionScript (s : Section) : (s.script layout kind).error? = none := by
  rw [Section.script, Body.error?, error?_descriptionScript]
  rfl

end Pieces

/-! ## Part by part -/

variable (layout : Layout)

theorem leaves_docString_script (doc : DocString) :
    (doc.script layout).leaves .other = doc.lines.map DocLine.line := by
  have hlines : Body.leaves .other ((doc.lines.map DocLine.line).map .leaf) =
      doc.lines.map DocLine.line :=
    Body.leaves_map_leaf fun line hline => by
      obtain ⟨line, -, rfl⟩ := List.mem_map.mp hline
      rfl
  -- Neither delimiter is content.
  rw [DocString.script, Body.leaves_leaf, if_neg TokenKind.noConfusion, Body.leaves_append, hlines]
  cases layout.closing doc with
  | none => exact List.append_nil _
  | some location => exact List.append_nil _

theorem docString?_script (doc : DocString) : (doc.script layout).docString? = some doc := by
  have hother (line : DocLine) : line.line.docLine = line := rfl
  have hcontent : (doc.lines.map DocLine.line).map Token.docLine = doc.lines := by
    simp [Function.comp_def, hother]
  rw [Body.docString?, leaves_docString_script, hcontent]
  rfl

/-- Nothing in a doc string can be refused, closed or not. -/
theorem error?_docString_script (doc : DocString) : (doc.script layout).error? = none := by
  rw [DocString.script, Body.error?, Body.error?_append, Body.error?_map_leaf]
  cases layout.closing doc <;> rfl

namespace Step

variable {s : Step}

theorem argument_script (h : s.argument.Tellable) : (s.script layout).argument = s.argument := by
  rw [Body.argument, script]
  cases harg : s.argument with
  | table grid =>
    rw [harg] at h
    have hrows : Body.rows (rowsScript grid.rows) = grid.rows :=
      rows_of_leaves h (leaves_rowsScript grid.rows)
    simp [StepArgument.script, hrows]
  | docString doc => simp [StepArgument.script, docString?_script]
  | empty => simp [StepArgument.script]

theorem step?_script (h : s.argument.Tellable) : (s.script layout).step? = some s := by
  rw [Body.step?, argument_script layout h]
  rfl

theorem error?_script (h : s.argument.Tellable) :
    (Block.scope .step (s.script layout)).error? = none := by
  refine error?_scope ?_ rfl
  rw [script, Body.error?]
  cases harg : s.argument with
  | table grid =>
    rw [harg] at h
    have hbody : Body.error? (rowsScript grid.rows) = none := Body.error?_map_leaf
    have hblock : (Block.scope .dataTable (rowsScript grid.rows)).error? = none :=
      error?_scope hbody (uneven?_of_leaves h (leaves_rowsScript grid.rows))
    exact Body.error?_singleton hblock
  | docString doc =>
    have hbody := error?_docString_script layout doc
    exact Body.error?_singleton (error?_scope hbody rfl)
  | empty => rfl

end Step

section Steps

variable {body : Body} {steps : List Step} (h : ∀ step ∈ steps, step.argument.Tellable)
include h

theorem steps_of_bodies (hbodies : Body.bodies .step body = steps.map (Step.script layout)) :
    body.steps = steps := by
  rw [Body.steps, hbodies]
  exact filterMap_written fun step hstep => Step.step?_script layout (h step hstep)

theorem error?_stepsScript : Body.error? (stepsScript layout steps) = none :=
  Body.error?_map_scope fun inside hinside => by
    obtain ⟨step, hstep, rfl⟩ := List.mem_map.mp hinside
    exact Step.error?_script layout (h step hstep)

end Steps

namespace Background

variable {b : Background}

theorem background?_script (h : b.Tellable) : (b.script layout).background? = some b := by
  have htitle : (b.script layout).titled? .backgroundLine = some b.toSection :=
    titled?_written layout h.1 (by simp [script, Section.script, Section.line, leaves_stepsScript])
      (by simp [script, Section.script, bodies_stepsScript])
  have hsteps : (b.script layout).steps = b.steps :=
    steps_of_bodies layout h.2
      (by simp [script, Section.script, bodies_stepsScript, bodies_descriptionScript])
  rw [Body.background?, htitle, hsteps]
  rfl

theorem error?_script (h : b.Tellable) :
    (Block.scope .background (b.script layout)).error? = none := by
  have htitle : (b.toSection.script layout .backgroundLine).error? = none :=
    error?_sectionScript b.toSection
  have hsteps := error?_stepsScript layout h.2
  exact error?_scope (Body.error?_append_eq_none htitle hsteps) rfl

end Background

namespace ExamplesTable

variable {e : ExamplesTable}

theorem leaves_script :
    (e.script layout).leaves .examplesLine = [e.toSection.line .examplesLine] := by
  have hrows : Body.leaves .examplesLine (rowsScript e.rows) = [] :=
    Body.leaves_map_leaf_of_ne (fun line hline => by
      obtain ⟨row, -, rfl⟩ := List.mem_map.mp hline
      rfl) (show TokenKind.tableRow ≠ .examplesLine by decide)
  simp [script, Section.script, Section.line, hrows]

theorem leaves_row_script : (e.script layout).leaves .tableRow = e.rows.map TableRow.line := by
  simp [script, Section.script, Section.line, leaves_rowsScript]

theorem examples?_script (h : e.Tellable) : (e.script layout).examples? = some e := by
  have htitle : (e.script layout).titled? .examplesLine = some e.toSection :=
    titled?_written layout h.1 (leaves_script layout)
      (by simp [script, Section.script, bodies_rowsScript, bodies_tagsScript])
  have htags : (e.script layout).tags = e.tags :=
    tags_of_bodies (by simp [script, Section.script, bodies_rowsScript, bodies_descriptionScript])
  rw [Body.examples?, htitle, htags, rows_of_leaves h.2 (leaves_row_script layout)]
  rfl

theorem error?_script (h : e.Tellable) :
    (Block.scope .examples (e.script layout)).error? = none := by
  have htitle : (tagsScript e.tags ++ e.toSection.script layout .examplesLine).error? = none :=
    Body.error?_append_eq_none (error?_tagsScript e.tags) (error?_sectionScript e.toSection)
  have hbody : (e.script layout).error? = none :=
    Body.error?_append_eq_none htitle Body.error?_map_leaf
  refine error?_scope hbody ?_
  rw [Body.refusal?, missing?_of_leaves (leaves_script layout),
    uneven?_of_leaves h.2 (leaves_row_script layout)]
  rfl

end ExamplesTable

theorem error?_examplesScript {examples : List ExamplesTable} (h : ∀ e ∈ examples, e.Tellable) :
    Body.error? (examplesScript layout examples) = none :=
  Body.error?_map_scope fun inside hinside => by
    obtain ⟨e, he, rfl⟩ := List.mem_map.mp hinside
    exact ExamplesTable.error?_script layout (h e he)

namespace Scenario

variable {s : Scenario} (kind : TokenKind) (examples : List ExamplesTable)

/-! A scenario is read from what it was written as, be there examples
behind it or not. -/

theorem titled?_script (h : s.Tellable) :
    (s.script layout kind ++ examplesScript layout examples).titled? kind = some s.toSection :=
  titled?_written layout h.1
    (by simp [script, Section.script, Section.line, leaves_stepsScript, leaves_examplesScript])
    (by simp [script, Section.script, bodies_stepsScript, bodies_examplesScript])

theorem steps_script (h : s.Tellable) :
    (s.script layout kind ++ examplesScript layout examples).steps = s.steps :=
  steps_of_bodies layout h.2
    (by simp [script, Section.script, bodies_stepsScript, bodies_examplesScript,
      bodies_descriptionScript])

theorem bodies_examples_script :
    Body.bodies .examples (s.script layout kind ++ examplesScript layout examples) =
      examples.map (ExamplesTable.script layout) := by
  simp [script, Section.script, bodies_stepsScript, bodies_examplesScript,
    bodies_descriptionScript]

theorem error?_script (h : s.Tellable) : (s.script layout kind).error? = none :=
  Body.error?_append_eq_none (error?_sectionScript s.toSection) (error?_stepsScript layout h.2)

theorem scenario?_script (h : s.Tellable) :
    (s.script layout .scenarioLine).scenario? s.tags = some s := by
  have hnone : s.script layout .scenarioLine =
      s.script layout .scenarioLine ++ examplesScript layout [] :=
    (List.append_nil _).symm
  rw [hnone, Body.scenario?, titled?_script layout .scenarioLine [] h,
    steps_script layout .scenarioLine [] h]
  rfl

theorem outline?_script {o : ScenarioOutline} (h : o.toScenario.Tellable)
    (hexamples : ∀ e ∈ o.examples, e.Tellable) :
    (o.toScenario.script layout .outlineLine ++ examplesScript layout o.examples).outline? o.tags =
      some o := by
  have hread :
      (o.examples.map (ExamplesTable.script layout)).filterMap Body.examples? = o.examples :=
    filterMap_written fun e he => ExamplesTable.examples?_script layout (hexamples e he)
  rw [Body.outline?, titled?_script layout .outlineLine o.examples h,
    steps_script layout .outlineLine o.examples h, bodies_examples_script, hread]
  rfl

end Scenario

namespace ScenarioDefinition

theorem tags_script (d : ScenarioDefinition) : (d.script layout).tags = d.shared.tags := by
  cases d with
  | scenario s => exact tags_of_bodies (by simp [script, shared])
  | outline o => exact tags_of_bodies (by simp [script, shared])

theorem bodies_scenario_script (s : Scenario) :
    Body.bodies .scenario ((ScenarioDefinition.scenario s).script layout) =
      [s.script layout .scenarioLine] := by
  simp [script, bodies_tagsScript]

theorem bodies_outline_script (o : ScenarioOutline) :
    Body.bodies .scenario ((ScenarioDefinition.outline o).script layout) = [] ∧
    Body.bodies .outline ((ScenarioDefinition.outline o).script layout) =
      [o.toScenario.script layout .outlineLine ++ examplesScript layout o.examples] := by
  simp [script, bodies_tagsScript]

theorem definition?_script {d : ScenarioDefinition} (h : d.Tellable) :
    (d.script layout).definition? = some d := by
  have htags := tags_script layout d
  cases d with
  | scenario s =>
    have hs : s.Tellable := h.1
    rw [Body.definition?, bodies_scenario_script, htags]
    exact congrArg (Option.map scenario) (Scenario.scenario?_script layout hs)
  | outline o =>
    have ho : o.toScenario.Tellable := h.1
    obtain ⟨hscenario, houtline⟩ := bodies_outline_script layout o
    rw [Body.definition?, hscenario, houtline, htags]
    exact congrArg (Option.map outline) (Scenario.outline?_script layout ho h.2)

theorem error?_script {d : ScenarioDefinition} (h : d.Tellable) :
    (Block.scope .definition (d.script layout)).error? = none := by
  cases d with
  | scenario s =>
    have hs : s.Tellable := h.1
    have hblock : (Block.scope .scenario (s.script layout .scenarioLine)).error? = none :=
      error?_scope (Scenario.error?_script layout .scenarioLine hs) rfl
    refine error?_scope ?_ (by rw [Body.refusal?, bodies_scenario_script]; rfl)
    exact Body.error?_append_eq_none (error?_tagsScript s.tags) (Body.error?_singleton hblock)
  | outline o =>
    have ho : o.toScenario.Tellable := h.1
    obtain ⟨hscenario, houtline⟩ := bodies_outline_script layout o
    have hinside :
        (o.toScenario.script layout .outlineLine ++ examplesScript layout o.examples).error? =
          none :=
      Body.error?_append_eq_none (Scenario.error?_script layout .outlineLine ho)
        (error?_examplesScript layout h.2)
    refine error?_scope ?_ (by rw [Body.refusal?, hscenario, houtline]; rfl)
    exact Body.error?_append_eq_none (error?_tagsScript o.tags)
      (Body.error?_singleton (error?_scope hinside rfl))

end ScenarioDefinition

namespace Feature

variable {f : Feature}

theorem leaves_headerScript :
    (f.headerScript layout).leaves .featureLine =
      [{ f.toSection.line .featureLine with language := some f.language }] := by
  simp [headerScript, Section.line]

theorem tags_headerScript : (f.headerScript layout).tags = f.tags :=
  tags_of_bodies (by simp [headerScript, bodies_descriptionScript])

theorem description_headerScript (h : f.Tellable) :
    (f.headerScript layout).description = f.description :=
  description_of_bodies layout h.1 (by simp [headerScript, bodies_tagsScript])

theorem error?_headerScript :
    (Block.scope .featureHeader (f.headerScript layout)).error? = none := by
  have hline : Body.error?
      (.leaf { f.toSection.line .featureLine with language := some f.language } ::
        f.toSection.descriptionScript layout) = none := by
    rw [Body.error?, error?_descriptionScript]
    rfl
  exact error?_scope (Body.error?_append_eq_none (error?_tagsScript f.tags) hline) rfl

theorem bodies_insideScript :
    Body.bodies .background (f.insideScript layout) =
      f.background.toList.map (Background.script layout) ∧
    Body.bodies .definition (f.insideScript layout) =
      f.definitions.map (ScenarioDefinition.script layout) := by
  simp [insideScript, -List.map_map]

theorem header_insideScript : (f.insideScript layout).header = f.headerScript layout := by
  simp [Body.header, insideScript]

/-- A feature is read from its script, whatever the fallback: its line
names the language. -/
theorem feature?_insideScript (h : f.Tellable) (fallback : String) :
    (f.insideScript layout).feature? fallback = some f := by
  obtain ⟨hbackground, hdefinitions⟩ := bodies_insideScript layout (f := f)
  have hb : (f.background.toList.map (Background.script layout)).filterMap Body.background? =
      f.background.toList :=
    filterMap_written fun b hb => Background.background?_script layout (h.2.1 b (by simpa using hb))
  have hd : (f.definitions.map (ScenarioDefinition.script layout)).filterMap Body.definition? =
      f.definitions :=
    filterMap_written fun d hd => ScenarioDefinition.definition?_script layout (h.2.2 d hd)
  rw [Body.feature?, header_insideScript, Body.line?, leaves_headerScript, tags_headerScript,
    description_headerScript layout h, hbackground, hdefinitions, hb, hd, Option.head?_toList]
  rfl

theorem error?_script (h : f.Tellable) : (f.script layout).error? = none := by
  have hbackground : Body.error?
      ((f.background.toList.map (Background.script layout)).map (.scope .background)) = none :=
    Body.error?_map_scope fun inside hinside => by
      obtain ⟨b, hb, rfl⟩ := List.mem_map.mp hinside
      exact Background.error?_script layout (h.2.1 b (by simpa using hb))
  have hdefinitions : Body.error?
      ((f.definitions.map (ScenarioDefinition.script layout)).map (.scope .definition)) = none :=
    Body.error?_map_scope fun inside hinside => by
      obtain ⟨d, hd, rfl⟩ := List.mem_map.mp hinside
      exact ScenarioDefinition.error?_script layout (h.2.2 d hd)
  have hinside : (f.insideScript layout).error? = none := by
    rw [insideScript, Body.error?, error?_headerScript]
    exact Body.error?_append_eq_none hbackground hdefinitions
  have hrefusal : Body.refusal? .feature (f.insideScript layout) = none := by
    rw [Body.refusal?, header_insideScript, missing?_of_leaves (leaves_headerScript layout)]
  exact Body.error?_singleton (error?_scope hinside hrefusal)

end Feature

/-- **A feature is told by its script.** Whatever the settings, the run of
the script of a feature that lines can tell gives back that feature,
places and all. -/
theorem assemble_script (settings : Settings) (layout : Layout) {f : Feature} (h : f.Tellable) :
    assemble settings (f.script layout).events = .ok (some f) := by
  have hfeature :
      (Body.bodies .feature (f.script layout)).filterMap (Body.feature? settings.language) =
        [f] := by
    simp [Feature.script, Feature.feature?_insideScript layout h]
  rw [assemble_of_accepted settings (Feature.error?_script layout h), hfeature]
  rfl

/-- A feature with a background, a scenario and an outline, and with each
kind of argument. -/
def sumsFeature : Feature :=
  { location := ⟨2, 1⟩, keyword := "Feature", name := "Sums", description := "Adding up"
    tags := [⟨⟨1, 1⟩, "@a"⟩, ⟨⟨1, 4⟩, "@b"⟩]
    language := "en"
    background := some
      { location := ⟨5, 3⟩, keyword := "Background", name := "", description := ""
        steps := [⟨⟨6, 5⟩, "Given ", "a", .docString ⟨⟨7, 7⟩, "json", [⟨⟨8, 7⟩, "[1]"⟩]⟩⟩] }
    definitions :=
      [.scenario
        { location := ⟨10, 3⟩, keyword := "Scenario", name := "One", description := " x "
          tags := []
          steps :=
            [⟨⟨11, 5⟩, "When ", "b",
              .table ⟨[⟨⟨12, 7⟩, [⟨⟨12, 9⟩, "x"⟩]⟩, ⟨⟨13, 7⟩, [⟨⟨13, 9⟩, "1"⟩]⟩]⟩⟩] },
        .outline
          { location := ⟨16, 3⟩, keyword := "Scenario Outline", name := "Two", description := ""
            tags := [⟨⟨15, 3⟩, "@c"⟩]
            steps := [⟨⟨17, 5⟩, "Then ", "<n>", .empty⟩]
            examples :=
              [{ location := ⟨19, 5⟩, keyword := "Examples", name := "", description := ""
                 tags := [⟨⟨18, 5⟩, "@d"⟩]
                 rows := [⟨⟨20, 7⟩, [⟨⟨20, 9⟩, "n"⟩]⟩] }] }] }

/-- It is told by its plain script. -/
theorem assemble_sumsFeature :
    sumsFeature.Tellable ∧
      assemble {} (sumsFeature.script .plain).events = .ok (some sumsFeature) := by
  have htellable : sumsFeature.Tellable := by decide
  exact ⟨htellable, assemble_script {} .plain htellable⟩

end FeatureTree
