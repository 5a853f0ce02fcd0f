import FeatureTree.Proofs.DescriptionLines
import FeatureTree.Proofs.Document
/-!
# Listings

A feature is listed depth first, each entry with what it belongs to
(`Feature.items`). The lines of a document are listed as they come, each
with the rule it stands in (`Body.items`); of a doc string's delimiters
only the first is listed, and of a description the lines up to the last
that is not blank (`KeepsMarked`). `items_of_assemble` says that both
listings of a document are the same: what is assembled is what was
written, in the order in which it was written and where it was written.
-/

namespace FeatureTree

/-- An entry of a listing. Tags, titles and descriptions name the rule
that they belong to; every other entry belongs to the last one before it
that can hold it. -/
inductive Item where
  | tag (holder : Rule) (location : Location) (name : String)
  | title (holder : Rule) (location : Location) (keyword name : String)
  | description (holder : Rule) (text : String)
  | language (language : String)
  | step (location : Location) (keyword text : String)
  | table
  | row (location : Location)
  | cell (location : Location) (value : String)
  | docString (location : Location) (contentType : String)
  | docLine (location : Location) (text : String)
  deriving DecidableEq

/-- Whether an entry opens a doc string. -/
def Item.isDocString : Item → Bool
  | .docString _ _ => true
  | _ => false

/-- A description is listed unless it is empty. -/
def descriptionItems (holder : Rule) (text : String) : List Item :=
  if text = "" then [] else [.description holder text]

/-! ## The listing of a feature -/

def Tag.item (holder : Rule) (tag : Tag) : Item :=
  .tag holder tag.location tag.name

/-- A title, and the description below it. -/
def Section.items (holder : Rule) (s : Section) : List Item :=
  .title holder s.location s.keyword s.name :: descriptionItems holder s.description

/-- A row and its cells. -/
def TableRow.items (row : TableRow) : List Item :=
  .row row.location :: row.cells.map fun cell => .cell cell.location cell.value

/-- The opening of a doc string and its lines. -/
def DocString.items (doc : DocString) : List Item :=
  .docString doc.location doc.contentType ::
    doc.lines.map fun line => .docLine line.location line.text

def StepArgument.items : StepArgument → List Item
  | .table grid => .table :: grid.rows.flatMap TableRow.items
  | .docString doc => doc.items
  | .empty => []

/-- A step and its argument. -/
def Step.items (s : Step) : List Item :=
  .step s.location s.keyword s.text :: s.argument.items

def Background.items (b : Background) : List Item :=
  b.toSection.items .background ++ b.steps.flatMap Step.items

/-- An examples table: tags, title and rows. -/
def ExamplesTable.items (e : ExamplesTable) : List Item :=
  e.tags.map (Tag.item .examples) ++ e.toSection.items .examples ++ e.rows.flatMap TableRow.items

/-- The title and the steps of a scenario or an outline. -/
def Scenario.items (holder : Rule) (s : Scenario) : List Item :=
  s.toSection.items holder ++ s.steps.flatMap Step.items

/-- The tags of a definition come before its scenario or its outline. -/
def ScenarioDefinition.items : ScenarioDefinition → List Item
  | .scenario s => s.tags.map (Tag.item .definition) ++ s.items .scenario
  | .outline o =>
    o.tags.map (Tag.item .definition) ++ o.toScenario.items .outline ++
      o.examples.flatMap ExamplesTable.items

/-- **The listing of a feature**, depth first. -/
def Feature.items (f : Feature) : List Item :=
  f.tags.map (Tag.item .featureHeader) ++
    .language f.language :: f.toSection.items .featureHeader ++
    f.background.toList.flatMap Background.items ++ f.definitions.flatMap ScenarioDefinition.items

/-! ## The listing of a document -/

/-- **The texts that a description keeps** of some: those up to the last
that is not blank. One function alone does so (`KeepsMarked.unique`). -/
def KeepsMarked (keep : List String → List String) : Prop :=
  ∀ texts, ∃ rest, IsCut IsUnmarked texts (keep texts) rest

/-- The entries of a line in the rule `holder`. -/
def Token.items (fallback : String) (holder : Rule) (t : Token) : List Item :=
  match t.kind with
  | .tagLine =>
    t.spans.map fun span =>
      .tag holder { line := t.location.line, column := span.column } span.text
  | .featureLine =>
    [.language (t.language.getD fallback), .title holder t.location t.keyword t.text]
  | .backgroundLine | .scenarioLine | .outlineLine | .examplesLine =>
    [.title holder t.location t.keyword t.text]
  | .stepLine => [.step t.location t.keyword t.text]
  | .tableRow =>
    .row t.location ::
      t.spans.map fun span => .cell { line := t.location.line, column := span.column } span.text
  | .docStringSeparator => [.docString t.location t.text]
  | .other => [.docLine t.location t.text]
  | .endOfFile | .empty | .comment | .language => []

/-- The entries of a doc string: behind the one that opens it, no other
opening. -/
def unclosed : List Item → List Item
  | [] => []
  | opening :: rest => opening :: rest.filter fun item => !item.isDocString

mutual

/-- The entries of a block in the rule `holder`. Tags and a description
belong to the rule around them; a description is the texts that it keeps
of its own lines, with a line feed between each and the next. -/
def Block.items (keep : List String → List String) (fallback : String) (holder : Rule) :
    Block → List Item
  | .leaf token => token.items fallback holder
  | .scope .tags body => Body.items keep fallback holder body
  | .scope .description body =>
    descriptionItems holder (String.intercalate "\n" (keep (Body.texts body)))
  | .scope .dataTable body => .table :: Body.items keep fallback .dataTable body
  | .scope .docString body => unclosed (Body.items keep fallback .docString body)
  | .scope rule body => Body.items keep fallback rule body

/-- **The listing of a body**, block after block. -/
def Body.items (keep : List String → List String) (fallback : String) (holder : Rule) :
    Body → List Item
  | [] => []
  | block :: rest => block.items keep fallback holder ++ Body.items keep fallback holder rest

end

section

variable {keep keep' : List String → List String}

/-- There is one way to keep texts, -/
theorem KeepsMarked.unique (h : KeepsMarked keep) (h' : KeepsMarked keep') : keep = keep' := by
  funext texts
  obtain ⟨rest, hcut⟩ := h texts
  obtain ⟨rest', hcut'⟩ := h' texts
  exact (hcut.unique hcut').1

/-- which is to drop blank texts at the end. -/
theorem keepsMarked_dropTrailing : KeepsMarked (dropTrailing isBlank) :=
  fun texts => ⟨_, isCut_describe texts⟩

/-- A description is what is kept, joined. -/
theorem KeepsMarked.intercalate (h : KeepsMarked keep) (texts : List String) :
    String.intercalate "\n" (keep texts) = describe texts := by
  obtain ⟨rest, hcut⟩ := h texts
  exact hcut.describe_eq.symm

end

namespace Body

variable {keep : List String → List String} {fallback : String} {holder rule : Rule}
  {kind : TokenKind} {body rest : Body}

@[simp] theorem items_append :
    items keep fallback holder (body ++ rest) =
      items keep fallback holder body ++ items keep fallback holder rest := by
  induction body with
  | nil => rfl
  | cons block body ih => rw [List.cons_append, items, ih, items, List.append_assoc]

theorem items_map_leaf {tokens : List Token} :
    items keep fallback holder (tokens.map .leaf) =
      tokens.flatMap (Token.items fallback holder) := by
  induction tokens with
  | nil => rfl
  | cons token tokens ih => rw [List.map_cons, items, ih, List.flatMap_cons]; rfl

theorem items_map_scope {insides : List Body} :
    items keep fallback holder (insides.map (.scope rule)) =
      insides.flatMap fun inside => (Block.scope rule inside).items keep fallback holder := by
  induction insides with
  | nil => rfl
  | cons inside insides ih => rw [List.map_cons, items, ih, List.flatMap_cons]

/-- What tells nothing is not listed. -/
theorem items_content :
    items keep fallback holder body.content = items keep fallback holder body := by
  induction body with
  | nil => rfl
  | cons block rest ih =>
    rw [content] at ih
    cases hnoise : block.isNoise with
    | false => rw [content, List.filter_cons_of_pos (by simp [hnoise]), items, ih, items]
    | true =>
      have hblock : block.items keep fallback holder = [] := by
        cases block with
        | scope rule inside => cases hnoise
        | leaf token =>
          rw [Block.isNoise] at hnoise
          rw [Block.items, Token.items]
          cases hkind : token.kind
          all_goals first | rfl | (rw [hkind] at hnoise; cases hnoise)
      rw [content, List.filter_cons_of_neg (by simp [hnoise]), ih, items, hblock]
      rfl

theorem items_of_content {shape : Body} (h : body.content = shape) :
    items keep fallback holder body = items keep fallback holder shape := by
  rw [← h, items_content]

/-! ## Reading lists what is written -/

/-- Parts that list what their blocks list do so one after the other. -/
theorem flatMap_items {α : Type _} {insides : List Body} {read : Body → Option α}
    {list : α → List Item} {written : Body → List Item}
    (h : ∀ inside ∈ insides, ∃ part, read inside = some part ∧ list part = written inside) :
    (insides.filterMap read).flatMap list = insides.flatMap written := by
  induction insides with
  | nil => rfl
  | cons inside insides ih =>
    obtain ⟨part, hread, hlist⟩ := h inside List.mem_cons_self
    have hrest := ih fun i hi => h i (List.mem_cons_of_mem _ hi)
    rw [List.filterMap_cons_some hread, List.flatMap_cons, List.flatMap_cons, hlist, hrest]

/-- The tags are those of the one block of tag lines, if there is one. -/
theorem items_tags {lines : Option Body} (hbodies : bodies .tags body = lines.toList)
    (h : body.Grammatical) :
    body.tags.map (Tag.item holder) =
      items keep fallback holder (lines.toList.map (.scope .tags)) := by
  rw [tags, hbodies]
  cases lines with
  | none => rfl
  | some inside =>
    obtain ⟨tokens, hkind, hcontent⟩ := matches_lines.mp (h.of_bodies_eq hbodies).1
    have hleaves : leaves .tagLine inside = tokens := by
      rw [leaves_of_content rfl hcontent, leaves_map_leaf hkind]
    have hitems : items keep fallback holder inside =
        tokens.flatMap (Token.items fallback holder) := by
      rw [items_of_content hcontent, items_map_leaf]
    have htoken : ∀ token ∈ tokens,
        token.tags.map (Tag.item holder) = token.items fallback holder := by
      intro token htoken
      rw [Token.items, hkind token htoken, Token.tags, List.map_map]
      rfl
    have hread : (tokens.flatMap Token.tags).map (Tag.item holder) =
        tokens.flatMap (Token.items fallback holder) := by
      rw [List.map_flatMap]
      exact List.flatMap_congr htoken
    simp only [Option.toList_some, List.head?_cons, Option.map_some, Option.getD_some,
      List.map_cons, List.map_nil, items, Block.items, List.append_nil, hleaves, hitems, hread]

/-- The description is that of the one description block, if there is
one. -/
theorem items_description (hkeep : KeepsMarked keep) {lines : Option Body}
    (hbodies : bodies .description body = lines.toList) :
    descriptionItems holder body.description =
      items keep fallback holder (lines.toList.map (.scope .description)) := by
  rw [description, hbodies]
  cases lines with
  | none => rfl
  | some inside =>
    rw [Option.toList_some, List.map_singleton, items, items, List.append_nil, Block.items,
      hkeep.intercalate]
    rfl

/-- Table lines are listed as the rows they are read as. -/
theorem items_rows {tokens : List Token} (hkind : ∀ token ∈ tokens, token.kind = .tableRow)
    (hleaves : leaves .tableRow body = tokens) :
    (rows body).flatMap TableRow.items = items keep fallback holder (tokens.map .leaf) := by
  rw [rows, hleaves, List.flatMap_map, items_map_leaf]
  refine List.flatMap_congr fun token htoken => ?_
  rw [Token.items, hkind token htoken, TableRow.items, Token.row, List.map_map]
  rfl

/-- A title lists its line, and the description below it. -/
theorem items_titled (hkeep : KeepsMarked keep) {line : Token} {lines : Option Body}
    (hline : line? kind body = some line) (hbodies : bodies .description body = lines.toList)
    (hitems : line.items fallback holder = [.title holder line.location line.keyword line.text]) :
    ∃ title, titled? kind body = some title ∧ title.items holder =
      items keep fallback holder (.leaf line :: lines.toList.map (.scope .description)) := by
  refine ⟨line.titled (description body), by rw [titled?, hline]; rfl, ?_⟩
  rw [items, ← items_description hkeep hbodies, Block.items, hitems]
  rfl

/-! ## Part by part -/

variable (fallback holder)

/-- A doc string lists its opening and its lines, whether it was closed or
not. -/
theorem items_docString (h : (Block.scope .docString body).Grammatical) :
    ∃ doc, docString? body = some doc ∧
      doc.items = (Block.scope .docString body).items keep fallback holder := by
  obtain ⟨opening, lines, closing, hopening, hlines, hclosing, hcontent⟩ :=
    of_matches_docString h.1
  have hline : line? .docStringSeparator body = some opening :=
    line?_of_content [] hcontent hopening rfl rfl
  have hclosed : leaves .other (closing.toList.map .leaf) = [] :=
    leaves_map_leaf_of_ne (by simpa using hclosing)
      (show TokenKind.docStringSeparator ≠ .other by decide)
  have hother : leaves .other body = lines := by
    rw [leaves_of_content rfl hcontent, leaves_leaf, if_neg (by rw [hopening]; decide),
      leaves_append, leaves_map_leaf hlines, hclosed, List.append_nil]
  refine ⟨_, by rw [docString?, hline]; rfl, ?_⟩
  -- The body lists a second opening when the doc string was closed; `unclosed` drops it.
  have hlisted : lines.flatMap (Token.items fallback .docString) =
      lines.map fun line => .docLine line.location line.text := by
    rw [List.map_eq_flatMap]
    refine List.flatMap_congr fun line hmem => ?_
    rw [Token.items, hlines line hmem]
  have hdropped : (closing.toList.flatMap (Token.items fallback .docString)).filter
      (fun item => !item.isDocString) = [] := by
    cases closing with
    | none => rfl
    | some line => simp [Token.items, hclosing line rfl, Item.isDocString]
  have hitems : items keep fallback .docString body =
      .docString opening.location opening.text ::
        (lines.map (fun line => .docLine line.location line.text) ++
          closing.toList.flatMap (Token.items fallback .docString)) := by
    rw [items_of_content hcontent, items, items_append, items_map_leaf, items_map_leaf, hlisted,
      Block.items, Token.items, hopening]
    rfl
  have hkept : (lines.map fun line => Item.docLine line.location line.text).filter
      (fun item => !item.isDocString) = lines.map fun line => .docLine line.location line.text := by
    simp [List.filter_eq_self, Item.isDocString]
  rw [Block.items, hitems, unclosed, List.filter_append, hkept, hdropped, List.append_nil, hother,
    DocString.items, List.map_map]
  rfl

/-- A table lists its rows. -/
theorem items_dataTable (h : (Block.scope .dataTable body).Grammatical) :
    (rows body).flatMap TableRow.items = items keep fallback holder body := by
  obtain ⟨tokens, hkind, hcontent⟩ := matches_lines.mp h.1
  have hleaves : leaves .tableRow body = tokens := by
    rw [leaves_of_content rfl hcontent, leaves_map_leaf hkind]
  rw [items_of_content hcontent]
  exact items_rows hkind hleaves

/-- The argument of a step lists what stands behind the step's line. -/
theorem items_argument (h : (Block.scope .step body).Grammatical) :
    ∃ line after, line.kind = .stepLine ∧ body.content = .leaf line :: after ∧
      (argument body).items = items keep fallback .step after := by
  obtain ⟨line, hline, hcontent | ⟨inside, hcontent | hcontent⟩⟩ := of_matches_step h.1
  · have htables : bodies .dataTable body = [] := bodies_of_content hcontent
    have hdocs : bodies .docString body = [] := bodies_of_content hcontent
    refine ⟨line, [], hline, hcontent, ?_⟩
    rw [argument, htables, hdocs]
    rfl
  · have htables : bodies .dataTable body = [inside] := bodies_of_content hcontent
    have hrows : (rows inside).flatMap TableRow.items = items keep fallback .dataTable inside :=
      items_dataTable fallback .dataTable (h.2.of_bodies_eq htables)
    refine ⟨line, _, hline, hcontent, ?_⟩
    rw [argument, htables, items, items, List.append_nil, Block.items, ← hrows]
    rfl
  · have htables : bodies .dataTable body = [] := bodies_of_content hcontent
    have hdocs : bodies .docString body = [inside] := bodies_of_content hcontent
    obtain ⟨doc, hdoc, hitems⟩ := items_docString fallback .step (h.2.of_bodies_eq hdocs)
    refine ⟨line, _, hline, hcontent, ?_⟩
    rw [argument, htables, hdocs, List.filterMap_cons_some hdoc, items, items, List.append_nil,
      ← hitems]
    rfl

/-- A step lists its line, and then the table or the doc string below
it. -/
theorem items_step (h : (Block.scope .step body).Grammatical) :
    ∃ step, step? body = some step ∧
      step.items = (Block.scope .step body).items keep fallback holder := by
  obtain ⟨line, after, hline, hcontent, hargument⟩ := items_argument fallback h
  have hstep : line? .stepLine body = some line := line?_of_content [] hcontent hline rfl rfl
  refine ⟨_, by rw [step?, hstep]; rfl, ?_⟩
  change _ = items keep fallback .step body
  rw [Step.items, hargument, items_of_content hcontent, items, Block.items, Token.items, hline]
  rfl

/-- Steps list their blocks, one after the other. -/
theorem items_steps {insides : List Body} (hbodies : bodies .step body = insides)
    (h : body.Grammatical) :
    (steps body).flatMap Step.items = items keep fallback holder (insides.map (.scope .step)) := by
  rw [steps, hbodies, items_map_scope]
  exact flatMap_items fun inside hinside =>
    items_step fallback holder (h.of_mem_bodies (hbodies ▸ hinside))

variable (hkeep : KeepsMarked keep)
include hkeep

/-- A title, its description and its steps list the front of their rule,
whatever stands behind it. -/
theorem items_titledSteps {line : Token} {description : Option Body} {insides : List Body}
    (hcontent : body.content = .leaf line ::
      (description.toList.map (.scope .description) ++ insides.map (.scope .step)) ++ rest)
    (hrest : bodies .description rest = [] ∧ bodies .step rest = []) (h : body.Grammatical)
    (hkind : line.kind = kind) (hnoise : kind.isNoise = false)
    (hitems : line.items fallback holder = [.title holder line.location line.keyword line.text]) :
    ∃ title, titled? kind body = some title ∧
      title.items holder ++ (steps body).flatMap Step.items ++ items keep fallback holder rest =
        items keep fallback holder body := by
  have hline : line? kind body = some line := line?_of_content [] hcontent hkind hnoise rfl
  have hdescription : bodies .description body = description.toList := by
    rw [bodies_of_content hcontent]
    simp [hrest.1]
  have hsteps : bodies .step body = insides := by
    rw [bodies_of_content hcontent]
    simp [hrest.2]
  obtain ⟨title, htitle, hlisted⟩ := items_titled hkeep hline hdescription hitems
  refine ⟨title, htitle, ?_⟩
  rw [hlisted, items_steps fallback holder hsteps h, ← items_append, ← items_append,
    items_of_content hcontent]
  rfl

/-- A background lists its title and its steps. -/
theorem items_background (h : (Block.scope .background body).Grammatical) :
    ∃ background, background? body = some background ∧
      background.items = (Block.scope .background body).items keep fallback holder := by
  obtain ⟨line, description, insides, hline, hcontent⟩ := of_matches_steps h.1
  -- Nothing stands behind the steps.
  rw [← List.append_nil (_ :: _)] at hcontent
  obtain ⟨title, htitle, hitems⟩ := items_titledSteps fallback .background hkeep hcontent
    ⟨rfl, rfl⟩ h.2 hline rfl (by rw [Token.items, hline])
  refine ⟨{ toSection := title, steps := steps body }, by rw [background?, htitle]; rfl, ?_⟩
  exact (List.append_nil _).symm.trans hitems

/-- An examples table lists its tags, its title and its rows. -/
theorem items_examples (h : (Block.scope .examples body).Grammatical) :
    ∃ examples, examples? body = some examples ∧
      examples.items = (Block.scope .examples body).items keep fallback holder := by
  obtain ⟨tagLines, line, description, tokens, hline, hkind, hcontent⟩ := of_matches_examples h.1
  have hread : line? .examplesLine body = some line :=
    line?_of_content _ hcontent hline rfl leaves_map_scope
  have hdescription : bodies .description body = description.toList := by
    rw [bodies_of_content hcontent]
    simp
  have htags : bodies .tags body = tagLines.toList := by
    rw [bodies_of_content hcontent]
    simp
  have hrows : leaves .tableRow body = tokens := by
    rw [leaves_of_content rfl hcontent]
    simp [hline, leaves_map_leaf hkind]
  obtain ⟨title, htitle, hitems⟩ := items_titled hkeep hread hdescription
    (show line.items fallback .examples = _ by rw [Token.items, hline])
  refine ⟨_, by rw [examples?, htitle]; rfl, ?_⟩
  change _ = items keep fallback .examples body
  rw [ExamplesTable.items, hitems, items_tags htags h.2, items_rows hkind hrows,
    ← items_append, ← items_append, items_of_content hcontent]
  simp

/-- A scenario lists its title and its steps. -/
theorem items_scenario (tags : List Tag) (h : (Block.scope .scenario body).Grammatical) :
    ∃ s, scenario? tags body = some s ∧ s.tags = tags ∧
      s.items .scenario = (Block.scope .scenario body).items keep fallback holder := by
  obtain ⟨line, description, insides, hline, hcontent⟩ := of_matches_steps h.1
  rw [← List.append_nil (_ :: _)] at hcontent
  obtain ⟨title, htitle, hitems⟩ := items_titledSteps fallback .scenario hkeep hcontent
    ⟨rfl, rfl⟩ h.2 hline rfl (by rw [Token.items, hline])
  refine ⟨{ toSection := title, tags, steps := steps body }, by rw [scenario?, htitle]; rfl, rfl,
    ?_⟩
  exact (List.append_nil _).symm.trans hitems

/-- An outline lists its title, its steps and its examples tables. -/
theorem items_outline (tags : List Tag) (h : (Block.scope .outline body).Grammatical) :
    ∃ o, outline? tags body = some o ∧ o.tags = tags ∧
      o.toScenario.items .outline ++ o.examples.flatMap ExamplesTable.items =
        (Block.scope .outline body).items keep fallback holder := by
  obtain ⟨line, description, insides, tables, hline, hcontent⟩ := of_matches_outline h.1
  have htables : bodies .examples body = tables := by
    rw [bodies_of_content hcontent]
    simp
  have hexamples : ((bodies .examples body).filterMap examples?).flatMap ExamplesTable.items =
      items keep fallback .outline (tables.map (.scope .examples)) := by
    rw [htables, items_map_scope]
    exact flatMap_items fun inside hinside =>
      items_examples fallback .outline hkeep (h.2.of_mem_bodies (htables ▸ hinside))
  obtain ⟨title, htitle, hitems⟩ := items_titledSteps fallback .outline hkeep hcontent
    ⟨bodies_map_scope, bodies_map_scope⟩ h.2 hline rfl (by rw [Token.items, hline])
  refine ⟨_, by rw [outline?, htitle]; rfl, rfl, ?_⟩
  rw [hexamples]
  exact hitems

/-- A definition lists its tags, and then its scenario or its outline. -/
theorem items_definition (h : (Block.scope .definition body).Grammatical) :
    ∃ definition, definition? body = some definition ∧
      definition.items = (Block.scope .definition body).items keep fallback holder := by
  obtain ⟨tagLines, inside, hcontent⟩ := of_matches_definition h.1
  have htags : bodies .tags body = tagLines.toList := by
    obtain hcontent | hcontent := hcontent <;> simp [bodies_of_content hcontent]
  obtain hcontent | hcontent := hcontent
  · have hscenario : bodies .scenario body = [inside] := by
      rw [bodies_of_content hcontent]
      simp
    obtain ⟨s, hread, hs, hitems⟩ := items_scenario fallback .definition hkeep (tags body)
      (h.2.of_bodies_eq hscenario)
    have hdefinition : definition? body = some (.scenario s) := by
      rw [definition?, hscenario]
      exact congrArg (Option.map ScenarioDefinition.scenario) hread
    refine ⟨.scenario s, hdefinition, ?_⟩
    change _ = items keep fallback .definition body
    rw [ScenarioDefinition.items, hs, items_tags htags h.2, hitems,
      items_of_content hcontent, items_append, items, items, List.append_nil]
  · have hscenario : bodies .scenario body = [] := by
      rw [bodies_of_content hcontent]
      simp
    have houtline : bodies .outline body = [inside] := by
      rw [bodies_of_content hcontent]
      simp
    obtain ⟨o, hread, ho, hitems⟩ := items_outline fallback .definition hkeep (tags body)
      (h.2.of_bodies_eq houtline)
    have hdefinition : definition? body = some (.outline o) := by
      rw [definition?, hscenario, houtline]
      exact congrArg (Option.map ScenarioDefinition.outline) hread
    refine ⟨.outline o, hdefinition, ?_⟩
    change _ = items keep fallback .definition body
    rw [ScenarioDefinition.items, ho, items_tags htags h.2, List.append_assoc, hitems,
      items_of_content hcontent, items_append, items, items, List.append_nil]

/-- A header lists tags, language, title and description. -/
theorem items_header (h : (Block.scope .featureHeader body).Grammatical) :
    ∃ line, line? .featureLine body = some line ∧
      body.tags.map (Tag.item .featureHeader) ++ .language (line.language.getD fallback) ::
          (line.titled (description body)).items .featureHeader =
        (Block.scope .featureHeader body).items keep fallback holder := by
  obtain ⟨tagLines, line, description, hline, hcontent⟩ := of_matches_featureHeader h.1
  have htags : bodies .tags body = tagLines.toList := by
    rw [bodies_of_content hcontent]
    simp
  have hdescription : bodies .description body = description.toList := by
    rw [bodies_of_content hcontent]
    simp
  refine ⟨line, line?_of_content _ hcontent hline rfl leaves_map_scope, ?_⟩
  change _ = items keep fallback .featureHeader body
  rw [items_tags htags h.2, Section.items, Token.titled, items_description hkeep hdescription,
    items_of_content hcontent, items_append, items, Block.items, Token.items, hline]
  rfl

/-- **A feature lists its blocks.** -/
theorem items_feature (h : (Block.scope .feature body).Grammatical) :
    ∃ feature, feature? fallback body = some feature ∧
      feature.items = (Block.scope .feature body).items keep fallback holder := by
  obtain ⟨inside, backgrounds, definitions, hcontent⟩ := of_matches_feature h.1
  have hheader : bodies .featureHeader body = [inside] := by
    rw [bodies_of_content hcontent]
    simp
  have hbackground : bodies .background body = backgrounds.toList := by
    rw [bodies_of_content hcontent]
    simp
  have hdefinition : bodies .definition body = definitions := by
    rw [bodies_of_content hcontent]
    simp
  obtain ⟨line, hline, htitle⟩ := items_header fallback .feature hkeep
    (h.2.of_bodies_eq hheader)
  -- Of several backgrounds the first would be read; the production allows one at most.
  have hbackgrounds :
      ((bodies .background body).filterMap background?).head?.toList.flatMap Background.items =
        items keep fallback .feature (backgrounds.toList.map (.scope .background)) := by
    cases backgrounds with
    | none =>
      rw [hbackground]
      rfl
    | some b =>
      have hb : (Block.scope .background b).Grammatical :=
        h.2.of_bodies_eq hbackground
      obtain ⟨background, hread, hitems⟩ := items_background fallback .feature hkeep hb
      rw [hbackground, Option.toList_some, List.filterMap_cons_some hread, List.map_singleton,
        items, items, ← hitems]
      rfl
  have hdefinitions :
      ((bodies .definition body).filterMap definition?).flatMap ScenarioDefinition.items =
        items keep fallback .feature (definitions.map (.scope .definition)) := by
    rw [hdefinition, items_map_scope]
    exact flatMap_items fun inside hinside =>
      items_definition fallback .feature hkeep (h.2.of_mem_bodies (hdefinition ▸ hinside))
  have hread : header body = inside := by
    rw [header, hheader]
    rfl
  refine ⟨_, by rw [feature?, hread, hline]; rfl, ?_⟩
  change _ = items keep fallback .feature body
  rw [Feature.items, hbackgrounds, hdefinitions, htitle, items_of_content hcontent, items,
    items_append, List.append_assoc]

end Body

/-- **Nothing is lost, made up, doubled, moved or given to another.** The
feature that is assembled from a document with even tables lists, depth
first, just what the document lists from its first line to its last. -/
theorem items_of_assemble (settings : Settings) {body : Body} (h : body.IsDocument)
    (heven : body.Even) :
    ∃ feature, assemble settings body.events = .ok (some feature) ∧
      ∀ keep, KeepsMarked keep → feature.items = body.items keep settings.language .root := by
  obtain ⟨inside, hcontent⟩ := Body.matches_block.mp h.1
  have hbodies : Body.bodies .feature body = [inside] := by
    rw [Body.bodies_of_content hcontent]
    simp
  obtain ⟨feature, hread, hitems⟩ := Body.items_feature settings.language .root
    keepsMarked_dropTrailing (h.2.of_bodies_eq hbodies)
  have herror : body.error? = none := (Body.error?_eq_none_iff h.2).mpr heven
  refine ⟨feature, ?_, fun keep hkeep => ?_⟩
  · rw [assemble_of_accepted settings herror, hbodies, List.filterMap_cons_some hread]
    rfl
  · obtain rfl := hkeep.unique keepsMarked_dropTrailing
    rw [hitems, Body.items_of_content hcontent, Body.items, Body.items, List.append_nil]

/-- A document of a background with a doc string that is closed, and a
tagged scenario with a table. -/
def evenDocument : Body :=
  [.leaf { kind := .comment, location := ⟨1, 1⟩, text := "# sums" },
    .scope .feature
      [.scope .featureHeader
        [.leaf { kind := .featureLine, location := ⟨2, 1⟩, keyword := "Feature", text := "Sums" },
          .scope .description [.leaf { kind := .other, location := ⟨3, 3⟩, text := "Adding up" },
            .leaf { kind := .other, location := ⟨4, 1⟩ }]],
        .scope .background
          [.leaf { kind := .backgroundLine, location := ⟨5, 3⟩, keyword := "Background" },
            .scope .step
              [.leaf { kind := .stepLine, location := ⟨6, 5⟩, keyword := "Given ", text := "a" },
                .scope .docString
                  [.leaf { kind := .docStringSeparator, location := ⟨7, 7⟩, text := "json" },
                    .leaf { kind := .other, location := ⟨8, 7⟩, text := "[1]" },
                    .leaf { kind := .docStringSeparator, location := ⟨9, 7⟩ }]]],
        .scope .definition
          [.scope .tags
              [.leaf { kind := .tagLine, location := ⟨10, 3⟩, spans := [⟨3, "@a"⟩, ⟨6, "@b"⟩] }],
            .leaf { kind := .empty, location := ⟨11, 1⟩ },
            .scope .scenario
              [.leaf { kind := .scenarioLine, location := ⟨12, 3⟩, keyword := "Scenario" },
                .scope .step
                  [.leaf { kind := .stepLine, location := ⟨13, 5⟩, keyword := "When " },
                    .scope .dataTable
                      [.leaf { kind := .tableRow, location := ⟨14, 7⟩, spans := [⟨9, "x"⟩] },
                        .leaf { kind := .comment, location := ⟨15, 1⟩, text := "# half" },
                        .leaf { kind := .tableRow, location := ⟨16, 7⟩, spans := [⟨9, "1"⟩] }]]]]]]

/-- Its feature lists what it lists. -/
theorem items_of_evenDocument :
    evenDocument.IsDocument ∧ evenDocument.Even ∧ KeepsMarked (dropTrailing isBlank) ∧
      ∃ feature, assemble {} evenDocument.events = .ok (some feature) ∧
        feature.items = evenDocument.items (dropTrailing isBlank) "en" .root := by
  have hdocument : evenDocument.IsDocument := by decide
  have heven : evenDocument.Even := by decide
  obtain ⟨feature, htold, hitems⟩ := items_of_assemble {} hdocument heven
  exact ⟨hdocument, heven, keepsMarked_dropTrailing, feature, htold,
    hitems _ keepsMarked_dropTrailing⟩

end FeatureTree
