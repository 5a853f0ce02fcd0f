import FeatureTree.Assembly.Run
import FeatureTree.Proofs.Block
/-!
# Reading blocks

What a well-nested walk tells, read off its blocks by recursion and
without any state. Every part of a document has a reading of its own,
which looks at the blocks directly inside its rule, and at the readings
of those. What an exit is refused for is read off the same blocks
(`Body.refusal?`); the error of a walk is that of its first refused exit
(`Body.error?`), and without one its outcome is the first feature read
(`Body.outcome`).
-/

namespace FeatureTree

/-- Whether a line of this kind titles a part, and is read for its keyword
and its text. -/
def TokenKind.isTitle : TokenKind → Bool
  | .featureLine | .backgroundLine | .scenarioLine | .outlineLine | .examplesLine | .stepLine => true
  | .endOfFile | .empty | .comment | .tagLine | .docStringSeparator | .tableRow | .language
  | .other => false

namespace Body

/-! ## The parts of a document -/

/-- The first line of a kind. -/
def line? (kind : TokenKind) (body : Body) : Option Token :=
  (leaves kind body).head?

/-- One row for each table line. -/
def rows (body : Body) : List TableRow :=
  (leaves .tableRow body).map Token.row

/-- The text of the lines inside a description. -/
def text (body : Body) : String :=
  describe ((leaves .other body).map Token.text)

/-- The first description, empty where there is none. -/
def description (body : Body) : String :=
  ((bodies .description body).head?.map text).getD ""

/-- The tags on the lines of the first tags block, none where there is no
such block. -/
def tags (body : Body) : List Tag :=
  ((bodies .tags body).head?.map fun lines => (leaves .tagLine lines).flatMap Token.tags).getD []

/-- The first line of a kind as a title, with the first description. -/
def titled? (kind : TokenKind) (body : Body) : Option Section :=
  (line? kind body).map fun line => line.titled (description body)

/-- The first delimiter opens a doc string, and every other line is
content. -/
def docString? (body : Body) : Option DocString :=
  (line? .docStringSeparator body).map fun opening =>
    { location := opening.location, contentType := opening.text,
      lines := (leaves .other body).map Token.docLine }

/-- The first table, or else the first doc string, or else nothing. -/
def argument (body : Body) : StepArgument :=
  match bodies .dataTable body, (bodies .docString body).filterMap docString? with
  | table :: _, _ => .table { rows := rows table }
  | [], doc :: _ => .docString doc
  | [], [] => .empty

/-- The first step line with the argument below it. -/
def step? (body : Body) : Option Step :=
  (line? .stepLine body).map fun line =>
    { location := line.location, keyword := line.keyword, text := line.text,
      argument := argument body }

/-- All steps. -/
def steps (body : Body) : List Step :=
  (bodies .step body).filterMap step?

/-- A background: its title and all steps. -/
def background? (body : Body) : Option Background :=
  (titled? .backgroundLine body).map fun title => { toSection := title, steps := steps body }

/-- An examples table: its title, its tags and one row for each table
line. -/
def examples? (body : Body) : Option ExamplesTable :=
  (titled? .examplesLine body).map fun title =>
    { toSection := title, tags := tags body, rows := rows body }

/-- The inside of a scenario, under the tags of the definition around
it. -/
def scenario? (tags : List Tag) (body : Body) : Option Scenario :=
  (titled? .scenarioLine body).map fun title => { toSection := title, tags, steps := steps body }

/-- The inside of an outline, with all examples. -/
def outline? (tags : List Tag) (body : Body) : Option ScenarioOutline :=
  (titled? .outlineLine body).map fun title =>
    { toSection := title, tags, steps := steps body,
      examples := (bodies .examples body).filterMap examples? }

/-- A definition: the first scenario, or else the first outline, under the
definition's own tags. -/
def definition? (body : Body) : Option ScenarioDefinition :=
  match bodies .scenario body, bodies .outline body with
  | scenario :: _, _ => (scenario? (tags body) scenario).map .scenario
  | [], outline :: _ => (outline? (tags body) outline).map .outline
  | [], [] => none

/-- The inside of the first header, empty where there is none. -/
def header (body : Body) : Body :=
  (bodies .featureHeader body).headD []

/-- A feature: tags, title, language and description from its header, the
first background and all definitions. -/
def feature? (fallback : String) (body : Body) : Option Feature :=
  (line? .featureLine (header body)).map fun line =>
    { toSection := line.titled (description (header body))
      tags := tags (header body)
      language := line.language.getD fallback
      background := ((bodies .background body).filterMap background?).head?
      definitions := (bodies .definition body).filterMap definition? }

/-! ## What an exit is refused for -/

/-- The error of a rule without the line it is made from. -/
def missing? (rule : Rule) (kind : TokenKind) (body : Body) : Option AssemblyError :=
  match line? kind body with
  | some _ => none
  | none => some (.contract (.missingToken rule kind))

/-- The first of some table lines with another number of spans than the
first line. -/
def oddLine? : List Token → Option Token
  | [] => none
  | first :: rest => rest.find? fun line => line.spans.length != first.spans.length

/-- The error of a table that is not even, at its first odd line. -/
def uneven? (body : Body) : Option AssemblyError :=
  (oddLine? (leaves .tableRow body)).map fun line => .unevenTable line.location

/-- The error that the exit of a rule over this body is refused with. An
examples table is asked for its line first; a definition answers for the
line of its scenario or outline, and a feature for that of its header. -/
def refusal? (rule : Rule) (body : Body) : Option AssemblyError :=
  match rule with
  | .step => missing? .step .stepLine body
  | .docString => missing? .docString .docStringSeparator body
  | .dataTable => uneven? body
  | .background => missing? .background .backgroundLine body
  | .definition =>
    match bodies .scenario body, bodies .outline body with
    | scenario :: _, _ => missing? .scenario .scenarioLine scenario
    | [], outline :: _ => missing? .outline .outlineLine outline
    | [], [] => some (.contract .noScenario)
  | .examples => (missing? .examples .examplesLine body).or (uneven? body)
  | .feature => missing? .featureHeader .featureLine (header body)
  | .root | .featureHeader | .scenario | .outline | .tags | .description | .custom _ => none

end Body

mutual

/-- The error of the first exit in a block that is refused; the exits
inside come before the block's own. -/
def Block.error? : Block → Option AssemblyError
  | .leaf _ => none
  | .scope rule body => (Body.error? body).or (Body.refusal? rule body)

/-- The error of the first exit in a body that is refused. -/
def Body.error? : Body → Option AssemblyError
  | [] => none
  | block :: rest => block.error?.or (Body.error? rest)

end

/-- A block is accepted where nothing inside is refused, nor its exit. -/
theorem error?_scope {rule : Rule} {body : Body} (hbody : body.error? = none)
    (hrefusal : Body.refusal? rule body = none) : (Block.scope rule body).error? = none := by
  rw [Block.error?, hbody, hrefusal]
  rfl

/-- Nothing inside a block that is accepted is refused. -/
theorem error?_inside {rule : Rule} {body : Body} (h : (Block.scope rule body).error? = none) :
    body.error? = none :=
  (Option.or_eq_none_iff.mp h).1

namespace Body

variable {body rest : Body}

theorem error?_append : error? (body ++ rest) = (error? body).or (error? rest) := by
  induction body with
  | nil => rfl
  | cons block body ih => rw [List.cons_append, error?, ih, error?, Option.or_assoc]

/-- What is accepted part by part is accepted as a whole. -/
theorem error?_append_eq_none (hbody : error? body = none) (hrest : error? rest = none) :
    error? (body ++ rest) = none := by
  rw [error?_append, hbody, hrest]
  rfl

theorem error?_singleton {block : Block} (h : block.error? = none) : error? [block] = none := by
  rw [error?, h]
  rfl

/-- Nothing is refused in a block of a body that is accepted. -/
theorem error?_of_mem {block : Block} (h : error? body = none) (hmem : block ∈ body) :
    block.error? = none := by
  obtain ⟨earlier, later, rfl⟩ := List.append_of_mem hmem
  rw [error?_append, error?, Option.or_eq_none_iff, Option.or_eq_none_iff] at h
  exact h.2.1

theorem error?_inside_of_mem {rule : Rule} {inside : Body} (h : error? body = none)
    (hmem : .scope rule inside ∈ body) : error? inside = none :=
  error?_inside (error?_of_mem h hmem)

/-- Lines alone are never refused. -/
@[simp] theorem error?_map_leaf {tokens : List Token} : error? (tokens.map .leaf) = none := by
  induction tokens with
  | nil => rfl
  | cons token tokens ih => exact ih

theorem error?_map_scope {rule : Rule} {insides : List Body}
    (h : ∀ inside ∈ insides, (Block.scope rule inside).error? = none) :
    error? (insides.map (.scope rule)) = none := by
  induction insides with
  | nil => rfl
  | cons inside insides ih =>
    rw [List.map_cons, error?, h inside List.mem_cons_self]
    exact ih fun i hi => h i (List.mem_cons_of_mem _ hi)

end Body

/-- **What a well-nested walk comes to**: the error of its first refused
exit, and otherwise the first feature that stands outside all rules. -/
def Body.outcome (settings : Settings) (body : Body) : Outcome :=
  match error? body with
  | some error => .error error
  | none => .ok ((bodies .feature body).filterMap (feature? settings.language)).head?

end FeatureTree
