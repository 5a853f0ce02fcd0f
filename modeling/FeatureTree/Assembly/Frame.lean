import FeatureTree.Assembly.Error
/-!
# Frames

A frame is an open rule and what was delivered inside it, each child
under its key in the order of delivery. A child is a line, a finished
part of the document, or a group: the frame of a rule that makes no part
of its own and is left for an enclosing rule to read. Children are only
ever read by key, all of one key in their order (`Frame.collect`) or the
first of them (`Frame.first?`).
-/

namespace FeatureTree

/-- What a frame can hold. -/
inductive Child where
  | token (token : Token)
  | group (rule : Rule) (children : List (Key × Child))
  | step (step : Step)
  | docString (doc : DocString)
  | dataTable (table : DataTable)
  | background (background : Background)
  | definition (definition : ScenarioDefinition)
  | examples (examples : ExamplesTable)
  | description (text : String)
  | feature (feature : Feature)

/-- A rule and the children filed in it, in the order they came. -/
structure Frame where
  rule : Rule
  children : List (Key × Child)

namespace Child

/-- The word for what a child is. -/
def sort : Child → String
  | .token _ => "token"
  | .group _ _ => "node"
  | .step _ => "step"
  | .docString _ => "doc string"
  | .dataTable _ => "data table"
  | .background _ => "background"
  | .definition _ => "scenario definition"
  | .examples _ => "examples"
  | .description _ => "description"
  | .feature _ => "feature"

/-- The line, of a child that is one. -/
def token? : Child → Option Token
  | .token t => some t
  | _ => none

/-- The frame, of a child that is a group. -/
def group? : Child → Option Frame
  | .group rule children => some { rule, children }
  | _ => none

/-- The step, of a child that is one. -/
def step? : Child → Option Step
  | .step s => some s
  | _ => none

/-- The doc string, of a child that is one. -/
def docString? : Child → Option DocString
  | .docString doc => some doc
  | _ => none

/-- The table, of a child that is one. -/
def dataTable? : Child → Option DataTable
  | .dataTable table => some table
  | _ => none

/-- The background, of a child that is one. -/
def background? : Child → Option Background
  | .background b => some b
  | _ => none

/-- The definition, of a child that is one. -/
def definition? : Child → Option ScenarioDefinition
  | .definition d => some d
  | _ => none

/-- The examples table, of a child that is one. -/
def examples? : Child → Option ExamplesTable
  | .examples e => some e
  | _ => none

/-- The text, of a child that is a description. -/
def description? : Child → Option String
  | .description text => some text
  | _ => none

/-- The feature, of a child that is one. -/
def feature? : Child → Option Feature
  | .feature f => some f
  | _ => none

end Child

namespace Frame

variable {α : Type _}

/-- A rule just entered. -/
def empty (rule : Rule) : Frame :=
  { rule, children := [] }

/-- The frame with one more child under `key`, behind all others. -/
def file (f : Frame) (key : Key) (child : Child) : Frame :=
  { f with children := f.children ++ [(key, child)] }

/-- All children under `key` that `pick` accepts, in the order they
came. -/
def collect (f : Frame) (key : Key) (pick : Child → Option α) : List α :=
  f.children.filterMap fun entry => if entry.1 = key then pick entry.2 else none

/-- The first child under `key` that `pick` accepts. -/
def first? (f : Frame) (key : Key) (pick : Child → Option α) : Option α :=
  (f.collect key pick).head?

/-- Nothing is filed in a rule just entered. -/
@[simp] theorem collect_empty (rule : Rule) (key : Key) (pick : Child → Option α) :
    (empty rule).collect key pick = [] := rfl

/-- Filing leaves the rule. -/
@[simp] theorem rule_file (f : Frame) (key : Key) (child : Child) :
    (f.file key child).rule = f.rule := rfl

/-- **Filing is seen under its own key alone**, and there behind what was
filed before. -/
theorem collect_file (f : Frame) (key key' : Key) (child : Child) (pick : Child → Option α) :
    (f.file key child).collect key' pick =
      f.collect key' pick ++ if key = key' then (pick child).toList else [] := by
  simp only [collect, file, List.filterMap_append]
  by_cases h : key = key' <;> cases hp : pick child <;> simp [h, hp]

/-! ## What the rules read -/

/-- The lines of one kind. -/
def tokens (f : Frame) (kind : TokenKind) : List Token :=
  f.collect (.token kind) Child.token?

/-- The first line of one kind. -/
def token? (f : Frame) (kind : TokenKind) : Option Token :=
  f.first? (.token kind) Child.token?

/-- The first group of one rule. -/
def group? (f : Frame) (rule : Rule) : Option Frame :=
  f.first? (.rule rule) Child.group?

/-- The description, empty when none was made. -/
def description (f : Frame) : String :=
  (f.first? (.rule .description) Child.description?).getD ""

/-- The steps. -/
def steps (f : Frame) : List Step :=
  f.collect (.rule .step) Child.step?

/-- The examples tables. -/
def examples (f : Frame) : List ExamplesTable :=
  f.collect (.rule .examples) Child.examples?

/-- The background, if one was made. -/
def background? (f : Frame) : Option Background :=
  f.first? (.rule .background) Child.background?

/-- The scenario definitions. -/
def definitions (f : Frame) : List ScenarioDefinition :=
  f.collect (.rule .definition) Child.definition?

/-- The data table, if one was made. -/
def dataTable? (f : Frame) : Option DataTable :=
  f.first? (.rule .dataTable) Child.dataTable?

/-- The doc string, if one was made. -/
def docString? (f : Frame) : Option DocString :=
  f.first? (.rule .docString) Child.docString?

/-- The argument of a step: a table if there is one, else a doc string if
there is one. -/
def argument (f : Frame) : StepArgument :=
  match f.dataTable? with
  | some table => .table table
  | none =>
    match f.docString? with
    | some doc => .docString doc
    | none => .empty

/-- The tags on the lines of the first tags group, line by line. -/
def tags (f : Frame) : List Tag :=
  match f.group? .tags with
  | some group => (group.tokens .tagLine).flatMap Token.tags
  | none => []

end Frame

end FeatureTree
