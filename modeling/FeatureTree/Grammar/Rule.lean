import FeatureTree.Grammar.Token
/-!
# Rules and keys

The rules of the grammar, and the keys that a rule's children are filed
under: a line under its kind, a finished rule under the rule. A custom
rule has a name of its own and differs from every rule listed here, even
from one with the same name.
-/

namespace FeatureTree

/-- The rules of the grammar; `root` stands for the document outside all
rules. -/
inductive Rule where
  | root
  | feature
  | featureHeader
  | background
  | definition
  | scenario
  | outline
  | examples
  | step
  | dataTable
  | docString
  | tags
  | description
  | custom (name : String)
  deriving DecidableEq

/-- The name of a rule in the grammar. -/
def Rule.name : Rule → String
  | .root => "None"
  | .feature => "Feature"
  | .featureHeader => "Feature_Header"
  | .background => "Background"
  | .definition => "Scenario_Definition"
  | .scenario => "Scenario"
  | .outline => "ScenarioOutline"
  | .examples => "Examples"
  | .step => "Step"
  | .dataTable => "DataTable"
  | .docString => "DocString"
  | .tags => "Tags"
  | .description => "Description"
  | .custom name => name

/-- What a child is filed under: the kind of its line, or its rule. -/
inductive Key where
  | token (kind : TokenKind)
  | rule (rule : Rule)
  deriving DecidableEq

/-- The name of a key in the grammar; a line and a rule may share one. -/
def Key.name : Key → String
  | .token k => k.name
  | .rule r => r.name

end FeatureTree
