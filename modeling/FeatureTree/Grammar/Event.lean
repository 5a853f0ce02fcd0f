import FeatureTree.Grammar.Rule
/-!
# Events

A grammar tells a document as a sequence of events: a rule is entered, a
line is met, a rule is exited.
-/

namespace FeatureTree

/-- One event of a grammar's walk over a document. -/
inductive Event where
  | enter (rule : Rule)
  | leaf (token : Token)
  | exit (rule : Rule)
  deriving DecidableEq

end FeatureTree
