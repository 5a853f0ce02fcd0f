import FeatureTree.Assembly.Error
import FeatureTree.Grammar.Event
/-!
# Receivers of events

A receiver is a state that takes in the three kinds of event; only an
exit can be refused. `Event.deliver` is the one way in. A `Transcript` is
the plainest receiver: it writes down what it is told, and refuses the
exits it was set up to refuse.
-/

namespace FeatureTree

/-- A state that takes in events. -/
class Receiver (σ : Type) where
  /-- The state after a line. -/
  leaf : σ → Token → σ
  /-- The state after a rule was entered. -/
  enter : σ → Rule → σ
  /-- The state after a rule was exited, and the error if it refuses. -/
  exit : σ → Rule → σ × Option AssemblyError

/-- The receiver after an event, and the error if it was refused. -/
def Event.deliver {σ : Type} [Receiver σ] (state : σ) : Event → σ × Option AssemblyError
  | .leaf token => (Receiver.leaf state token, none)
  | .enter rule => (Receiver.enter state rule, none)
  | .exit rule => Receiver.exit state rule

/-- A receiver that writes down each event; `refusals` pairs the rules
whose exits it refuses with the error it gives. -/
structure Transcript where
  refusals : List (Rule × AssemblyError)
  lines : List String := []

namespace Transcript

/-- The transcript with one more line. -/
def note (t : Transcript) (line : String) : Transcript :=
  { t with lines := t.lines ++ [line] }

/-- A transcript takes in everything, and writes down an exit before it
refuses it. -/
instance : Receiver Transcript where
  leaf t token := t.note ("leaf " ++ token.kind.name ++ " " ++ token.location.text)
  enter t rule := t.note ("enter " ++ rule.name)
  exit t rule := (t.note ("exit " ++ rule.name), t.refusals.lookup rule)

end Transcript

end FeatureTree
