import FeatureTree.Assembly.Run
import FeatureTree.Log.Entry
/-!
# The log of a run

What an assembly tells at each event, and the whole log of a run, which
ends with the first refusal.
-/

namespace FeatureTree

/-- What is told when an exit of `rule` fails: an odd row for an uneven
table, a refusal for an exit that fits no open rule, and a failure for
everything else. -/
def Fault.entry (rule : Rule) : Fault → Entry
  | .unevenTable location expected actual => .oddRow location expected actual
  | .contract (.crossedExit opened found) => .refused rule (.crossedExit opened found)
  | .contract (.exitAtRoot found) => .refused rule (.exitAtRoot found)
  | .contract .noScenario => .failed rule (.contract .noScenario)
  | .contract (.missingToken owner kind) => .failed rule (.contract (.missingToken owner kind))

/-- What is told of a child before its exit is: of a feature its name, its
language and the number of its definitions. -/
def Child.entries : Child → List Entry
  | .feature f => [.made f.name f.language f.definitions.length]
  | _ => []

namespace Assembly

/-- What is told at an event. -/
def entries (a : Assembly) : Event → List Entry
  | .leaf token => [.leaf token.kind token.location]
  | .enter rule => [.entered rule a.depth]
  | .exit rule =>
    match (a.exit rule).2 with
    | .ok child => child.entries ++ [.exited rule child.sort]
    | .error fault => [fault.entry rule]

/-- The log of a run: nothing is told after the first refusal. -/
def log (a : Assembly) : List Event → List Entry
  | [] => []
  | event :: rest =>
    a.entries event ++
      match a.step event with
      | (after, none) => after.log rest
      | (_, some _) => []

end Assembly

/-- The log of assembling a feature. -/
def assemblyLog (settings : Settings) (events : List Event) : List Entry :=
  (Assembly.start settings).log events

end FeatureTree
