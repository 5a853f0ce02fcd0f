import FeatureTree.Assembly.Close
import FeatureTree.Assembly.Receiver
import FeatureTree.Settings
/-!
# Assembly of a feature

An assembly is the state of taking in a document: the frames of the rules
that are open, the innermost first, over a root frame for what lies
outside all rules. Entering a rule opens a frame, a line is filed in the
innermost frame, and an exit closes that frame and files what became of
it in the next. An exit of another rule than the innermost is refused and
changes nothing; a frame that cannot be closed is lost.
-/

namespace FeatureTree

/-- What has been taken in of a document. -/
structure Assembly where
  /-- The language of a feature whose line names none. -/
  fallback : String
  /-- What lies outside all rules. -/
  root : Frame := Frame.empty .root
  /-- The open rules, the innermost first. -/
  frames : List Frame := []

namespace Assembly

/-- Before the first event. -/
def start (settings : Settings) : Assembly :=
  { fallback := settings.language }

/-- The number of open rules. -/
def depth (a : Assembly) : Nat :=
  a.frames.length

/-- The feature made so far, looked up outside all rules. -/
def feature? (a : Assembly) : Option Feature :=
  a.root.children.findSome? fun entry =>
    if entry.1 = .rule .feature then entry.2.feature? else none

/-- What an assembly leaves behind: the first of the features made outside
all rules. Rules still open leave nothing. -/
def finish (a : Assembly) : Option Feature :=
  a.root.first? (.rule .feature) Child.feature?

/-- Looking the feature up on the way finds the one that is left at the
end. -/
theorem feature?_eq_finish (a : Assembly) : a.feature? = a.finish := by
  simp only [feature?, finish, Frame.first?, Frame.collect, List.head?_filterMap]

/-- The assembly with a child filed in its innermost frame. -/
def file (a : Assembly) (key : Key) (child : Child) : Assembly :=
  match a.frames with
  | [] => { a with root := a.root.file key child }
  | frame :: outer => { a with frames := frame.file key child :: outer }

/-- A line is filed under its kind. -/
def leaf (a : Assembly) (token : Token) : Assembly :=
  a.file (.token token.kind) (.token token)

/-- Entering a rule opens an empty frame. -/
def enter (a : Assembly) (rule : Rule) : Assembly :=
  { a with frames := Frame.empty rule :: a.frames }

/-- The innermost frame, if `rule` is the one it belongs to, and the
assembly without it. -/
def pop (a : Assembly) (rule : Rule) : Except Violation (Frame × Assembly) :=
  match a.frames with
  | [] => .error (.exitAtRoot rule)
  | frame :: outer =>
    if frame.rule = rule then .ok (frame, { a with frames := outer })
    else .error (.crossedExit frame.rule rule)

/-- **An exit**: the assembly after it, and the child that was filed or
what went wrong. -/
def exit (a : Assembly) (rule : Rule) : Assembly × Except Fault Child :=
  match a.pop rule with
  | .error violation => (a, .error (.contract violation))
  | .ok (frame, outer) =>
    match frame.close a.fallback with
    | .error fault => (outer, .error fault)
    | .ok child => (outer.file (.rule rule) child, .ok child)

/-- An assembly takes in events, and refuses an exit with the error of
what went wrong. -/
instance : Receiver Assembly where
  leaf := leaf
  enter := enter
  exit a rule :=
    match a.exit rule with
    | (after, .ok _) => (after, none)
    | (after, .error fault) => (after, some fault.error)

end Assembly

end FeatureTree
