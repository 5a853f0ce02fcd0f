import FeatureTree.Log.Record
/-!
# The console log

A host program without a log of its own can have entries written to the
console. Each entry comes from a target, a path of names; settings ask for
the targets of this library, from their severity on, in a directive
(`Settings.directive`). What a directive lets through and how often a
filter can be installed is up to the console (`Console`), of which
`Console.keepingFirst` is one; settings whose filter is refused are passed
over without a word.
-/

namespace FeatureTree

/-- Which entries are let through, by target and severity. -/
abbrev LogFilter := String → Severity → Bool

/-- **What a console brings along**: filters that are read off directives,
and a process to install them in. -/
structure Console where
  /-- The filter that a directive asks for. -/
  read : String → LogFilter
  /-- What a process has come to. -/
  Process : Type
  /-- A fresh process. -/
  fresh : Process
  /-- A process after a filter was installed, if it was not refused. -/
  install : Process → LogFilter → Option Process
  /-- The filter that a process has, if any. -/
  installed : Process → Option LogFilter

/-- The name that the targets of this library start with. -/
def logTarget : String := "gherkin_ast_builder"

/-- The directive that settings ask for covers this library alone. -/
def Settings.directive (settings : Settings) : String :=
  logTarget ++ "=" ++ settings.severity.name

/-- Where an entry comes from: what is told of a part being made comes
from closing its frame, all else from the assembly. -/
def Entry.target : Entry → String
  | .made .. | .oddRow .. => "gherkin_ast_builder::transform"
  | .leaf .. | .entered .. | .exited .. | .refused .. | .failed .. =>
    "gherkin_ast_builder::builder"

namespace Console

variable (console : Console)

/-- A process after settings asked for their entries. Where their filter
is refused it stays as it is. -/
def ask (process : console.Process) (settings : Settings) : console.Process :=
  (console.install process (console.read settings.directive)).getD process

/-- A process in which these settings asked in turn. -/
def asked (settings : List Settings) : console.Process :=
  settings.foldl console.ask console.fresh

/-- Whether entries of a target and a severity are shown; without a filter
none are. -/
def enables (process : console.Process) (target : String) (s : Severity) : Bool :=
  match console.installed process with
  | some filter => filter target s
  | none => false

/-- The severities shown for a target, the least first. -/
def enabled (process : console.Process) (target : String) : List Severity :=
  Severity.all.filter (console.enables process target)

/-- The entries that are shown. -/
def shown (process : console.Process) (log : List Entry) : List Entry :=
  log.filter fun entry => console.enables process entry.target entry.severity

end Console

/-- The filter of a directive whose equals sign stands between the start of
targets and the name of a severity. -/
def LogFilter.ofDirective (directive : String) : LogFilter := fun target s =>
  let scope := directive.toList.takeWhile (· != '=')
  let name := (directive.toList.dropWhile (· != '=')).drop 1
  scope.isPrefixOf target.toList &&
    (Severity.all.find? fun threshold => threshold.name.toList == name).any (·.shows s)

/-- A console that reads such directives and keeps the first filter it is
given. -/
def Console.keepingFirst : Console where
  read := LogFilter.ofDirective
  Process := Option LogFilter
  fresh := none
  install
    | none, filter => some (some filter)
    | some _, _ => none
  installed := id

end FeatureTree
