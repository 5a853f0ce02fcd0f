import FeatureTree.Assembly.Basic
/-!
# Runs of an assembly

A run stops at the first event that is refused; `assemble` runs the
events of a document and gives the feature they hold. `deliverAll` goes
on after refusals.
-/

namespace FeatureTree

namespace Assembly

/-- The assembly after an event, and the error if it was refused. -/
abbrev step (a : Assembly) (event : Event) : Assembly × Option AssemblyError :=
  event.deliver a

/-- The assembly after all events, or the first error. -/
def run (a : Assembly) : List Event → Except AssemblyError Assembly
  | [] => .ok a
  | event :: rest =>
    match a.step event with
    | (after, none) => after.run rest
    | (_, some error) => .error error

/-- A run goes on from where its first part ends. -/
theorem run_append (a : Assembly) (events later : List Event) :
    a.run (events ++ later) =
      match a.run events with
      | .ok b => b.run later
      | .error error => .error error := by
  induction events generalizing a with
  | nil => rfl
  | cons event rest ih =>
    simp only [List.cons_append, run]
    obtain ⟨after, answer⟩ := a.step event
    cases answer with
    | none => exact ih after
    | some error => rfl

/-- The assembly after all events, those that were refused included. -/
def deliverAll (a : Assembly) (events : List Event) : Assembly :=
  events.foldl (fun state event => (state.step event).1) a

end Assembly

/-- What comes of a document's events: the first error, or the feature if
there was one. -/
abbrev Outcome := Except AssemblyError (Option Feature)

/-- Outcomes are compared with everything in them, places included. -/
instance Outcome.decEq : DecidableEq Outcome
  | .ok f, .ok g =>
    if h : f = g then .isTrue (congrArg Except.ok h) else .isFalse fun e => h (Except.ok.inj e)
  | .error e, .error e' =>
    if h : e = e' then .isTrue (congrArg Except.error h)
    else .isFalse fun eq => h (Except.error.inj eq)
  | .ok _, .error _ => .isFalse nofun
  | .error _, .ok _ => .isFalse nofun

/-- **The feature that a sequence of events tells**, under some
settings. -/
def assemble (settings : Settings) (events : List Event) : Outcome :=
  ((Assembly.start settings).run events).map Assembly.finish

end FeatureTree
