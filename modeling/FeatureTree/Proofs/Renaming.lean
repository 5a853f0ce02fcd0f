import FeatureTree.Proofs.Retelling
import FeatureTree.Proofs.Siblings
/-!
# Names of custom rules

A custom rule is told from every other by its name and by being custom,
and nothing is done with its name but to show it. So the names can be
changed, as long as different ones stay different, and a walk comes to the
same feature, or to the same error about the rules as they are called
now. A custom rule that is called like a rule of the grammar is not
mistaken for it: the exit of either leaves the other open, and the custom
rule is read as nothing. `opaqueNames` puts these together.
-/

namespace FeatureTree

/-- An event with its custom rule called otherwise. -/
def Event.rename (name : String → String) : Event → Event
  | .enter rule => .enter (rule.rename name)
  | .leaf token => .leaf token
  | .exit rule => .exit (rule.rename name)

/-- A violation about the rules called otherwise. -/
def Violation.rename (name : String → String) : Violation → Violation
  | .crossedExit opened found => .crossedExit (opened.rename name) (found.rename name)
  | .exitAtRoot rule => .exitAtRoot (rule.rename name)
  | .noScenario => .noScenario
  | .missingToken rule kind => .missingToken (rule.rename name) kind

/-- An error about the rules called otherwise. -/
def AssemblyError.rename (name : String → String) : AssemblyError → AssemblyError
  | .unevenTable location => .unevenTable location
  | .contract violation => .contract (violation.rename name)

/-- Whether a rule is a custom one. -/
def Rule.isCustom : Rule → Bool
  | .custom _ => true
  | .root | .feature | .featureHeader | .background | .definition | .scenario | .outline
  | .examples | .step | .dataTable | .docString | .tags | .description => false

theorem Rule.ne_custom {rule : Rule} (h : rule.isCustom = false) (name : String) :
    rule ≠ .custom name := by
  rintro rfl
  cases h

/-! ## Calling rules otherwise -/

section

variable {name : String → String} (hname : Function.Injective name)

/-- The walk told with its custom rules called otherwise. -/
def renamed : Retelling where
  toRelabelling := .unchanged
  language := id
  name
  retell := id
  name_injective := hname
  kind_retell _ := rfl
  title_retell _ _ _ := rfl
  language_retell t _ := (congrFun Option.map_id t.language).symm
  opening_retell _ _ := ⟨rfl, rfl⟩
  docLine_retell _ _ := rfl
  row_retell t _ := by rw [Relabelling.row_unchanged]; rfl
  tags_retell t _ := by rw [Relabelling.tag_unchanged, List.map_id]; rfl

theorem event_renamed : (renamed hname).event = Event.rename name := by
  funext event
  cases event <;> rfl

theorem error_renamed : (renamed hname).error = AssemblyError.rename name := by
  funext error
  cases error with
  | unevenTable location => rfl
  | contract violation => cases violation <;> rfl

include hname in
/-- The walk comes to the same, but for the names in its error. -/
theorem assemble_rename (settings : Settings) (events : List Event) :
    assemble settings (events.map (Event.rename name)) =
      (assemble settings events).mapError (AssemblyError.rename name) := by
  have hretold := (renamed hname).assemble_retold settings events
  rwa [event_renamed, (renamed hname).outcome_of_unchanged rfl rfl, error_renamed] at hretold

end

/-! ## Exits -/

/-- The exit of another rule than the innermost open one is refused and
leaves everything as it is. -/
theorem step_exit_of_opened {settings : Settings} {events : List Event} {opened rule : Rule}
    (hopened : (openedBy events).head? = some opened) (hne : opened ≠ rule) :
    (reached settings events).step (.exit rule) =
      (reached settings events, some (.contract (.crossedExit opened rule))) :=
  Assembly.step_exit_of_ne ((place_reached settings events).trans hopened) hne

/-! ## Opaque names -/

/-- **What a custom rule is called makes no difference.** -/
structure OpaqueNames (settings : Settings) : Prop where
  /-- Custom rules can be called otherwise in any walk, by names of the
  grammar too, as long as different names stay different. -/
  renamed (name : String → String) (hname : Function.Injective name) (events : List Event) :
    assemble settings (events.map (Event.rename name)) =
      (assemble settings events).mapError (AssemblyError.rename name)
  /-- No other rule closes an open custom rule, whatever went before and
  however the two are called. -/
  open_custom (events : List Event) (name : String) (rule : Rule) (hrule : rule.isCustom = false)
    (hopened : (openedBy events).head? = some (.custom name)) :
    (reached settings events).step (.exit rule) =
      (reached settings events, some (.contract (.crossedExit (.custom name) rule)))
  /-- And a custom rule closes no other. -/
  exit_custom (events : List Event) (name : String) (rule : Rule) (hrule : rule.isCustom = false)
    (hopened : (openedBy events).head? = some rule) :
    (reached settings events).step (.exit (.custom name)) =
      (reached settings events, some (.contract (.crossedExit rule (.custom name))))
  /-- A custom rule with all that is in it, if this is not refused by
  itself, is read nowhere: it can be left out. -/
  unread (before after : List Event) (name : String) (body : Body)
    (haccepted : (Block.scope (.custom name) body).Accepted settings) :
    assemble settings (before ++ (Block.scope (.custom name) body).events ++ after) =
      assemble settings (before ++ after)

theorem opaqueNames (settings : Settings) : OpaqueNames settings where
  renamed _ hname events := assemble_rename hname settings events
  open_custom _ name _ hrule hopened :=
    step_exit_of_opened hopened (Rule.ne_custom hrule name).symm
  exit_custom _ name _ hrule hopened := step_exit_of_opened hopened (Rule.ne_custom hrule name)
  unread before after name body haccepted := by
    refine assemble_idle haccepted (.unread fun hread => ?_)
    have hignored := isIgnored_of_mem_readKeys _ _ hread
    cases hignored

/-- The exit of a step does not close a custom rule that is called like
one. -/
example : assemble {} [.enter .step, .enter (.custom "Step"), .exit .step] =
    .error (.contract (.crossedExit (.custom "Step") .step)) :=
  rfl

end FeatureTree
