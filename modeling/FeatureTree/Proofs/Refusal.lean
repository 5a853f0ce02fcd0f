import FeatureTree.Proofs.Evaluation
import FeatureTree.Proofs.Stored
import FeatureTree.Proofs.Tables
/-!
# What an exit is refused for

The exit of the innermost open rule is judged by what stands directly in
its frame, key by key (`Frame.Refused`): by the line it is made from, by
the lines of its table, and for a definition and a feature by the first
group of the rule that has their title. `exit_refused_iff` says that in
whatever state an assembly is, such an exit is refused in these cases
alone, and with the error named for each.
-/

namespace FeatureTree

/-! ## Refusals by what stands in a frame -/

/-- The kind of line that a rule is made from, where it is asked of the
rule's own frame. -/
def Rule.ownLine? : Rule → Option TokenKind
  | .step => some .stepLine
  | .docString => some .docStringSeparator
  | .background => some .backgroundLine
  | .examples => some .examplesLine
  | .root | .feature | .featureHeader | .definition | .scenario | .outline | .dataTable | .tags
  | .description | .custom _ => none

namespace Frame

/-- **What the exit of a rule is refused for**, by what stands in its
frame. -/
inductive Refused (f : Frame) : AssemblyError → Prop where
  /-- A step, a doc string, a background or an examples table has no line
  of its own, whatever else is wrong with it. -/
  | noLine {kind : TokenKind} (hrule : f.rule.ownLine? = some kind)
      (hnone : f.under (.token kind) = []) :
      Refused f (.contract (.missingToken f.rule kind))
  /-- The lines of a data table differ in their number of spans. -/
  | unevenTable {lines : List Token} {line : Token} (hrule : f.rule = .dataTable)
      (hlines : f.under (.token .tableRow) = lines.map .token)
      (hodd : IsFirstOddLine lines line) : Refused f (.unevenTable line.location)
  /-- So do those of an examples table, and it has its line. -/
  | unevenExamples {lines : List Token} {line : Token} (hrule : f.rule = .examples)
      (hline : f.under (.token .examplesLine) ≠ [])
      (hlines : f.under (.token .tableRow) = lines.map .token)
      (hodd : IsFirstOddLine lines line) : Refused f (.unevenTable line.location)
  /-- The first scenario of a definition has no line, whatever stands
  beside it. -/
  | scenario {children : List (Key × Child)} (hrule : f.rule = .definition)
      (hfirst : (f.under (.rule .scenario)).head? = some (.group .scenario children))
      (hnone : ({ rule := .scenario, children } : Frame).under (.token .scenarioLine) = []) :
      Refused f (.contract (.missingToken .scenario .scenarioLine))
  /-- It has no scenario, and its first outline has no line. -/
  | outline {children : List (Key × Child)} (hrule : f.rule = .definition)
      (hscenario : f.under (.rule .scenario) = [])
      (hfirst : (f.under (.rule .outline)).head? = some (.group .outline children))
      (hnone : ({ rule := .outline, children } : Frame).under (.token .outlineLine) = []) :
      Refused f (.contract (.missingToken .outline .outlineLine))
  /-- It has neither. -/
  | noScenario (hrule : f.rule = .definition) (hscenario : f.under (.rule .scenario) = [])
      (houtline : f.under (.rule .outline) = []) : Refused f (.contract .noScenario)
  /-- A feature has no header. -/
  | noHeader (hrule : f.rule = .feature) (hheader : f.under (.rule .featureHeader) = []) :
      Refused f (.contract (.missingToken .featureHeader .featureLine))
  /-- The first header of a feature has no line. -/
  | header {children : List (Key × Child)} (hrule : f.rule = .feature)
      (hfirst : (f.under (.rule .featureHeader)).head? = some (.group .featureHeader children))
      (hnone : ({ rule := .featureHeader, children } : Frame).under (.token .featureLine) = []) :
      Refused f (.contract (.missingToken .featureHeader .featureLine))

variable {f : Frame} {kind : TokenKind} {error : AssemblyError} {fallback : String}
variable (hfiled : f.Throughout Filed)
include hfiled

/-- A line is asked for in vain where none stands. -/
theorem errorOf_require_iff :
    errorOf (f.require kind) = some error ↔
      f.under (.token kind) = [] ∧ .contract (.missingToken f.rule kind) = error := by
  rw [errorOf_require, ← map_tokens hfiled, List.map_eq_nil_iff]
  split
  · next hnone => simp [hnone]
  · next hsome => simp [hsome]

/-- And not in vain where one does. -/
theorem errorOf_require_eq_none_iff :
    errorOf (f.require kind) = none ↔ f.under (.token kind) ≠ [] := by
  rw [errorOf_require, ← map_tokens hfiled, Ne, List.map_eq_nil_iff]
  split
  · next hnone => simp [hnone]
  · next hsome => simp [hsome]

/-- Rows are refused at the first odd line. -/
theorem errorOf_rows_iff :
    errorOf f.rows = some error ↔
      ∃ lines line, f.under (.token .tableRow) = lines.map .token ∧
        IsFirstOddLine lines line ∧ .unevenTable line.location = error := by
  rw [errorOf_rows, Body.oddRow?_map_row, ← map_tokens hfiled]
  constructor
  · intro h
    obtain ⟨row, hrow, rfl⟩ := Option.map_eq_some_iff.mp h
    obtain ⟨line, hline, rfl⟩ := Option.map_eq_some_iff.mp hrow
    exact ⟨_, line, rfl, Body.oddLine?_eq_some_iff.mp hline, rfl⟩
  · rintro ⟨lines, line, hlines, hodd, rfl⟩
    have htokens : f.tokens .tableRow = lines :=
      List.map_injective_iff.mpr (fun _ _ => Child.token.inj) hlines
    rw [htokens, Body.oddLine?_eq_some_iff.mpr hodd]
    rfl

/-- A definition that cannot be made is refused. -/
theorem refused_of_errorOf_toDefinition (hrule : f.rule = .definition)
    (h : errorOf f.toDefinition = some error) : f.Refused error := by
  rw [errorOf_toDefinition] at h
  obtain ⟨hscenario, hgroup⟩ | ⟨children, hfirst, hgroup, hinner⟩ :=
    under_group hfiled .scenario rfl
  · rw [hgroup] at h
    obtain ⟨houtline, hgroup⟩ | ⟨children, hfirst, hgroup, hinner⟩ :=
      under_group hfiled .outline rfl
    · rw [hgroup] at h
      obtain rfl := Option.some.inj h
      exact .noScenario hrule hscenario houtline
    · rw [hgroup] at h
      obtain ⟨hnone, rfl⟩ := (errorOf_require_iff hinner).mp h
      exact .outline hrule hscenario hfirst hnone
  · rw [hgroup] at h
    obtain ⟨hnone, rfl⟩ := (errorOf_require_iff hinner).mp h
    exact .scenario hrule hfirst hnone

/-- So is an examples table, for its line before its rows. -/
theorem refused_of_errorOf_toExamples (hrule : f.rule = .examples)
    (h : errorOf f.toExamples = some error) : f.Refused error := by
  rw [errorOf_toExamples] at h
  obtain hline | ⟨hline, hrows⟩ := Option.or_eq_some_iff.mp h
  · obtain ⟨hnone, rfl⟩ := (errorOf_require_iff hfiled).mp hline
    exact .noLine (by rw [hrule]; rfl) hnone
  · have hsome := (errorOf_require_eq_none_iff hfiled).mp hline
    obtain ⟨lines, line, hlines, hodd, rfl⟩ := (errorOf_rows_iff hfiled).mp hrows
    exact .unevenExamples hrule hsome hlines hodd

/-- **A frame that cannot be closed is refused**, -/
theorem refused_of_errorOf_close (h : errorOf (f.close fallback) = some error) :
    f.Refused error := by
  rw [errorOf_close] at h
  cases hrule : f.rule with
  | step | docString | background =>
    rw [hrule] at h
    obtain ⟨hnone, rfl⟩ := (errorOf_require_iff hfiled).mp h
    exact .noLine (by rw [hrule]; rfl) hnone
  | dataTable =>
    rw [hrule] at h
    obtain ⟨lines, line, hlines, hodd, rfl⟩ := (errorOf_rows_iff hfiled).mp h
    exact .unevenTable hrule hlines hodd
  | examples =>
    rw [hrule] at h
    exact refused_of_errorOf_toExamples hfiled hrule h
  | definition =>
    rw [hrule] at h
    exact refused_of_errorOf_toDefinition hfiled hrule h
  | feature =>
    rw [hrule] at h
    obtain ⟨hheader, hgroup⟩ | ⟨children, hfirst, hgroup, hinner⟩ :=
      under_group hfiled .featureHeader rfl
    · rw [header, hgroup] at h
      obtain rfl := Option.some.inj h
      exact .noHeader hrule hheader
    · rw [header, hgroup] at h
      obtain ⟨hnone, rfl⟩ := (errorOf_require_iff hinner).mp h
      exact .header hrule hfirst hnone
  | root | featureHeader | scenario | outline | tags | description | custom _ =>
    rw [hrule] at h
    cases h

/-- **and one that is refused cannot be closed.** -/
theorem errorOf_close_of_refused (h : f.Refused error) :
    errorOf (f.close fallback) = some error := by
  rw [errorOf_close]
  cases h with
  | @noLine kind hown hnone =>
    have hline : errorOf (f.require kind) = some (.contract (.missingToken f.rule kind)) :=
      (errorOf_require_iff hfiled).mpr ⟨hnone, rfl⟩
    cases hrule : f.rule with
    | step | docString | background =>
      rw [hrule] at hown
      obtain rfl := Option.some.inj hown
      rw [hrule] at hline
      exact hline
    | examples =>
      rw [hrule] at hown
      obtain rfl := Option.some.inj hown
      rw [hrule] at hline
      rw [errorOf_toExamples, hline]
      rfl
    | root | feature | featureHeader | definition | scenario | outline | dataTable | tags
    | description | custom _ =>
      rw [hrule] at hown
      cases hown
  | unevenTable hrule hlines hodd =>
    rw [hrule]
    exact (errorOf_rows_iff hfiled).mpr ⟨_, _, hlines, hodd, rfl⟩
  | unevenExamples hrule hline hlines hodd =>
    have hrows := (errorOf_rows_iff hfiled).mpr ⟨_, _, hlines, hodd, rfl⟩
    rw [hrule, errorOf_toExamples, (errorOf_require_eq_none_iff hfiled).mpr hline, hrows]
    rfl
  | scenario hrule hfirst hnone =>
    obtain ⟨hgroup, hinner⟩ := group_of_head? hfiled rfl hfirst
    rw [hrule, errorOf_toDefinition, hgroup]
    exact (errorOf_require_iff hinner).mpr ⟨hnone, rfl⟩
  | outline hrule hscenario hfirst hnone =>
    obtain ⟨hgroup, hinner⟩ := group_of_head? hfiled rfl hfirst
    rw [hrule, errorOf_toDefinition, group_of_under_eq_nil hfiled rfl hscenario, hgroup]
    exact (errorOf_require_iff hinner).mpr ⟨hnone, rfl⟩
  | noScenario hrule hscenario houtline =>
    rw [hrule, errorOf_toDefinition, group_of_under_eq_nil hfiled rfl hscenario,
      group_of_under_eq_nil hfiled rfl houtline]
  | noHeader hrule hheader =>
    rw [hrule, header, group_of_under_eq_nil hfiled rfl hheader]
    rfl
  | header hrule hfirst hnone =>
    obtain ⟨hgroup, hinner⟩ := group_of_head? hfiled rfl hfirst
    rw [hrule, Frame.header, hgroup]
    exact (errorOf_require_iff hinner).mpr ⟨hnone, rfl⟩

end Frame

/-! ## The exit of the innermost rule -/

/-- With a rule open, its exit answers what closing its frame does. -/
theorem Assembly.answer_exit {a : Assembly} {frame : Frame} {outer : List Frame}
    (h : a.frames = frame :: outer) :
    (a.step (.exit frame.rule)).2 = errorOf (frame.close a.fallback) := by
  have houtcome := a.exit_step frame.rule
  generalize a.step (.exit frame.rule) = outcome at houtcome ⊢
  cases houtcome with
  | atRoot hframes => rw [hframes] at h; cases h
  | crossed hframes hrule =>
    obtain ⟨rfl, -⟩ := List.cons.inj (h.symm.trans hframes)
    exact absurd rfl hrule
  | lost hframes _ herror =>
    obtain ⟨rfl, -⟩ := List.cons.inj (h.symm.trans hframes)
    exact herror.symm
  | closed hframes _ hclose =>
    obtain ⟨rfl, -⟩ := List.cons.inj (h.symm.trans hframes)
    rw [hclose]
    rfl

/-- **The exit of the innermost open rule**, whatever went on before, is
refused with an error just where its frame is refused for it. -/
theorem exit_refused_iff (settings : Settings) (events : List Event) {frame : Frame}
    {outer : List Frame} (h : (reached settings events).frames = frame :: outer)
    (error : AssemblyError) :
    ((reached settings events).step (.exit frame.rule)).2 = some error ↔
      frame.Refused error := by
  have hfiled : frame.Throughout Filed :=
    (filed_reached settings events).frames frame (h ▸ List.mem_cons_self)
  rw [Assembly.answer_exit h]
  exact ⟨Frame.refused_of_errorOf_close hfiled, Frame.errorOf_close_of_refused hfiled⟩

/-- A definition with two scenarios, the first without its line, and a
whole outline beside them. -/
def crowdedDefinition : List Event :=
  [.enter .definition, .enter .scenario, .exit .scenario, .enter .scenario,
    .leaf { kind := .scenarioLine, location := ⟨1, 1⟩ }, .exit .scenario, .enter .outline,
    .leaf { kind := .outlineLine, location := ⟨2, 1⟩ }, .exit .outline]

/-- Its frame. -/
def crowdedFrame : Frame where
  rule := .definition
  children := [
    (.rule .scenario, .group .scenario []),
    (.rule .scenario, .group .scenario [
      (.token .scenarioLine, .token { kind := .scenarioLine, location := ⟨1, 1⟩ })]),
    (.rule .outline, .group .outline [
      (.token .outlineLine, .token { kind := .outlineLine, location := ⟨2, 1⟩ })])]

/-- The first scenario is the one that counts. -/
theorem exit_crowdedDefinition :
    (reached {} crowdedDefinition).frames = [crowdedFrame] ∧
      ((reached {} crowdedDefinition).step (.exit .definition)).2 =
        some (.contract (.missingToken .scenario .scenarioLine)) := by
  have hframes : (reached {} crowdedDefinition).frames = [crowdedFrame] := rfl
  have hrefused : crowdedFrame.Refused (.contract (.missingToken .scenario .scenarioLine)) :=
    .scenario rfl rfl rfl
  exact ⟨hframes, (exit_refused_iff {} crowdedDefinition hframes _).mpr hrefused⟩

end FeatureTree
