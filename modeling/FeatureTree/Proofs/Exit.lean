import FeatureTree.Assembly.Run
/-!
# What an exit can do

An exit does one of four things (`Assembly.Exit`): it is refused outside
all rules, it is refused for another open rule, it loses the frame that
cannot be closed, or it files what the frame became. The first two are
bracket errors and the third never is (`isBracket_of_errorOf_close`), so
an error tells which of the four it was.
-/

namespace FeatureTree

variable {α β : Type _}

/-- The error of a construction that failed. -/
def errorOf : Except Fault α → Option AssemblyError
  | .ok _ => none
  | .error fault => some fault.error

/-- What is made of a part does not change its error. -/
@[simp] theorem errorOf_map (made : Except Fault α) (f : α → β) :
    errorOf (made.map f) = errorOf made := by
  cases made <;> rfl

/-- Whether an error says that an exit fits no open rule. -/
def AssemblyError.isBracket : AssemblyError → Bool
  | .contract (.crossedExit _ _) | .contract (.exitAtRoot _) => true
  | .contract .noScenario | .contract (.missingToken _ _) | .unevenTable _ => false

namespace Frame

variable (fallback : String) (f : Frame)

/-- A line is missing when the frame has none of its kind. -/
theorem errorOf_require (kind : TokenKind) :
    errorOf (f.require kind) =
      if f.tokens kind = [] then some (.contract (.missingToken f.rule kind)) else none := by
  have hfirst : f.token? kind = (f.tokens kind).head? := rfl
  rw [require, hfirst]
  cases f.tokens kind <;> rfl

/-- Rows fail at the first odd one. -/
theorem errorOf_rows :
    errorOf f.rows =
      (oddRow? ((f.tokens .tableRow).map Token.row)).map fun row => .unevenTable row.location := by
  rw [rows, evenRows]
  cases oddRow? ((f.tokens .tableRow).map Token.row) <;> rfl

/-- An examples table is asked for its line, and then for its rows. -/
theorem errorOf_toExamples :
    errorOf f.toExamples = (errorOf (f.require .examplesLine)).or (errorOf f.rows) := by
  rw [toExamples, titled]
  cases f.require .examplesLine with
  | error fault => rfl
  | ok line => cases f.rows <;> rfl

/-- A definition answers for the line of its first scenario, or else of
its first outline. -/
theorem errorOf_toDefinition :
    errorOf f.toDefinition =
      match f.group? .scenario, f.group? .outline with
      | some scenario, _ => errorOf (scenario.require .scenarioLine)
      | none, some outline => errorOf (outline.require .outlineLine)
      | none, none => some (.contract .noScenario) := by
  rw [toDefinition]
  cases f.group? .scenario with
  | some scenario => simp [toScenario, titled]
  | none =>
    cases f.group? .outline with
    | some outline => simp [toOutline, toScenario, titled]
    | none => rfl

/-- **What a frame cannot be closed for.** -/
theorem errorOf_close :
    errorOf (f.close fallback) =
      match f.rule with
      | .step => errorOf (f.require .stepLine)
      | .docString => errorOf (f.require .docStringSeparator)
      | .dataTable => errorOf f.rows
      | .background => errorOf (f.require .backgroundLine)
      | .definition => errorOf f.toDefinition
      | .examples => errorOf f.toExamples
      | .feature => errorOf (f.header.require .featureLine)
      | .root | .featureHeader | .scenario | .outline | .tags | .description | .custom _ =>
        none := by
  rw [close]
  cases f.rule with
  | step => simp [toStep]
  | docString => simp [toDocString]
  | dataTable => simp [toDataTable]
  | background => simp [toBackground, titled]
  | definition => simp
  | examples => simp
  | feature => simp [toFeature]
  | root | featureHeader | scenario | outline | tags | description | custom _ => rfl

/-! Each construction fails for a missing line, for an odd row or for no
scenario, and none of these is a bracket error. -/

variable {f} {error : AssemblyError}

theorem isBracket_of_errorOf_require {kind : TokenKind}
    (h : errorOf (f.require kind) = some error) : error.isBracket = false := by
  rw [errorOf_require] at h
  split at h
  · obtain rfl := Option.some.inj h
    rfl
  · cases h

theorem isBracket_of_errorOf_rows (h : errorOf f.rows = some error) :
    error.isBracket = false := by
  rw [errorOf_rows] at h
  obtain ⟨row, -, rfl⟩ := Option.map_eq_some_iff.mp h
  rfl

theorem isBracket_of_errorOf_toDefinition (h : errorOf f.toDefinition = some error) :
    error.isBracket = false := by
  rw [errorOf_toDefinition] at h
  split at h
  · exact isBracket_of_errorOf_require h
  · exact isBracket_of_errorOf_require h
  · obtain rfl := Option.some.inj h
    rfl

theorem isBracket_of_errorOf_toExamples (h : errorOf f.toExamples = some error) :
    error.isBracket = false := by
  rw [errorOf_toExamples] at h
  obtain hline | ⟨-, hodd⟩ := Option.or_eq_some_iff.mp h
  · exact isBracket_of_errorOf_require hline
  · exact isBracket_of_errorOf_rows hodd

/-- **A frame that cannot be closed** is never a bracket error. -/
theorem isBracket_of_errorOf_close (h : errorOf (f.close fallback) = some error) :
    error.isBracket = false := by
  rw [errorOf_close] at h
  cases hrule : f.rule with
  | step | docString | background | feature =>
    rw [hrule] at h
    exact isBracket_of_errorOf_require h
  | dataTable =>
    rw [hrule] at h
    exact isBracket_of_errorOf_rows h
  | definition =>
    rw [hrule] at h
    exact isBracket_of_errorOf_toDefinition h
  | examples =>
    rw [hrule] at h
    exact isBracket_of_errorOf_toExamples h
  | root | featureHeader | scenario | outline | tags | description | custom _ =>
    rw [hrule] at h
    cases h

end Frame

/-! ## What a frame is closed to -/

/-- Whether a rule makes no part of the document. -/
def Rule.isGroup : Rule → Bool
  | .root | .featureHeader | .scenario | .outline | .tags | .custom _ => true
  | .feature | .background | .definition | .examples | .step | .dataTable | .docString
  | .description => false

namespace Frame

variable {fallback : String} {f : Frame} {child : Child}

/-- **What a frame is closed to**: the part that its rule makes, and the
group of its own children where its rule makes none. -/
inductive Closes (fallback : String) (f : Frame) : Child → Prop where
  | step {s : Step} (hrule : f.rule = .step) (hmade : f.toStep = .ok s) :
      Closes fallback f (.step s)
  | docString {doc : DocString} (hrule : f.rule = .docString) (hmade : f.toDocString = .ok doc) :
      Closes fallback f (.docString doc)
  | dataTable {rows : List TableRow} (hrule : f.rule = .dataTable) (hmade : f.rows = .ok rows) :
      Closes fallback f (.dataTable { rows })
  | background {b : Background} (hrule : f.rule = .background) (hmade : f.toBackground = .ok b) :
      Closes fallback f (.background b)
  | definition {d : ScenarioDefinition} (hrule : f.rule = .definition)
      (hmade : f.toDefinition = .ok d) : Closes fallback f (.definition d)
  | examples {e : ExamplesTable} (hrule : f.rule = .examples) (hmade : f.toExamples = .ok e) :
      Closes fallback f (.examples e)
  | description (hrule : f.rule = .description) :
      Closes fallback f (.description f.toDescription)
  | feature {made : Feature} (hrule : f.rule = .feature)
      (hmade : f.toFeature fallback = .ok made) : Closes fallback f (.feature made)
  | group (hrule : f.rule.isGroup = true) : Closes fallback f (.group f.rule f.children)

/-- A part that was made of another. -/
theorem exists_of_map_eq_ok {made : Except Fault α} {g : α → β} {b : β}
    (h : made.map g = .ok b) : ∃ a, made = .ok a ∧ g a = b := by
  cases made with
  | error fault => cases h
  | ok a => exact ⟨a, rfl, Except.ok.inj h⟩

theorem closes_of_close (h : f.close fallback = .ok child) : f.Closes fallback child := by
  rw [close] at h
  cases hrule : f.rule with
  | step =>
    rw [hrule] at h
    obtain ⟨s, hmade, rfl⟩ := exists_of_map_eq_ok h
    exact .step hrule hmade
  | docString =>
    rw [hrule] at h
    obtain ⟨doc, hmade, rfl⟩ := exists_of_map_eq_ok h
    exact .docString hrule hmade
  | dataTable =>
    rw [hrule] at h
    obtain ⟨grid, hgrid, rfl⟩ := exists_of_map_eq_ok h
    obtain ⟨rows, hmade, rfl⟩ := exists_of_map_eq_ok hgrid
    exact .dataTable hrule hmade
  | background =>
    rw [hrule] at h
    obtain ⟨b, hmade, rfl⟩ := exists_of_map_eq_ok h
    exact .background hrule hmade
  | definition =>
    rw [hrule] at h
    obtain ⟨d, hmade, rfl⟩ := exists_of_map_eq_ok h
    exact .definition hrule hmade
  | examples =>
    rw [hrule] at h
    obtain ⟨e, hmade, rfl⟩ := exists_of_map_eq_ok h
    exact .examples hrule hmade
  | feature =>
    rw [hrule] at h
    obtain ⟨made, hmade, rfl⟩ := exists_of_map_eq_ok h
    exact .feature hrule hmade
  | description =>
    rw [hrule] at h
    obtain rfl := Except.ok.inj h
    exact .description hrule
  | root | featureHeader | scenario | outline | tags | custom _ =>
    rw [hrule] at h
    obtain rfl := Except.ok.inj h
    rw [← hrule]
    exact .group (by rw [hrule]; rfl)

end Frame

/-! ## The four outcomes -/

namespace Assembly

variable {a : Assembly} {rule : Rule}

/-- **The outcomes of an exit**: the assembly after it, and the error if
it was refused. -/
inductive Exit (a : Assembly) (rule : Rule) : Assembly × Option AssemblyError → Prop where
  /-- No rule is open. -/
  | atRoot (hframes : a.frames = []) : Exit a rule (a, some (.contract (.exitAtRoot rule)))
  /-- The innermost open rule is another. -/
  | crossed {frame : Frame} {outer : List Frame} (hframes : a.frames = frame :: outer)
      (hrule : frame.rule ≠ rule) :
      Exit a rule (a, some (.contract (.crossedExit frame.rule rule)))
  /-- The frame cannot be closed. -/
  | lost {frame : Frame} {outer : List Frame} {error : AssemblyError}
      (hframes : a.frames = frame :: outer) (hrule : frame.rule = rule)
      (herror : errorOf (frame.close a.fallback) = some error) :
      Exit a rule ({ a with frames := outer }, some error)
  /-- What the frame became is filed. -/
  | closed {frame : Frame} {outer : List Frame} {child : Child}
      (hframes : a.frames = frame :: outer) (hrule : frame.rule = rule)
      (hclose : frame.close a.fallback = .ok child) :
      Exit a rule (({ a with frames := outer } : Assembly).file (.rule rule) child, none)

/-- An exit does one of these. -/
theorem exit_step (a : Assembly) (rule : Rule) : Exit a rule (a.step (.exit rule)) := by
  simp only [step, Event.deliver, Receiver.exit, exit, pop]
  cases hframes : a.frames with
  | nil => exact .atRoot hframes
  | cons frame outer =>
    by_cases hrule : frame.rule = rule
    · simp only [if_pos hrule]
      cases hclose : frame.close a.fallback with
      | error fault => exact .lost hframes hrule (by rw [hclose]; rfl)
      | ok child => exact .closed hframes hrule hclose
    · simp only [if_neg hrule]
      exact .crossed hframes hrule

variable {error : AssemblyError}

/-- **A bracket error changes nothing.** -/
theorem step_exit_of_bracket (h : (a.step (.exit rule)).2 = some error)
    (hbracket : error.isBracket = true) : (a.step (.exit rule)).1 = a := by
  have houtcome := exit_step a rule
  generalize a.step (.exit rule) = outcome at houtcome h ⊢
  cases houtcome with
  | atRoot _ | crossed _ _ => rfl
  | lost _ _ hlost =>
    obtain rfl := Option.some.inj h
    rw [Frame.isBracket_of_errorOf_close _ hlost] at hbracket
    cases hbracket
  | closed _ _ _ => cases h

/-- **Any other error loses the innermost frame**, and it alone. -/
theorem step_exit_of_lost (h : (a.step (.exit rule)).2 = some error)
    (hbracket : error.isBracket = false) :
    ∃ frame outer, a.frames = frame :: outer ∧ frame.rule = rule ∧
      (a.step (.exit rule)).1 = { a with frames := outer } := by
  have houtcome := exit_step a rule
  generalize a.step (.exit rule) = outcome at houtcome h ⊢
  cases houtcome with
  | atRoot _ | crossed _ _ =>
    obtain rfl := Option.some.inj h
    cases hbracket
  | lost hframes hrule _ => exact ⟨_, _, hframes, hrule, rfl⟩
  | closed _ _ _ => cases h

end Assembly

end FeatureTree
