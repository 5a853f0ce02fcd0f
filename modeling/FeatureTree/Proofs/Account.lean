import FeatureTree.Log.Record
import FeatureTree.Proofs.Finality
import FeatureTree.Proofs.Tables
/-!
# What the log tells of a run

The log of a run follows the events: each line that was met, each rule
entered, and each rule exited with the word for what it became, a feature
being told beforehand (`Reports`). It goes on like this through the events
that are accepted (`Narrates`). If an exit is refused, one more entry says
what for, and is the last (`EndsWith`). The account of a run is all this
together with the outcome, and what it tells of a feature or of a table is
read off the blocks between the two ends of the rule. `account_iff` says
that whatever the events are, the log is the one account of them.
-/

namespace FeatureTree

/-! ## Entries as they are shown -/

/-- An entry as a log shows it. -/
structure LogLine where
  severity : Severity
  message : String
  fields : List (String × Json)

/-- What is shown of an entry. -/
def Entry.line (entry : Entry) : LogLine where
  severity := entry.severity
  message := entry.message
  fields := entry.fields

/-- The word for what a rule becomes. -/
def Rule.sort : Rule → String
  | .step => "step"
  | .docString => "doc string"
  | .dataTable => "data table"
  | .background => "background"
  | .definition => "scenario definition"
  | .examples => "examples"
  | .description => "description"
  | .feature => "feature"
  | .root | .featureHeader | .scenario | .outline | .tags | .custom _ => "node"

/-- The entry of an exit that was accepted. -/
def Rule.exitLine (rule : Rule) : LogLine where
  severity := .trace
  message := "exit rule"
  fields := [("rule", .string rule.name), ("reduced", .string rule.sort)]

/-! ## The account of a run -/

/-- **What is told at an event that is accepted**, with the events before
it. -/
inductive Reports (settings : Settings) (before : List Event) : Event → List LogLine → Prop where
  /-- A line: its kind and its place. -/
  | leaf (token : Token) : Reports settings before (.leaf token)
      [{ severity := .trace, message := "leaf"
         fields := [("kind", .string token.kind.name),
           ("location", .string token.location.text)] }]
  /-- A rule entered, and how many are open around it. -/
  | enter (rule : Rule) : Reports settings before (.enter rule)
      [{ severity := .trace, message := "enter rule"
         fields := [("rule", .string rule.name), ("depth", .number (openedBy before).length)] }]
  /-- A rule exited, and what it became. -/
  | exit {rule : Rule} (hrule : rule ≠ .feature) :
      Reports settings before (.exit rule) [rule.exitLine]
  /-- A feature exited: first the feature is told that its block makes by
  itself. -/
  | feature {outer : List Event} {body : Body} {f : Feature}
      (hbefore : before = outer ++ .enter .feature :: body.events)
      (halone : assemble settings (Block.scope .feature body).events = .ok (some f)) :
      Reports settings before (.exit .feature)
        [{ severity := .debug, message := "reduced feature"
           fields := [("name", .string f.name), ("language", .string f.language),
             ("scenarios", .number f.definitions.length)] }, Rule.exitLine .feature]

/-- What is told of events that are all accepted, one after the other. -/
inductive Narrates (settings : Settings) : List Event → List LogLine → Prop where
  | nil : Narrates settings [] []
  | concat {before : List Event} {event : Event} {log told : List LogLine}
      (hbefore : Narrates settings before log) (hevent : Reports settings before event told) :
      Narrates settings (before ++ [event]) (log ++ told)

/-- **The entry for an exit that is refused**, with the events before it. -/
inductive EndsWith (before : List Event) (rule : Rule) : AssemblyError → LogLine → Prop where
  /-- The table of the rule is uneven: the number of cells in its first row,
  and the other number in the first row that differs. -/
  | unevenTable {outer : List Event} {body : Body} {first line : Token}
      (hbefore : before = outer ++ .enter rule :: body.events)
      (hfirst : (body.leaves .tableRow).head? = some first)
      (hodd : IsFirstOddLine (body.leaves .tableRow) line)
      (hdiffers : line.spans.length ≠ first.spans.length) :
      EndsWith before rule (.unevenTable line.location)
        { severity := .warn, message := "inconsistent cell count within the table"
          fields := [("location", .string line.location.text),
            ("expected", .number first.spans.length), ("actual", .number line.spans.length)] }
  /-- The exit fits no open rule. -/
  | bracket {violation : Violation}
      (hbracket : (AssemblyError.contract violation).isBracket = true) :
      EndsWith before rule (.contract violation)
        { severity := .error, message := "rule exit does not match the open rule"
          fields := [("rule", .string rule.name), ("error", .string violation.message)] }
  /-- The rule lacks what it is made from, whichever rule the error
  names. -/
  | lost {violation : Violation}
      (hbracket : (AssemblyError.contract violation).isBracket = false) :
      EndsWith before rule (.contract violation)
        { severity := .error, message := "rule could not be reduced"
          fields := [("rule", .string rule.name),
            ("error", .string (AssemblyError.contract violation).message)] }

/-- **The account of a run**: the outcome of some events, and their log. -/
inductive Account (settings : Settings) (events : List Event) : Outcome → List LogLine → Prop where
  /-- All events are accepted and told. -/
  | accepted {made : Option Feature} {log : List LogLine}
      (hmade : assemble settings events = .ok made) (hlog : Narrates settings events log) :
      Account settings events (.ok made) log
  /-- The events up to an exit are accepted and told. The exit is refused,
  which is told in one entry, and nothing is told of the events after
  it. -/
  | refused {before after : List Event} {rule : Rule} {made : Option Feature}
      {error : AssemblyError} {log : List LogLine} {last : LogLine}
      (hevents : events = before ++ .exit rule :: after)
      (hbefore : assemble settings before = .ok made)
      (hexit : assemble settings (before ++ [.exit rule]) = .error error)
      (hlog : Narrates settings before log) (hlast : EndsWith before rule error last) :
      Account settings events (.error error) (log ++ [last])

/-! ## Closing a frame -/

namespace Frame

variable {fallback : String} {f : Frame} {child : Child}

/-- A frame becomes what its rule is called after. -/
theorem sort_of_closes (h : f.Closes fallback child) : child.sort = f.rule.sort := by
  cases h with
  | group hrule => cases hf : f.rule <;> rw [hf] at hrule <;> first | rfl | cases hrule
  | step hrule _ | docString hrule _ | dataTable hrule _ | background hrule _ | definition hrule _
  | examples hrule _ | description hrule | feature hrule _ => rw [hrule]; rfl

/-- Only features are told of before their exit. -/
theorem entries_of_closes (h : f.Closes fallback child) (hrule : f.rule ≠ .feature) :
    child.entries = [] := by
  cases h with
  | feature hfeature _ => exact absurd hfeature hrule
  | _ => rfl

/-- Where a part of another fails, it is the other that failed. -/
theorem eq_error_of_map_eq_error {α β : Type _} {made : Except Fault α} {g : α → β}
    {fault : Fault} (h : made.map g = .error fault) : made = .error fault := by
  cases made with
  | ok a => cases h
  | error fault' => exact congrArg Except.error (Except.error.inj h)

/-- A line that is missing is no fault of a table. -/
theorem not_isStructural_of_require {α : Type _} {kind : TokenKind} {g : Token → α} {fault : Fault}
    (h : (f.require kind).map g = .error fault) : fault.error.isStructural = false := by
  have hrequire := eq_error_of_map_eq_error h
  rw [require] at hrequire
  split at hrequire
  · cases hrequire
  · obtain rfl := Except.error.inj hrequire
    rfl

/-- A definition has no table of its own. -/
theorem not_isStructural_of_toDefinition {fault : Fault} (h : f.toDefinition = .error fault) :
    fault.error.isStructural = false := by
  rw [toDefinition] at h
  split at h
  · have hscenario := eq_error_of_map_eq_error (eq_error_of_map_eq_error h)
    exact not_isStructural_of_require hscenario
  · split at h
    · have hscenario := eq_error_of_map_eq_error (eq_error_of_map_eq_error h)
      exact not_isStructural_of_require (eq_error_of_map_eq_error hscenario)
    · obtain rfl := Except.error.inj h
      rfl

/-- **An uneven table that a frame fails for is its own.** -/
theorem rows_of_close {fault : Fault} (h : f.close fallback = .error fault)
    (hfault : fault.error.isStructural = true) : f.rows = .error fault := by
  rw [close] at h
  cases hrule : f.rule with
  | dataTable =>
    rw [hrule] at h
    exact eq_error_of_map_eq_error (eq_error_of_map_eq_error h)
  | examples =>
    rw [hrule] at h
    have hexamples := eq_error_of_map_eq_error h
    rw [toExamples] at hexamples
    cases htitle : f.titled .examplesLine with
    | error fault' =>
      rw [htitle] at hexamples
      obtain rfl := Except.error.inj hexamples
      rw [not_isStructural_of_require htitle] at hfault
      cases hfault
    | ok title =>
      rw [htitle] at hexamples
      exact eq_error_of_map_eq_error hexamples
  | step | docString | feature =>
    rw [hrule] at h
    rw [not_isStructural_of_require (eq_error_of_map_eq_error h)] at hfault
    cases hfault
  | background =>
    rw [hrule] at h
    have htitle := eq_error_of_map_eq_error (eq_error_of_map_eq_error h)
    rw [not_isStructural_of_require htitle] at hfault
    cases hfault
  | definition =>
    rw [hrule] at h
    rw [not_isStructural_of_toDefinition (eq_error_of_map_eq_error h)] at hfault
    cases hfault
  | root | featureHeader | scenario | outline | tags | description | custom _ =>
    rw [hrule] at h
    cases h

/-- Rows that fail are told with the numbers of their first line and of the
first odd one. -/
theorem exists_oddLine_of_rows {fault : Fault} (h : f.rows = .error fault) :
    ∃ first line, (f.tokens .tableRow).head? = some first ∧
      IsFirstOddLine (f.tokens .tableRow) line ∧ line.spans.length ≠ first.spans.length ∧
      fault = .unevenTable line.location first.spans.length line.spans.length := by
  have hwidth (line : Token) : line.row.width = line.spans.length := List.length_map ..
  rw [rows, evenRows, Body.oddRow?_map_row] at h
  cases hline : Body.oddLine? (f.tokens .tableRow) with
  | none =>
    rw [hline] at h
    cases h
  | some line =>
    have hodd := Body.oddLine?_eq_some_iff.mp hline
    obtain ⟨first, same, later, hlines, -, hdiffers⟩ := hodd
    have hhead : (f.tokens .tableRow).head? = some first := congrArg List.head? hlines
    rw [hline, List.head?_map, hhead] at h
    refine ⟨first, line, hhead, Body.oddLine?_eq_some_iff.mp hline, hdiffers, ?_⟩
    rw [← hwidth, ← hwidth]
    exact (Except.error.inj h).symm

end Frame

/-! ## The exit of the innermost rule -/

namespace Assembly

variable {settings : Settings} {before events : List Event} {rule : Rule} {a : Assembly}

/-- **An exit fits no open rule, or it closes the innermost.** -/
theorem exit_cases (a : Assembly) (rule : Rule) :
    (∃ violation, (AssemblyError.contract violation).isBracket = true ∧
      (a.exit rule).2 = .error (.contract violation)) ∨
    ∃ frame outer, a.frames = frame :: outer ∧ frame.rule = rule ∧
      (a.exit rule).2 = frame.close a.fallback := by
  simp only [exit, pop]
  cases hframes : a.frames with
  | nil => exact .inl ⟨.exitAtRoot rule, rfl, rfl⟩
  | cons frame outer =>
    by_cases hrule : frame.rule = rule
    · refine .inr ⟨frame, outer, rfl, hrule, ?_⟩
      simp only [if_pos hrule]
      cases frame.close a.fallback <;> rfl
    · refine .inl ⟨.crossedExit frame.rule rule, rfl, ?_⟩
      simp only [if_neg hrule]

/-- It is refused with the error of what went wrong. -/
theorem answer_eq_errorOf (a : Assembly) (rule : Rule) :
    (a.step (.exit rule)).2 = errorOf (a.exit rule).2 := by
  simp only [step, Event.deliver, Receiver.exit]
  obtain ⟨after, made⟩ := a.exit rule
  cases made <;> rfl

theorem fallback_step (a : Assembly) (event : Event) : (a.step event).1.fallback = a.fallback := by
  have hfile (a : Assembly) (key : Key) (child : Child) :
      (a.file key child).fallback = a.fallback := a.fallback_fileAll [(key, child)]
  cases event with
  | leaf token => exact hfile a _ _
  | enter rule => rfl
  | exit rule =>
    have houtcome := a.exit_step rule
    generalize a.step (.exit rule) = outcome at houtcome ⊢
    cases houtcome with
    | atRoot _ | crossed _ _ | lost _ _ _ => rfl
    | closed _ _ _ => exact hfile _ _ _

/-- The fallback stays what the settings make it. -/
theorem fallback_reached (settings : Settings) (events : List Event) :
    (reached settings events).fallback = settings.language := by
  induction events using List.reverseRecOn with
  | nil => rfl
  | append_singleton events event ih => rw [reached_concat, fallback_step, ih]

theorem fallback_of_run (hrun : (start settings).run events = .ok a) :
    a.fallback = settings.language := by
  rw [← (run_eq_ok_iff.mp hrun).2]
  exact fallback_reached settings events

/-- **The innermost frame is that of a body**, which stands behind the
entering of its rule. -/
theorem exists_body_of_frames {frame : Frame} {outer : List Frame}
    (hrun : (start settings).run before = .ok a) (hframes : a.frames = frame :: outer) :
    ∃ earlier body, before = earlier ++ .enter frame.rule :: Body.events body ∧
      body.error? = none ∧ frame = Body.frame settings.language frame.rule body := by
  obtain ⟨hnone, hreached⟩ := run_eq_ok_iff.mp hrun
  have hbrackets := (start settings).errors_brackets before
  rw [hnone] at hbrackets
  obtain ⟨outermost, opened, rfl, hopened⟩ := exists_unfinished hbrackets
  cases opened with
  | nil =>
    have hrules := opened_reached settings (unfinished outermost [])
    rw [hopened, reached, hreached, hframes] at hrules
    cases hrules
  | cons inner outer' =>
    obtain ⟨rule, body⟩ := inner
    obtain ⟨c, hearlier, herror, rfl⟩ := run_unfinished_cons hrun
    obtain ⟨rfl, -⟩ := List.cons.inj hframes
    exact ⟨unfinished outermost outer', body, rfl, herror, by rw [fallback_of_run hearlier]; rfl⟩

/-! ## The entries of one event -/

/-- A feature frame is closed to the feature that its block makes by
itself. -/
theorem exists_feature_of_close {frame : Frame} {outer : List Frame} {child : Child}
    (hrun : (start settings).run before = .ok a) (hframes : a.frames = frame :: outer)
    (hrule : frame.rule = .feature) (hclose : frame.close a.fallback = .ok child) :
    ∃ earlier body f, before = earlier ++ .enter .feature :: Body.events body ∧
      child = .feature f ∧
      assemble settings (Block.scope .feature body).events = .ok (some f) := by
  obtain ⟨earlier, body, hbefore, herror, hframe⟩ := exists_body_of_frames hrun hframes
  rw [fallback_of_run hrun] at hclose
  have hagrees := Body.agrees_close settings.language body .feature
  rw [hrule] at hframe hbefore
  rw [← hframe, hclose] at hagrees
  obtain ⟨hrefusal, hchild⟩ := hagrees
  obtain ⟨f, hf, rfl⟩ := Option.map_eq_some_iff.mp hchild
  have hblock : (Block.scope .feature body).error? = none := by
    rw [Block.error?, herror, hrefusal]
    rfl
  have halone : assemble settings (Body.events [.scope .feature body]) = .ok (some f) :=
    assemble_events_eq_ok_iff.mpr ⟨Body.error?_singleton hblock, by simp [hf]⟩
  rw [Body.events, Body.events, List.append_nil] at halone
  exact ⟨earlier, body, f, hbefore, rfl, halone⟩

/-- **An accepted event is reported.** -/
theorem reports_of_accepted {event : Event} (hrun : (start settings).run before = .ok a)
    (hnone : (a.step event).2 = none) :
    Reports settings before event ((a.entries event).map Entry.line) := by
  cases event with
  | leaf token => exact .leaf token
  | enter rule =>
    have hdepth : a.depth = (openedBy before).length := by
      rw [← (run_eq_ok_iff.mp hrun).2]
      exact depth_reached settings before
    change Reports settings before (.enter rule) [Entry.line (.entered rule a.depth)]
    rw [hdepth]
    exact .enter rule
  | exit rule =>
    rw [answer_eq_errorOf] at hnone
    rw [entries]
    obtain ⟨violation, -, hexit⟩ | ⟨frame, outer, hframes, rfl, hexit⟩ := a.exit_cases rule
    · rw [hexit] at hnone
      cases hnone
    rw [hexit] at hnone ⊢
    cases hclose : frame.close a.fallback with
    | error fault =>
      rw [hclose] at hnone
      cases hnone
    | ok child =>
      by_cases hfeature : frame.rule = .feature
      · obtain ⟨earlier, body, f, hbefore, rfl, halone⟩ :=
          exists_feature_of_close hrun hframes hfeature hclose
        rw [hfeature]
        exact .feature hbefore halone
      · have hcloses := Frame.closes_of_close hclose
        change Reports settings before (.exit frame.rule)
          ((child.entries ++ [Entry.exited frame.rule child.sort]).map Entry.line)
        rw [Frame.entries_of_closes hcloses hfeature, Frame.sort_of_closes hcloses]
        exact .exit hfeature

/-- **A refused exit is told in one entry**, with the error it is refused
with. -/
theorem endsWith_of_refused {error : AssemblyError} (hrun : (start settings).run before = .ok a)
    (herror : (a.step (.exit rule)).2 = some error) :
    ∃ last, (a.entries (.exit rule)).map Entry.line = [last] ∧
      EndsWith before rule error last := by
  rw [answer_eq_errorOf] at herror
  rw [entries]
  obtain ⟨violation, hbracket, hexit⟩ | ⟨frame, outer, hframes, rfl, hexit⟩ := a.exit_cases rule
  · rw [hexit] at herror ⊢
    obtain rfl := Option.some.inj herror
    cases violation with
    | crossedExit _ _ | exitAtRoot _ => exact ⟨_, rfl, .bracket rfl⟩
    | noScenario | missingToken _ _ => cases hbracket
  rw [hexit] at herror ⊢
  cases hclose : frame.close a.fallback with
  | ok child =>
    rw [hclose] at herror
    cases herror
  | error fault =>
    have hlost := Frame.isBracket_of_errorOf_close a.fallback herror
    rw [hclose] at herror
    obtain rfl := Option.some.inj herror
    cases fault with
    | contract violation =>
      cases violation with
      | crossedExit _ _ | exitAtRoot _ => cases hlost
      | noScenario | missingToken _ _ => exact ⟨_, rfl, .lost rfl⟩
    | unevenTable location expected actual =>
      have hrows := Frame.rows_of_close hclose rfl
      obtain ⟨first, line, hfirst, hodd, hdiffers, hfault⟩ := Frame.exists_oddLine_of_rows hrows
      obtain ⟨rfl, rfl, rfl⟩ := Fault.unevenTable.inj hfault
      obtain ⟨earlier, body, hbefore, -, hframe⟩ := exists_body_of_frames hrun hframes
      rw [hframe, Body.tokens_frame] at hfirst hodd
      exact ⟨_, rfl, .unevenTable hbefore hfirst hodd hdiffers⟩

/-! ## The log of a run -/

/-- The log goes on from where its first part ends, and ends where the run
does. -/
theorem log_append (a : Assembly) (events later : List Event) :
    a.log (events ++ later) = a.log events ++
      match a.run events with
      | .ok b => b.log later
      | .error _ => [] := by
  induction events generalizing a with
  | nil => rfl
  | cons event rest ih =>
    simp only [List.cons_append, log, run]
    obtain ⟨after, answer⟩ := a.step event
    cases answer with
    | none => simp only [ih, List.append_assoc]
    | some error => simp

/-- An event adds what is told at it, and nothing is told of the events
behind one that is refused. -/
theorem log_concat {b : Assembly} (hrun : a.run events = .ok b) (event : Event) (later : List Event)
    (hlast : (b.step event).2.isSome ∨ later = []) :
    a.log (events ++ event :: later) = a.log events ++ b.entries event := by
  rw [log_append, hrun]
  simp only [log]
  generalize b.step event = reply at hlast
  obtain ⟨after, answer⟩ := reply
  cases answer with
  | some error => simp
  | none =>
    obtain hrefused | rfl := hlast
    · cases hrefused
    · simp [log]

/-- A run is accepted event by event. -/
theorem run_concat_eq_ok {event : Event} {c : Assembly} (h : a.run (events ++ [event]) = .ok c) :
    ∃ b, a.run events = .ok b ∧ (b.step event).2 = none := by
  obtain ⟨b, hevents, hlast⟩ := run_append_eq_ok h
  refine ⟨b, hevents, ?_⟩
  rw [run] at hlast
  generalize b.step event = reply at hlast ⊢
  obtain ⟨after, answer⟩ := reply
  cases answer with
  | none => rfl
  | some error => cases hlast

/-- **An accepted run is narrated.** -/
theorem narrates_log (hrun : (start settings).run events = .ok a) :
    Narrates settings events (((start settings).log events).map Entry.line) := by
  induction events using List.reverseRecOn generalizing a with
  | nil => exact .nil
  | append_singleton events event ih =>
    obtain ⟨b, hevents, hnone⟩ := run_concat_eq_ok hrun
    rw [log_concat hevents event [] (.inr rfl), List.map_append]
    exact .concat (ih hevents) (reports_of_accepted hevents hnone)

/-- **A run that fails is accepted up to the exit that is refused.** -/
theorem exists_refused_of_run {error : AssemblyError} (h : a.run events = .error error) :
    ∃ before rule after b, events = before ++ .exit rule :: after ∧ a.run before = .ok b ∧
      (b.step (.exit rule)).2 = some error := by
  induction events generalizing a with
  | nil => cases h
  | cons event rest ih =>
    rw [run] at h
    cases hstep : a.step event with | mk b answer =>
    rw [hstep] at h
    cases answer with
    | some error' =>
      obtain rfl := Except.error.inj h
      cases event with
      | leaf _ | enter _ => cases hstep
      | exit rule => exact ⟨[], rule, rest, a, rfl, rfl, congrArg Prod.snd hstep⟩
    | none =>
      obtain ⟨before, rule, after, c, rfl, hbefore, herror⟩ := ih h
      refine ⟨event :: before, rule, after, c, rfl, ?_, herror⟩
      rw [run, hstep]
      exact hbefore

end Assembly

/-- The log accounts for the run. -/
theorem account_log (settings : Settings) (events : List Event) :
    Account settings events (assemble settings events)
      ((assemblyLog settings events).map Entry.line) := by
  rw [assemblyLog]
  cases hrun : (Assembly.start settings).run events with
  | ok a =>
    have hmade : assemble settings events = .ok a.finish := by
      rw [assemble, hrun]
      rfl
    rw [hmade]
    exact .accepted hmade (Assembly.narrates_log hrun)
  | error error =>
    obtain ⟨before, rule, after, b, rfl, hbefore, herror⟩ := Assembly.exists_refused_of_run hrun
    obtain ⟨last, hentries, hlast⟩ := Assembly.endsWith_of_refused hbefore herror
    have hmade : assemble settings before = .ok b.finish := by
      rw [assemble, hbefore]
      rfl
    have hexit : assemble settings (before ++ [.exit rule]) = .error error := by
      rw [assemble, Assembly.run_append, hbefore]
      simp only [Assembly.run]
      generalize b.step (.exit rule) = reply at herror
      obtain ⟨after, answer⟩ := reply
      obtain rfl : answer = some error := herror
      rfl
    have hfails : assemble settings (before ++ .exit rule :: after) = .error error := by
      rw [assemble, hrun]
      rfl
    rw [hfails, Assembly.log_concat hbefore _ after (.inl (by rw [herror]; rfl)), List.map_append,
      hentries]
    exact .refused rfl hmade hexit (Assembly.narrates_log hbefore) hlast

/-! ## The one account -/

section

variable {settings : Settings} {before events : List Event} {log : List LogLine}

/-- What stands inside the rule that is exited next is one body. -/
theorem eq_of_unended {outer outer' : List Event} {rule : Rule} {body body' : Body}
    (h : outer ++ .enter rule :: body.events = outer' ++ .enter rule :: body'.events) :
    body = body' := by
  have hstretch := body.isStretch_events outer rule
  obtain rfl := hstretch.unique (body'.isStretch_events outer' rule) h
  exact Body.events_injective (List.cons.inj (List.append_cancel_left h)).2

/-- What is told at an event is determined. -/
theorem Reports.unique {event : Event} {told told' : List LogLine}
    (h : Reports settings before event told) (h' : Reports settings before event told') :
    told = told' := by
  cases h with
  | leaf token =>
    cases h'
    rfl
  | enter rule =>
    cases h'
    rfl
  | exit hrule =>
    cases h' with
    | exit _ => rfl
    | feature _ _ => exact absurd rfl hrule
  | feature hbefore halone =>
    cases h' with
    | exit hrule => exact absurd rfl hrule
    | feature hbefore' halone' =>
      obtain rfl := eq_of_unended (hbefore.symm.trans hbefore')
      obtain rfl := Option.some.inj (Except.ok.inj (halone.symm.trans halone'))
      rfl

/-- So is what is told of events in a row. -/
theorem Narrates.unique (h : Narrates settings events log) {log' : List LogLine}
    (h' : Narrates settings events log') : log = log' := by
  induction h generalizing log' with
  | nil =>
    generalize hnil : ([] : List Event) = events at h'
    cases h' with
    | nil => rfl
    | concat _ _ => simp at hnil
  | @concat before event log told hbefore hevent ih =>
    generalize hconcat : before ++ [event] = events at h'
    cases h' with
    | nil => simp at hconcat
    | concat hbefore' hevent' =>
      obtain ⟨rfl, heq⟩ := List.append_inj' hconcat rfl
      obtain rfl := (List.cons.inj heq).1
      rw [ih hbefore', hevent.unique hevent']

/-- And the entry of a refused exit. -/
theorem EndsWith.unique {rule : Rule} {error : AssemblyError} {last last' : LogLine}
    (h : EndsWith before rule error last) (h' : EndsWith before rule error last') :
    last = last' := by
  cases h with
  | unevenTable hbefore hfirst hodd _ =>
    generalize herror : AssemblyError.unevenTable _ = error at h'
    cases h' with
    | unevenTable hbefore' hfirst' hodd' _ =>
      obtain rfl := eq_of_unended (hbefore.symm.trans hbefore')
      obtain rfl := Option.some.inj (hfirst.symm.trans hfirst')
      have hline := Body.oddLine?_eq_some_iff.mpr hodd
      obtain rfl := Option.some.inj (hline.symm.trans (Body.oddLine?_eq_some_iff.mpr hodd'))
      rfl
    | bracket _ | lost _ => cases herror
  | bracket hbracket =>
    cases h' with
    | bracket _ => rfl
    | lost hlost => rw [hlost] at hbracket; cases hbracket
  | lost hlost =>
    cases h' with
    | bracket hbracket => rw [hlost] at hbracket; cases hbracket
    | lost _ => rfl

/-- Events that are accepted up to a refused exit are so up to one only. -/
theorem eq_of_refused {before' after after' : List Event} {rule rule' : Rule}
    {made made' : Option Feature} {error error' : AssemblyError}
    (hsame : before ++ .exit rule :: after = before' ++ .exit rule' :: after')
    (hbefore : assemble settings before = .ok made)
    (hexit : assemble settings (before ++ [.exit rule]) = .error error)
    (hbefore' : assemble settings before' = .ok made')
    (hexit' : assemble settings (before' ++ [.exit rule']) = .error error') :
    before = before' ∧ rule = rule' := by
  -- Had one of them another event in front of its exit, that would be the exit of the other.
  obtain ⟨part, rfl, hpart⟩ | ⟨part, rfl, hpart⟩ := List.append_eq_append_iff.mp hsame
  · cases part with
    | nil => exact ⟨(List.append_nil before).symm, Event.exit.inj (List.cons.inj hpart).1⟩
    | cons event part =>
      obtain ⟨rfl, -⟩ := List.cons.inj hpart
      have hfails := assemble_append_of_error hexit part
      rw [List.append_assoc] at hfails
      exact absurd (hfails.symm.trans hbefore') nofun
  · cases part with
    | nil => exact ⟨List.append_nil before', (Event.exit.inj (List.cons.inj hpart).1).symm⟩
    | cons event part =>
      obtain ⟨rfl, -⟩ := List.cons.inj hpart
      have hfails := assemble_append_of_error hexit' part
      rw [List.append_assoc] at hfails
      exact absurd (hfails.symm.trans hbefore) nofun

/-- An account is of the outcome. -/
theorem Account.outcome_eq {outcome : Outcome} (h : Account settings events outcome log) :
    outcome = assemble settings events := by
  cases h with
  | accepted hmade _ => exact hmade.symm
  | @refused before after rule _ _ _ _ hevents _ hexit _ _ =>
    have hfails := assemble_append_of_error hexit after
    rw [List.append_assoc] at hfails
    rw [hevents]
    exact hfails.symm

/-- There is one account at most. -/
theorem Account.unique {outcome : Outcome} {log' : List LogLine}
    (h : Account settings events outcome log) (h' : Account settings events outcome log') :
    log = log' := by
  cases h with
  | accepted _ hlog =>
    cases h' with
    | accepted _ hlog' => exact hlog.unique hlog'
  | refused hevents hbefore hexit hlog hlast =>
    cases h' with
    | refused hevents' hbefore' hexit' hlog' hlast' =>
      obtain ⟨rfl, rfl⟩ :=
        eq_of_refused (hevents.symm.trans hevents') hbefore hexit hbefore' hexit'
      rw [hlog.unique hlog', hlast.unique hlast']

end

/-- **The log accounts for the run exactly**, whatever the events are: it
narrates the events that were accepted, and ends with one more entry just
where an exit was refused. -/
theorem account_iff (settings : Settings) (events : List Event) (outcome : Outcome)
    (log : List LogLine) :
    Account settings events outcome log ↔
      outcome = assemble settings events ∧ log = (assemblyLog settings events).map Entry.line := by
  constructor
  · intro h
    obtain rfl := h.outcome_eq
    exact ⟨rfl, h.unique (account_log settings events)⟩
  · rintro ⟨rfl, rfl⟩
    exact account_log settings events

/-- A feature is told before its exit, and nothing is told behind a stray
one. -/
example : (assemblyLog {} (titleOnly 1 "Sums" ++ [.exit .step, .enter .feature])).map
    (fun entry => (entry.severity, entry.message)) =
      [(.trace, "enter rule"), (.trace, "enter rule"), (.trace, "leaf"), (.trace, "exit rule"),
        (.debug, "reduced feature"), (.trace, "exit rule"),
        (.error, "rule exit does not match the open rule")] := by
  rfl

end FeatureTree
