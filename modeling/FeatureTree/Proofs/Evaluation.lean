import Mathlib.Data.List.Forall2
import FeatureTree.Proofs.Reading
/-!
# An assembly reads blocks

Delivering the events of a body leaves in the innermost frame one child
for each of its blocks, and nothing else is touched (`run_body`); so a
frame is closed over exactly the children of its own body, and closing it
makes the part that the body reads as, or fails for what the body's exit
is refused for (`agrees_close`). `assemble_eq_outcome` is the two put
together.
-/

namespace FeatureTree

/-! ## The children of a body -/

mutual

/-- The child that a block leaves in the frame around it: the part that
its rule reads as, or a group of its own children. -/
def Block.child? (fallback : String) : Block → Option Child
  | .leaf token => some (.token token)
  | .scope rule body =>
    match rule with
    | .step => (Body.step? body).map .step
    | .docString => (Body.docString? body).map .docString
    | .dataTable => some (.dataTable { rows := Body.rows body })
    | .background => (Body.background? body).map .background
    | .definition => (Body.definition? body).map .definition
    | .examples => (Body.examples? body).map .examples
    | .description => some (.description (Body.text body))
    | .feature => (Body.feature? fallback body).map .feature
    | .root | .featureHeader | .scenario | .outline | .tags | .custom _ =>
      some (.group rule (Body.children fallback body))

/-- The children that the blocks of a body leave, each under its key. -/
def Body.children (fallback : String) : Body → List (Key × Child)
  | [] => []
  | block :: rest =>
    ((block.child? fallback).map (block.key, ·)).toList ++ Body.children fallback rest

end

namespace Body

variable {α : Type _} {fallback : String} {body rest : Body}

theorem children_cons (block : Block) :
    children fallback (block :: rest) =
      ((block.child? fallback).map (block.key, ·)).toList ++ children fallback rest := rfl

/-- The frame of a rule with a body filed in it. -/
def frame (fallback : String) (rule : Rule) (body : Body) : Frame :=
  { rule, children := children fallback body }

/-- Under a key, a frame holds the children of the blocks with that key. -/
theorem collect_frame (rule : Rule) (key : Key) (pick : Child → Option α) :
    (frame fallback rule body).collect key pick =
      body.filterMap fun block =>
        if block.key = key then (block.child? fallback).bind pick else none := by
  simp only [Frame.collect, frame]
  induction body with
  | nil => rfl
  | cons block rest ih =>
    rw [children_cons, List.filterMap_append, ih, List.filterMap_cons]
    cases hc : block.child? fallback with
    | none => simp
    | some child =>
      by_cases hk : block.key = key
      · cases hp : pick child <;> simp [hk, hp]
      · simp [hk]

/-- Under the kind of a line stand the lines of that kind. -/
theorem tokens_frame (rule : Rule) (kind : TokenKind) :
    (frame fallback rule body).tokens kind = leaves kind body := by
  rw [Frame.tokens, collect_frame, leaves]
  congr 1
  funext block
  cases block with
  | leaf token => simp [Block.key, Block.child?, Child.token?]
  | scope rule inside => simp [Block.key]

theorem token?_frame (rule : Rule) (kind : TokenKind) :
    (frame fallback rule body).token? kind = line? kind body := by
  change ((frame fallback rule body).tokens kind).head? = _
  rw [tokens_frame, line?]

/-- Under a rule stand the children of the blocks of that rule. -/
theorem collect_rule_frame (rule key : Rule) (pick : Child → Option α) :
    (frame fallback rule body).collect (.rule key) pick =
      (bodies key body).filterMap fun inside =>
        (Block.child? fallback (.scope key inside)).bind pick := by
  rw [collect_frame, bodies, List.filterMap_filterMap]
  congr 1
  funext block
  cases block with
  | leaf token => simp [Block.key]
  | scope rule' inside =>
    by_cases h : rule' = key
    · subst h; simp [Block.key]
    · simp [Block.key, h]

/-- Where a rule makes a part, its blocks are read as these parts. -/
theorem collect_parts_frame {rule key : Rule} {pick : Child → Option α} {part? : Body → Option α}
    {wrap : α → Child} (hpick : ∀ part, pick (wrap part) = some part)
    (hkey : ∀ inside, Block.child? fallback (.scope key inside) = (part? inside).map wrap) :
    (frame fallback rule body).collect (.rule key) pick = (bodies key body).filterMap part? := by
  rw [collect_rule_frame]
  congr 1
  funext inside
  rw [hkey]
  cases part? inside with
  | none => rfl
  | some part => exact hpick part

/-- Where a rule makes none, its first block is its first group. -/
theorem group?_frame {rule key : Rule}
    (hkey : ∀ inside,
      Block.child? fallback (.scope key inside) = some (.group key (children fallback inside))) :
    (frame fallback rule body).group? key = (bodies key body).head?.map (frame fallback key) := by
  rw [Frame.group?, Frame.first?, collect_rule_frame]
  cases bodies key body with
  | nil => rfl
  | cons inside _ =>
    have hpick : (Block.child? fallback (.scope key inside)).bind Child.group? =
        some (frame fallback key inside) := by rw [hkey]; rfl
    rw [List.filterMap_cons, hpick]
    rfl

/-! ## What a frame holds for its rule -/

theorem steps_frame (rule : Rule) : (frame fallback rule body).steps = steps body :=
  collect_parts_frame (fun _ => rfl) fun _ => rfl

theorem examples_frame (rule : Rule) :
    (frame fallback rule body).examples = (bodies .examples body).filterMap examples? :=
  collect_parts_frame (fun _ => rfl) fun _ => rfl

theorem definitions_frame (rule : Rule) :
    (frame fallback rule body).definitions = (bodies .definition body).filterMap definition? :=
  collect_parts_frame (fun _ => rfl) fun _ => rfl

theorem background?_frame (rule : Rule) :
    (frame fallback rule body).background? =
      ((bodies .background body).filterMap background?).head? :=
  congrArg List.head? (collect_parts_frame (fun _ => rfl) fun _ => rfl)

theorem description_frame (rule : Rule) :
    (frame fallback rule body).description = description body := by
  have h : (frame fallback rule body).collect (.rule .description) Child.description? =
      (bodies .description body).filterMap fun inside => some (text inside) :=
    collect_parts_frame (fun _ => rfl) fun _ => rfl
  rw [Frame.description, Frame.first?, h, description]
  cases bodies .description body <;> rfl

theorem argument_frame (rule : Rule) :
    (frame fallback rule body).argument = argument body := by
  have htable : (frame fallback rule body).collect (.rule .dataTable) Child.dataTable? =
      (bodies .dataTable body).filterMap fun inside => some { rows := rows inside } :=
    collect_parts_frame (fun _ => rfl) fun _ => rfl
  have hdoc : (frame fallback rule body).collect (.rule .docString) Child.docString? =
      (bodies .docString body).filterMap docString? :=
    collect_parts_frame (fun _ => rfl) fun _ => rfl
  rw [Frame.argument, Frame.dataTable?, Frame.docString?, Frame.first?, Frame.first?, htable, hdoc,
    argument]
  cases bodies .dataTable body with
  | cons table _ => rfl
  | nil => cases (bodies .docString body).filterMap docString? <;> rfl

theorem tags_frame (rule : Rule) : (frame fallback rule body).tags = tags body := by
  have hgroup : (frame fallback rule body).group? .tags = _ := group?_frame fun _ => rfl
  rw [Frame.tags, hgroup, tags]
  cases bodies .tags body with
  | nil => rfl
  | cons lines _ => exact congrArg (List.flatMap Token.tags) (tokens_frame .tags .tagLine)

/-! ## Closing -/

variable (fallback body)

/-- A construction in step with a reading: it makes the part that is
read, or it fails for what the exit is refused for. -/
def Agrees (made : Except Fault α) (refused : Option AssemblyError) (reading : Option α) : Prop :=
  match made with
  | .ok part => refused = none ∧ reading = some part
  | .error fault => refused = some fault.error

theorem Agrees.map {β : Type _} {made : Except Fault α} {refused : Option AssemblyError}
    {reading : Option α} (h : Agrees made refused reading) (f : α → β) :
    Agrees (made.map f) refused (reading.map f) := by
  cases made with
  | ok part => exact ⟨h.1, congrArg (Option.map f) h.2⟩
  | error fault => exact h

/-- The line that a rule is made from. -/
theorem agrees_require (rule : Rule) (kind : TokenKind) :
    Agrees ((frame fallback rule body).require kind) (missing? rule kind body)
      (line? kind body) := by
  rw [Frame.require, token?_frame, missing?]
  cases line? kind body with
  | none => rfl
  | some line => exact ⟨rfl, rfl⟩

theorem agrees_titled (rule : Rule) (kind : TokenKind) :
    Agrees ((frame fallback rule body).titled kind) (missing? rule kind body)
      (titled? kind body) := by
  rw [Frame.titled, description_frame, titled?]
  exact (agrees_require fallback body rule kind).map _

/-- The first odd row of a table is the row of its first odd line. -/
theorem oddRow?_map_row (lines : List Token) :
    oddRow? (lines.map Token.row) = (oddLine? lines).map Token.row := by
  cases lines with
  | nil => rfl
  | cons first rest =>
    have hwidth (line : Token) : line.row.width = line.spans.length := List.length_map ..
    simp only [List.map_cons, oddRow?, oddLine?, List.find?_map, hwidth, Function.comp_def]

theorem agrees_rows (rule : Rule) :
    Agrees (frame fallback rule body).rows (uneven? body) (some (rows body)) := by
  have hrows : ((frame fallback rule body).tokens .tableRow).map Token.row = rows body := by
    rw [tokens_frame, rows]
  rw [Frame.rows, hrows, evenRows, rows, oddRow?_map_row, uneven?]
  cases oddLine? (leaves .tableRow body) with
  | none => exact ⟨rfl, rfl⟩
  | some line => rfl

theorem agrees_step (rule : Rule) :
    Agrees (frame fallback rule body).toStep (missing? rule .stepLine body) (step? body) := by
  rw [Frame.toStep, argument_frame, step?]
  exact (agrees_require fallback body rule .stepLine).map _

theorem agrees_docString (rule : Rule) :
    Agrees (frame fallback rule body).toDocString (missing? rule .docStringSeparator body)
      (docString? body) := by
  rw [Frame.toDocString, tokens_frame, docString?]
  exact (agrees_require fallback body rule .docStringSeparator).map _

theorem agrees_background (rule : Rule) :
    Agrees (frame fallback rule body).toBackground (missing? rule .backgroundLine body)
      (background? body) := by
  rw [Frame.toBackground, steps_frame, background?]
  exact (agrees_titled fallback body rule .backgroundLine).map _

theorem agrees_scenario (rule : Rule) (tags : List Tag) :
    Agrees ((frame fallback rule body).toScenario .scenarioLine tags)
      (missing? rule .scenarioLine body) (scenario? tags body) := by
  rw [Frame.toScenario, steps_frame, scenario?]
  exact (agrees_titled fallback body rule .scenarioLine).map _

theorem agrees_outline (rule : Rule) (tags : List Tag) :
    Agrees ((frame fallback rule body).toOutline tags) (missing? rule .outlineLine body)
      (outline? tags body) := by
  have h := ((agrees_titled fallback body rule .outlineLine).map
    fun title => ({ toSection := title, tags, steps := steps body } : Scenario)).map
    fun s => ({ toScenario := s, examples := (bodies .examples body).filterMap examples? } :
      ScenarioOutline)
  -- The frame makes an outline in two steps, the reading in one.
  rw [Frame.toOutline, Frame.toScenario, steps_frame, examples_frame, outline?]
  rwa [Option.map_map] at h

/-- The first scenario decides, and the first outline where there is
none. -/
theorem agrees_definition :
    Agrees (frame fallback .definition body).toDefinition (refusal? .definition body)
      (definition? body) := by
  have hscenario : (frame fallback .definition body).group? .scenario = _ :=
    group?_frame fun _ => rfl
  have houtline : (frame fallback .definition body).group? .outline = _ :=
    group?_frame fun _ => rfl
  rw [Frame.toDefinition, hscenario, houtline, tags_frame, refusal?, definition?]
  cases bodies .scenario body with
  | cons scenario _ => exact (agrees_scenario fallback scenario .scenario (tags body)).map _
  | nil =>
    cases bodies .outline body with
    | cons outline _ => exact (agrees_outline fallback outline .outline (tags body)).map _
    | nil => rfl

/-- A table without its line is not looked at for odd rows. -/
theorem agrees_examples :
    Agrees (frame fallback .examples body).toExamples (refusal? .examples body)
      (examples? body) := by
  have htitle := agrees_titled fallback body .examples .examplesLine
  have hrows := agrees_rows fallback body .examples
  rw [Frame.toExamples, tags_frame, refusal?, examples?]
  -- The title decides first, on both sides; the rows count only where there is one.
  cases ht : (frame fallback .examples body).titled .examplesLine with
  | error fault =>
    rw [ht] at htitle
    exact congrArg (Option.or · (uneven? body)) htitle
  | ok title =>
    rw [ht] at htitle
    rw [htitle.1, htitle.2, Option.none_or]
    cases hr : (frame fallback .examples body).rows with
    | error fault => rw [hr] at hrows; exact hrows
    | ok made =>
      rw [hr] at hrows
      obtain rfl : rows body = made := Option.some.inj hrows.2
      exact ⟨hrows.1, rfl⟩

/-- A feature without a header is refused for the line of an empty
one. -/
theorem agrees_feature :
    Agrees ((frame fallback .feature body).toFeature fallback) (refusal? .feature body)
      (feature? fallback body) := by
  have hgroup : (frame fallback .feature body).group? .featureHeader = _ :=
    group?_frame fun _ => rfl
  have hheader : (frame fallback .feature body).header =
      frame fallback .featureHeader (header body) := by
    rw [Frame.header, hgroup, header]
    cases bodies .featureHeader body <;> rfl
  rw [Frame.toFeature, hheader, description_frame, tags_frame, background?_frame,
    definitions_frame, feature?]
  exact (agrees_require fallback (header body) .featureHeader .featureLine).map _

/-- **Closing the frame of a body** makes the child that its block leaves,
or fails for what its exit is refused for. -/
theorem agrees_close (rule : Rule) :
    Agrees ((frame fallback rule body).close fallback) (refusal? rule body)
      (Block.child? fallback (.scope rule body)) := by
  cases rule with
  | step => exact (agrees_step fallback body .step).map _
  | docString => exact (agrees_docString fallback body .docString).map _
  | dataTable => exact ((agrees_rows fallback body .dataTable).map DataTable.mk).map _
  | background => exact (agrees_background fallback body .background).map _
  | definition => exact (agrees_definition fallback body).map _
  | examples => exact (agrees_examples fallback body).map _
  | feature => exact (agrees_feature fallback body).map _
  | description =>
    refine ⟨rfl, ?_⟩
    change some _ = some (Child.description (frame fallback .description body).toDescription)
    rw [Frame.toDescription, tokens_frame]
    rfl
  | root | featureHeader | scenario | outline | tags | custom _ => exact ⟨rfl, rfl⟩

end Body

/-- **A block that is not refused leaves a child.** -/
theorem Block.exists_child? {block : Block} (haccepted : block.error? = none) (fallback : String) :
    ∃ child, block.child? fallback = some child := by
  cases block with
  | leaf token => exact ⟨_, rfl⟩
  | scope rule body =>
    have hrefusal : Body.refusal? rule body = none := (Option.or_eq_none_iff.mp haccepted).2
    have hclose := Body.agrees_close fallback body rule
    cases hmade : (Body.frame fallback rule body).close fallback with
    | error fault =>
      rw [hmade] at hclose
      rw [show Body.refusal? rule body = some fault.error from hclose] at hrefusal
      cases hrefusal
    | ok child =>
      rw [hmade] at hclose
      exact ⟨child, hclose.2⟩

/-! ## Delivering -/

namespace Assembly

/-- The assembly with some children filed in its innermost frame. -/
def fileAll (a : Assembly) (entries : List (Key × Child)) : Assembly :=
  entries.foldl (fun state entry => state.file entry.1 entry.2) a

theorem fileAll_append (a : Assembly) (entries later : List (Key × Child)) :
    a.fileAll (entries ++ later) = (a.fileAll entries).fileAll later :=
  List.foldl_append

/-- What is filed can be told apart afterwards. -/
theorem file_inj {a : Assembly} {key : Key} {child child' : Child}
    (h : a.file key child = a.file key child') : child = child' := by
  have hlast (f : Frame) (hfile : f.file key child = f.file key child') : child = child' := by
    have hchildren : f.children ++ [(key, child)] = f.children ++ [(key, child')] :=
      congrArg Frame.children hfile
    exact (Prod.mk.inj (List.cons.inj (List.append_cancel_left hchildren)).1).2
  rw [file, file] at h
  cases hframes : a.frames with
  | nil =>
    rw [hframes] at h
    exact hlast a.root (congrArg Assembly.root h)
  | cons frame outer =>
    rw [hframes] at h
    exact hlast frame (List.cons.inj (congrArg Assembly.frames h)).1

/-- Filing never changes the fallback. -/
theorem fallback_fileAll (a : Assembly) (entries : List (Key × Child)) :
    (a.fileAll entries).fallback = a.fallback := by
  induction entries generalizing a with
  | nil => rfl
  | cons entry entries ih =>
    have hfile : (a.file entry.1 entry.2).fallback = a.fallback := by
      rw [file]
      cases a.frames <;> rfl
    exact (ih _).trans hfile

/-- Where a rule is open, its frame alone grows. -/
theorem fileAll_frames (a : Assembly) (frame : Frame) (outer : List Frame)
    (entries : List (Key × Child)) :
    ({ a with frames := frame :: outer } : Assembly).fileAll entries =
      { a with frames := { frame with children := frame.children ++ entries } :: outer } := by
  induction entries generalizing frame with
  | nil => simp [fileAll]
  | cons entry entries ih =>
    refine (ih (frame.file entry.1 entry.2)).trans ?_
    simp [Frame.file]

/-- Outside all rules, the root frame alone grows. -/
theorem fileAll_root (a : Assembly) (h : a.frames = []) (entries : List (Key × Child)) :
    a.fileAll entries =
      { a with root := { a.root with children := a.root.children ++ entries } } := by
  induction entries generalizing a with
  | nil => simp [fileAll]
  | cons entry entries ih =>
    have hfile : a.file entry.1 entry.2 = { a with root := a.root.file entry.1 entry.2 } := by
      rw [file, h]
    change (a.file entry.1 entry.2).fileAll entries = _
    rw [hfile, ih { a with root := a.root.file entry.1 entry.2 } h]
    simp [Frame.file]

/-- Exiting the innermost rule closes its frame and files what comes of
it. -/
theorem step_exit (a : Assembly) (frame : Frame) :
    ({ a with frames := frame :: a.frames } : Assembly).step (.exit frame.rule) =
      match frame.close a.fallback with
      | .ok child => (a.file (.rule frame.rule) child, none)
      | .error fault => (a, some fault.error) := by
  have hpop : ({ a with frames := frame :: a.frames } : Assembly).pop frame.rule =
      .ok (frame, a) := by simp only [pop, if_true]
  simp only [step, Event.deliver, Receiver.exit, exit, hpop]
  cases frame.close a.fallback <;> rfl

mutual

/-- A block is delivered whatever follows it: it leaves its child in the
innermost frame, or ends the run with its error. -/
theorem run_block (a : Assembly) (rest : List Event) : (block : Block) →
    a.run (block.events ++ rest) =
      match block.error? with
      | some error => .error error
      | none =>
        (a.fileAll ((block.child? a.fallback).map (block.key, ·)).toList).run rest
  | .leaf token => rfl
  | .scope rule body => by
    -- The inside is delivered to the new frame, with the exit among the events that follow it.
    have hbody := run_body (a.enter rule) (.exit rule :: rest) body
    have hevents : (Block.scope rule body).events ++ rest =
        .enter rule :: (Body.events body ++ .exit rule :: rest) := by simp [Block.events]
    have hopen : (a.enter rule).fileAll (Body.children a.fallback body) =
        { a with frames := Body.frame a.fallback rule body :: a.frames } :=
      fileAll_frames a (Frame.empty rule) a.frames _
    rw [hevents]
    change (a.enter rule).run (Body.events body ++ .exit rule :: rest) = _
    rw [hbody, Block.error?]
    cases Body.error? body with
    | some error => rfl
    | none =>
      rw [show (a.enter rule).fallback = a.fallback from rfl, hopen, Option.none_or]
      have hstep := step_exit a (Body.frame a.fallback rule body)
      have hclose := Body.agrees_close a.fallback body rule
      simp only [run]
      rw [show (Body.frame a.fallback rule body).rule = rule from rfl] at hstep
      rw [hstep]
      cases hmade : (Body.frame a.fallback rule body).close a.fallback with
      | error fault =>
        rw [hmade] at hclose
        rw [show Body.refusal? rule body = some fault.error from hclose]
      | ok child =>
        rw [hmade] at hclose
        rw [hclose.1, hclose.2]
        rfl

/-- **The blocks of a body are delivered one after the other**, each
leaving its child, up to the first that fails. -/
theorem run_body (a : Assembly) (rest : List Event) : (body : Body) →
    a.run (body.events ++ rest) =
      match body.error? with
      | some error => .error error
      | none => (a.fileAll (body.children a.fallback)).run rest
  | [] => rfl
  | block :: later => by
    rw [Body.events, List.append_assoc, run_block a _ block, Body.error?, Body.children_cons]
    cases block.error? with
    | some error => rfl
    | none => rw [run_body _ rest later, fallback_fileAll, fileAll_append, Option.none_or]

end

/-- A block by itself that is not refused leaves its child, and changes
nothing else. -/
theorem run_accepted (a : Assembly) {block : Block} {child : Child}
    (haccepted : block.error? = none) (hchild : block.child? a.fallback = some child) :
    a.run block.events = .ok (a.file block.key child) := by
  have hrun := a.run_block [] block
  rw [List.append_nil, haccepted, hchild] at hrun
  exact hrun

/-- And one that is refused ends the run. -/
theorem run_refused (a : Assembly) {block : Block} {error : AssemblyError}
    (hrefused : block.error? = some error) : a.run block.events = .error error := by
  have hrun := a.run_block [] block
  rw [List.append_nil, hrefused] at hrun
  exact hrun

/-- The blocks of a body come to the children they leave, and only if none
is refused. -/
theorem run_body_eq_ok_iff {a b : Assembly} {body : Body} :
    a.run body.events = .ok b ↔ body.error? = none ∧ b = a.fileAll (body.children a.fallback) := by
  have hrun := a.run_body [] body
  rw [List.append_nil] at hrun
  rw [hrun]
  cases body.error? with
  | some error => exact ⟨nofun, nofun⟩
  | none => exact ⟨fun h => ⟨rfl, (Except.ok.inj h).symm⟩, fun h => congrArg Except.ok h.2.symm⟩

/-- **A block comes to the child it leaves, and only if it is not
refused.** -/
theorem run_block_eq_ok_iff {a b : Assembly} {block : Block} :
    a.run block.events = .ok b ↔
      block.error? = none ∧
        ∃ child, block.child? a.fallback = some child ∧ b = a.file block.key child := by
  constructor
  · intro h
    cases herror : block.error? with
    | some error =>
      rw [a.run_refused herror] at h
      cases h
    | none =>
      obtain ⟨child, hchild⟩ := block.exists_child? herror a.fallback
      rw [a.run_accepted herror hchild] at h
      exact ⟨rfl, child, hchild, (Except.ok.inj h).symm⟩
  · rintro ⟨haccepted, child, hchild, rfl⟩
    exact a.run_accepted haccepted hchild

end Assembly

/-! ## What a block makes -/

/-- **A block makes a child**, whatever was taken in before: it is filed,
and nothing else changes. -/
def Block.Makes (block : Block) (child : Child) : Prop :=
  ∀ a : Assembly, a.run block.events = .ok (a.file block.key child)

/-- It makes the child that it leaves, where it is not refused. -/
theorem Block.makes_iff {block : Block} {child : Child} :
    block.Makes child ↔
      block.error? = none ∧ ∀ fallback, block.child? fallback = some child := by
  constructor
  · intro h
    refine ⟨(Assembly.run_block_eq_ok_iff.mp (h (Assembly.start {}))).1, fun fallback => ?_⟩
    obtain ⟨-, child', hchild', hfile⟩ := Assembly.run_block_eq_ok_iff.mp (h { fallback })
    rw [Assembly.file_inj hfile]
    exact hchild'
  · rintro ⟨haccepted, hchild⟩ a
    exact a.run_accepted haccepted (hchild a.fallback)

/-- A block makes one child. -/
theorem Block.Makes.unique {block : Block} {child child' : Child} (h : block.Makes child)
    (h' : block.Makes child') : child = child' :=
  Option.some.inj (((makes_iff.mp h).2 "").symm.trans ((makes_iff.mp h').2 ""))

section

variable {α : Type _} {body : Body} {part? : Body → Option α} (key : Rule) (wrap : α → Child)
  (haccepted : body.error? = none)
  (hkey : ∀ fallback inside,
    (Block.scope key inside).child? fallback = (part? inside).map wrap)
include haccepted hkey

/-- **In a body where nothing is refused every block of a rule makes its
part**, -/
theorem Body.exists_makes : ∀ inside ∈ bodies key body,
    ∃ part, part? inside = some part ∧ (Block.scope key inside).Makes (wrap part) := by
  intro inside hinside
  have hblock := error?_of_mem haccepted (mem_bodies.mp hinside)
  obtain ⟨child, hchild⟩ := Block.exists_child? hblock ""
  rw [hkey] at hchild
  obtain ⟨part, hpart, -⟩ := Option.map_eq_some_iff.mp hchild
  refine ⟨part, hpart, Block.makes_iff.mpr ⟨hblock, fun fallback => ?_⟩⟩
  rw [hkey, hpart, Option.map_some]

/-- and these are all the parts that are read. -/
theorem Body.forall₂_makes :
    List.Forall₂ (fun inside part => part? inside = some part ∧
      (Block.scope key inside).Makes (wrap part)) (bodies key body)
      ((bodies key body).filterMap part?) := by
  have hmakes := Body.exists_makes key wrap haccepted hkey
  generalize bodies key body = insides at hmakes
  induction insides with
  | nil => exact .nil
  | cons inside rest ih =>
    obtain ⟨part, hpart, hmade⟩ := hmakes inside List.mem_cons_self
    rw [List.filterMap_cons, hpart]
    exact .cons ⟨hpart, hmade⟩ (ih fun other hother => hmakes other (List.mem_cons_of_mem _ hother))

end

/-- A walk in which an exit is refused ends with the error of the first. -/
theorem assemble_of_refused (settings : Settings) {body : Body} {error : AssemblyError}
    (h : body.error? = some error) : assemble settings body.events = .error error := by
  have hrun := Assembly.run_body (Assembly.start settings) [] body
  rw [List.append_nil, h] at hrun
  rw [assemble, hrun]
  rfl

/-- A walk in which none is refused gives the first feature read. -/
theorem assemble_of_accepted (settings : Settings) {body : Body} (h : body.error? = none) :
    assemble settings body.events =
      .ok ((Body.bodies .feature body).filterMap (Body.feature? settings.language)).head? := by
  have hrun := Assembly.run_body (Assembly.start settings) [] body
  have hfeatures : (Body.frame settings.language .root body).collect (.rule .feature)
      Child.feature? = (Body.bodies .feature body).filterMap (Body.feature? settings.language) :=
    Body.collect_parts_frame (fun _ => rfl) fun _ => rfl
  rw [List.append_nil, h] at hrun
  rw [assemble, hrun, ← hfeatures, Assembly.fileAll_root _ rfl]
  rfl

/-- A walk comes to something just where none is refused. -/
theorem assemble_events_eq_ok_iff {settings : Settings} {body : Body} {made : Option Feature} :
    assemble settings body.events = .ok made ↔
      body.error? = none ∧
        ((Body.bodies .feature body).filterMap (Body.feature? settings.language)).head? = made := by
  cases herror : body.error? with
  | some error => simp [assemble_of_refused settings herror]
  | none => simp [assemble_of_accepted settings herror]

/-- **An assembly comes to what its blocks read as.** Whatever the
settings and however deep the blocks are nested, the run of a well-nested
walk ends with the error of its first refused exit, and otherwise gives
the first feature read. -/
theorem assemble_eq_outcome (settings : Settings) (body : Body) :
    assemble settings body.events = body.outcome settings := by
  rw [Body.outcome]
  cases herror : body.error? with
  | some error => exact assemble_of_refused settings herror
  | none => exact assemble_of_accepted settings herror

end FeatureTree
