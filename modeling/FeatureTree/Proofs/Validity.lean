import FeatureTree.Proofs.Script
import FeatureTree.Proofs.Stored
import FeatureTree.Proofs.Tables
import FeatureTree.Proofs.Texts
/-!
# Whatever is made is valid

Tables, examples and descriptions are the parts of a document that can be
wrong in themselves (`DocPart.Valid`): a row as wide as another is not, a
cell on another line than its row, a description that is only white
space. They are made in one place each, and everything else takes them
over from the children of its frame (`Frame.parts_of_closes`). So
whatever the events were and whichever of them were refused, the parts
of the feature and of all that is stored beside it are valid
(`validity_reached`).
-/

namespace FeatureTree

/-! ## The parts of a value -/

/-- A part of a document that can be wrong in itself. -/
inductive DocPart where
  | table (grid : DataTable)
  | examples (e : ExamplesTable)
  | description (text : String)

/-- The table below a step. -/
def StepArgument.parts : StepArgument → List DocPart
  | .table grid => [.table grid]
  | .docString _ | .empty => []

/-- The parts of a step are those of its argument. -/
def Step.parts (s : Step) : List DocPart :=
  s.argument.parts

/-- The description below a title. -/
def Section.parts (s : Section) : List DocPart :=
  [.description s.description]

/-- The parts of a background. -/
def Background.parts (b : Background) : List DocPart :=
  b.toSection.parts ++ b.steps.flatMap Step.parts

/-- An examples table and its description. -/
def ExamplesTable.parts (e : ExamplesTable) : List DocPart :=
  .examples e :: e.toSection.parts

/-- The parts that a scenario and an outline have in common. -/
def Scenario.parts (s : Scenario) : List DocPart :=
  s.toSection.parts ++ s.steps.flatMap Step.parts

/-- The parts of a definition. -/
def ScenarioDefinition.parts (d : ScenarioDefinition) : List DocPart :=
  d.shared.parts ++ d.examples.flatMap ExamplesTable.parts

/-- The parts of a feature, in document order. -/
def Feature.parts (f : Feature) : List DocPart :=
  f.toSection.parts ++
    (f.background.toList.flatMap Background.parts ++
      f.definitions.flatMap ScenarioDefinition.parts)

/-- The parts of the value that a child is. A line and a doc string have
none, and a group is not a value but holds some. -/
def Child.parts : Child → List DocPart
  | .token _ | .group _ _ | .docString _ => []
  | .step s => s.parts
  | .dataTable grid => [.table grid]
  | .background b => b.parts
  | .definition d => d.parts
  | .examples e => e.parts
  | .description text => [.description text]
  | .feature f => f.parts

/-! ## Validity -/

/-- The last line of a text: what follows its last line feed. -/
def lastLine (text : String) : String :=
  String.ofList (text.toList.reverse.takeWhile (· ≠ '\n')).reverse

namespace DocPart

/-- **A part is valid** when its rows are as wide as the first of them,
each of its cells is on the line of its row, and its description, if it
has one, leaves a mark. -/
def Valid : DocPart → Prop
  | .table grid => ∀ row ∈ grid.rows, row.width = grid.width ∧ row.InLine
  | .examples e =>
    (∀ row ∈ e.body, e.header?.map TableRow.width = some row.width) ∧
      ∀ row ∈ e.rows, row.InLine
  | .description text => text = "" ∨ ∃ c ∈ text.toList, isBlankChar c = false

/-- A description has no blank line at its end. -/
def EndsMarked : DocPart → Prop
  | .table _ | .examples _ => True
  | .description text => text ≠ "" → isBlank (lastLine text) = false

end DocPart

/-! ## Descriptions -/

/-- What is left of some lines ends in one that is not dropped. -/
theorem dropTrailing_eq_nil_or {α : Type _} (p : α → Bool) (items : List α) :
    dropTrailing p items = [] ∨
      ∃ init x, dropTrailing p items = init ++ [x] ∧ x ∈ items ∧ p x = false := by
  have hcut := isCut_dropTrailing p items
  rcases List.eq_nil_or_concat' (dropTrailing p items) with hnil | ⟨init, x, hkept⟩
  · exact .inl hnil
  · have hlast : x ∈ (dropTrailing p items).getLast? := by
      rw [hkept]
      exact List.getLast?_concat
    have hmem : x ∈ items := hcut.mem_of_mem_kept (List.mem_of_mem_getLast? hlast)
    exact .inr ⟨init, x, hkept, hmem, Bool.eq_false_iff.mpr (hcut.ends x hlast)⟩

/-- The last of some lines ends their text, behind a line feed if there
are others. -/
theorem joinLines_concat (init : List String) (line : String) :
    joinLines (init ++ [line]) = line ∨
      joinLines (init ++ [line]) = joinLines init ++ "\n" ++ line := by
  cases init with
  | nil => exact .inl String.intercalate_singleton
  | cons first rest =>
    right
    rw [joinLines, String.intercalate_append_of_ne_nil (by simp) (by simp),
      String.intercalate_singleton]
    rfl

/-- A description is empty, or ends in a line that is not blank. -/
theorem describe_eq_empty_or (lines : List String) :
    describe lines = "" ∨ ∃ line ∈ lines, isBlank line = false ∧
      (describe lines = line ∨ ∃ before, describe lines = before ++ "\n" ++ line) := by
  obtain hnil | ⟨init, line, hdrop, hmem, hblank⟩ := dropTrailing_eq_nil_or isBlank lines
  · left
    rw [describe, hnil]
    exact String.intercalate_nil
  · right
    rw [describe, hdrop]
    refine ⟨line, hmem, hblank, ?_⟩
    obtain hline | hlines := joinLines_concat init line
    · exact .inl hline
    · exact .inr ⟨_, hlines⟩

/-- The last line of a text that ends in a line. -/
theorem lastLine_eq {text line : String}
    (hends : text = line ∨ ∃ before, text = before ++ "\n" ++ line)
    (h : '\n' ∉ line.toList) : lastLine text = line := by
  have hline : ∀ c ∈ line.toList.reverse, decide (c ≠ '\n') = true := by
    intro c hc
    exact decide_eq_true fun hfeed => h (hfeed ▸ List.mem_reverse.mp hc)
  rw [lastLine]
  obtain rfl | ⟨before, rfl⟩ := hends
  · rw [← List.append_nil text.toList.reverse, List.takeWhile_append_of_pos hline]
    simp
  · rw [String.toList_append, List.reverse_append, List.takeWhile_append_of_pos hline]
    simp

theorem valid_describe (lines : List String) : (DocPart.description (describe lines)).Valid := by
  obtain hempty | ⟨line, -, hblank, hends⟩ := describe_eq_empty_or lines
  · exact .inl hempty
  · right
    obtain ⟨c, hc, hmark⟩ := List.all_eq_false.mp hblank
    refine ⟨c, ?_, Bool.eq_false_of_not_eq_true hmark⟩
    obtain hline | ⟨before, hline⟩ := hends
    · exact hline ▸ hc
    · rw [hline, String.toList_append]
      exact List.mem_append_right _ hc

theorem endsMarked_describe {lines : List String} (h : ∀ line ∈ lines, '\n' ∉ line.toList) :
    (DocPart.description (describe lines)).EndsMarked := by
  intro hne
  obtain hempty | ⟨line, hmem, hblank, hends⟩ := describe_eq_empty_or lines
  · exact absurd hempty hne
  · rw [lastLine_eq hends (h line hmem), hblank]

/-! ## Tables -/

/-- The rows of a table have one width, and their cells are in line. -/
theorem tellable_of_rows {f : Frame} {rows : List TableRow} (h : f.rows = .ok rows) :
    RowsTellable rows := by
  have hmade : rows = (f.tokens .tableRow).map Token.row ∧
      Body.oddLine? (f.tokens .tableRow) = none := by
    rw [Frame.rows, evenRows] at h
    split at h
    · next hodd =>
      obtain rfl := Except.ok.inj h
      rw [Body.oddRow?_map_row, Option.map_eq_none_iff] at hodd
      exact ⟨rfl, hodd⟩
    · cases h
  obtain ⟨rfl, hodd⟩ := hmade
  have heven : EvenLines (f.tokens .tableRow) := Body.oddLine?_eq_none_iff.mp hodd
  have hwidth (line : Token) : line.row.width = line.spans.length := List.length_map ..
  refine ⟨List.forall_mem_map.mpr fun line hline => List.forall_mem_map.mpr fun line' hline' => ?_,
    List.forall_mem_map.mpr fun line _ => List.forall_mem_map.mpr fun span _ => rfl⟩
  rw [hwidth, hwidth]
  exact heven line hline line' hline'

/-- A table of such rows is valid. -/
theorem valid_table {rows : List TableRow} (h : RowsTellable rows) :
    (DocPart.table { rows }).Valid := by
  obtain ⟨hwidth, hline⟩ := h
  refine fun row hrow => ⟨?_, hline row hrow⟩
  cases rows with
  | nil => exact absurd hrow List.not_mem_nil
  | cons first rest => exact hwidth row hrow first List.mem_cons_self

/-- So is an examples table. -/
theorem valid_examples {e : ExamplesTable} (h : RowsTellable e.rows) :
    (DocPart.examples e).Valid := by
  obtain ⟨hwidth, hline⟩ := h
  refine ⟨fun row hrow => ?_, hline⟩
  have hmem : row ∈ e.rows := List.mem_of_mem_tail hrow
  rw [ExamplesTable.header?]
  cases hrows : e.rows with
  | nil => rw [hrows] at hmem; exact absurd hmem List.not_mem_nil
  | cons first rest =>
    have hfirst : first ∈ e.rows := hrows ▸ List.mem_cons_self
    exact congrArg some (hwidth first hfirst row hmem)

/-! ## Where parts come from -/

namespace Frame

variable {Q : DocPart → Prop} {f : Frame} {kind : TokenKind}

/-- What a frame makes by itself has a property: its table, its examples
table, its description, and the description it does not have. -/
structure Makes (Q : DocPart → Prop) (f : Frame) : Prop where
  table : ∀ rows, f.rows = .ok rows → Q (.table { rows })
  examples : ∀ e, f.toExamples = .ok e → Q (.examples e)
  description : Q (.description f.toDescription)
  empty : Q (.description "")

/-- An examples table is made of its title and its rows. -/
theorem exists_of_toExamples {e : ExamplesTable} (h : f.toExamples = .ok e) :
    ∃ title rows, f.titled .examplesLine = .ok title ∧ f.rows = .ok rows ∧
      { toSection := title, tags := f.tags, rows } = e := by
  rw [toExamples] at h
  cases htitle : f.titled .examplesLine with
  | error fault => rw [htitle] at h; cases h
  | ok title =>
    cases hrows : f.rows with
    | error fault => rw [htitle, hrows] at h; cases h
    | ok rows =>
      rw [htitle, hrows] at h
      exact ⟨title, rows, rfl, rfl, Except.ok.inj h⟩

section

variable (hempty : Q (.description ""))
  (hparts : f.Throughout fun _ child => ∀ part ∈ child.parts, Q part)
include hparts

/-- The parts of what is read in a frame are those of its children. -/
theorem parts_of_mem_collect {α : Type} {key : Key} {pick : Child → Option α} {make : α → Child}
    (hreads : Reads key pick make) :
    ∀ x ∈ f.collect key pick, ∀ part ∈ (make x).parts, Q part :=
  fun _ hx => hparts f (.self f) _ (hreads.mem_children hx)

theorem parts_steps : ∀ part ∈ f.steps.flatMap Step.parts, Q part :=
  List.forall_mem_flatMap.mpr (parts_of_mem_collect hparts .step)

theorem parts_argument : ∀ part ∈ f.argument.parts, Q part := by
  rw [argument]
  cases htable : f.dataTable? with
  | some grid => exact parts_of_mem_collect hparts .dataTable grid (List.mem_of_head? htable)
  | none =>
    cases f.docString? with
    | some doc => exact List.forall_mem_nil _
    | none => exact List.forall_mem_nil _

include hempty

theorem parts_description : Q (.description f.description) := by
  rw [Frame.description]
  cases hfirst : f.first? (.rule .description) Child.description? with
  | none => exact hempty
  | some text =>
    exact parts_of_mem_collect hparts .description text (List.mem_of_head? hfirst) _
      List.mem_cons_self

theorem parts_title {title : Section} (h : f.titled kind = .ok title) :
    ∀ part ∈ title.parts, Q part := by
  obtain ⟨line, -, rfl⟩ := exists_of_map_eq_ok h
  exact List.forall_mem_singleton.mpr (parts_description hempty hparts)

theorem parts_background {b : Background} (h : f.toBackground = .ok b) :
    ∀ part ∈ b.parts, Q part := by
  obtain ⟨title, htitle, rfl⟩ := exists_of_map_eq_ok h
  exact List.forall_mem_append.mpr ⟨parts_title hempty hparts htitle, parts_steps hparts⟩

theorem parts_scenario {tags : List Tag} {s : Scenario} (h : f.toScenario kind tags = .ok s) :
    ∀ part ∈ s.parts, Q part := by
  obtain ⟨title, htitle, rfl⟩ := exists_of_map_eq_ok h
  exact List.forall_mem_append.mpr ⟨parts_title hempty hparts htitle, parts_steps hparts⟩

theorem parts_outline {tags : List Tag} {o : ScenarioOutline} (h : f.toOutline tags = .ok o) :
    ∀ part ∈ (ScenarioDefinition.outline o).parts, Q part := by
  obtain ⟨s, hs, rfl⟩ := exists_of_map_eq_ok h
  refine List.forall_mem_append.mpr ⟨parts_scenario hempty hparts hs, ?_⟩
  exact List.forall_mem_flatMap.mpr (parts_of_mem_collect hparts .examples)

theorem parts_definition {d : ScenarioDefinition} (h : f.toDefinition = .ok d) :
    ∀ part ∈ d.parts, Q part := by
  rw [toDefinition] at h
  cases hscenario : f.group? .scenario with
  | some scenario =>
    rw [hscenario] at h
    obtain ⟨s, hs, rfl⟩ := exists_of_map_eq_ok h
    refine List.forall_mem_append.mpr ⟨?_, List.forall_mem_nil _⟩
    exact parts_scenario hempty (hparts.of_group? hscenario) hs
  | none =>
    cases houtline : f.group? .outline with
    | some outline =>
      rw [hscenario, houtline] at h
      obtain ⟨o, ho, rfl⟩ := exists_of_map_eq_ok h
      exact parts_outline hempty (hparts.of_group? houtline) ho
    | none =>
      rw [hscenario, houtline] at h
      cases h

theorem parts_feature {fallback : String} {made : Feature} (h : f.toFeature fallback = .ok made) :
    ∀ part ∈ made.parts, Q part := by
  obtain ⟨line, -, rfl⟩ := exists_of_map_eq_ok h
  have hbackground : ∀ part ∈ f.background?.toList.flatMap Background.parts, Q part := by
    refine List.forall_mem_flatMap.mpr fun b hb => ?_
    rw [Option.mem_toList] at hb
    exact parts_of_mem_collect hparts .background b (List.mem_of_head? hb)
  have hdefinitions : ∀ part ∈ f.definitions.flatMap ScenarioDefinition.parts, Q part :=
    List.forall_mem_flatMap.mpr (parts_of_mem_collect hparts .definition)
  exact List.forall_mem_append.mpr
    ⟨List.forall_mem_singleton.mpr (parts_description hempty hparts.header),
      List.forall_mem_append.mpr ⟨hbackground, hdefinitions⟩⟩

omit hempty

/-- **What a frame is closed to has no parts but those of its children
and those that it makes by itself.** -/
theorem parts_of_closes {fallback : String} {child : Child} (hmakes : f.Makes Q)
    (h : f.Closes fallback child) : ∀ part ∈ child.parts, Q part := by
  cases h with
  | step _ hmade =>
    obtain ⟨line, -, rfl⟩ := exists_of_map_eq_ok hmade
    exact parts_argument hparts
  | docString _ _ => exact List.forall_mem_nil _
  | dataTable _ hmade => exact List.forall_mem_singleton.mpr (hmakes.table _ hmade)
  | background _ hmade => exact parts_background hmakes.empty hparts hmade
  | definition _ hmade => exact parts_definition hmakes.empty hparts hmade
  | examples _ hmade =>
    refine List.forall_mem_cons.mpr ⟨hmakes.examples _ hmade, ?_⟩
    obtain ⟨title, rows, htitle, -, rfl⟩ := exists_of_toExamples hmade
    exact parts_title hmakes.empty hparts htitle
  | description _ => exact List.forall_mem_singleton.mpr hmakes.description
  | feature _ hmade => exact parts_feature hmakes.empty hparts hmade
  | group _ => exact List.forall_mem_nil _

end

end Frame

/-! ## Every run -/

namespace Assembly

/-- Every part of the feature that an assembly has made, and of every
value in the frames that it holds, has a property. -/
structure AllParts (Q : DocPart → Prop) (a : Assembly) : Prop where
  feature : ∀ f, a.feature? = some f → ∀ part ∈ f.parts, Q part
  stored : ∀ frame, a.Holds frame → ∀ entry ∈ frame.children, ∀ part ∈ entry.2.parts, Q part

/-- The feature is one of the values in the root frame. -/
theorem Throughout.allParts {Q : DocPart → Prop} {a : Assembly}
    (h : a.Throughout fun _ child => ∀ part ∈ child.parts, Q part) : a.AllParts Q where
  feature f hf := by
    rw [feature?_eq_finish] at hf
    exact Frame.parts_of_mem_collect h.root .feature f (List.mem_of_head? hf)
  stored _ hframe := h.of_holds hframe _ (.self _)

end Assembly

/-- Whatever a frame makes is valid. -/
theorem makes_valid (f : Frame) : f.Makes DocPart.Valid where
  table _ h := valid_table (tellable_of_rows h)
  examples e h := by
    obtain ⟨title, rows, -, hrows, rfl⟩ := Frame.exists_of_toExamples h
    exact valid_examples (tellable_of_rows hrows)
  description := valid_describe _
  empty := .inl rfl

/-- A text line in a frame has no line feed in it. -/
def Unbroken (key : Key) (child : Child) : Prop :=
  ∀ token, key = .token .other → child = .token token → '\n' ∉ token.text.toList

/-- Of unbroken lines only descriptions are made that end in a mark. -/
theorem makes_endsMarked {f : Frame} (h : f.Throughout Unbroken) :
    f.Makes DocPart.EndsMarked where
  table _ _ := trivial
  examples _ _ := trivial
  description := by
    refine endsMarked_describe (List.forall_mem_map.mpr fun token htoken => ?_)
    exact h f (.self f) _ ((Reads.token .other).mem_children htoken) token rfl rfl
  empty := fun hne => absurd rfl hne

variable (settings : Settings) (events : List Event)

theorem throughout_valid :
    (reached settings events).Throughout fun _ child => ∀ part ∈ child.parts, part.Valid := by
  refine .reached ?_ settings ?_
  · intro fallback f child hparts hcloses
    exact Frame.parts_of_closes hparts (makes_valid f) hcloses
  · exact fun token _ => List.forall_mem_nil _

/-- With descriptions go the lines that they may be made of later, so both
are kept together. -/
theorem throughout_endsMarked (hleaves : ∀ token, .leaf token ∈ events → token.kind = .other →
      '\n' ∉ token.text.toList) :
    (reached settings events).Throughout fun key child =>
      Unbroken key child ∧ ∀ part ∈ child.parts, part.EndsMarked := by
  refine .reached ?_ settings ?_
  · intro fallback f child hframe hcloses
    have hunbroken := hframe.imp fun _ _ h => h.1
    have hparts := hframe.imp fun _ _ h => h.2
    refine ⟨fun token hkey _ => (by cases hkey), ?_⟩
    exact Frame.parts_of_closes hparts (makes_endsMarked hunbroken) hcloses
  · intro token htoken
    refine ⟨fun token' hkey hchild => ?_, List.forall_mem_nil _⟩
    obtain rfl := Child.token.inj hchild
    exact hleaves token htoken (Key.token.inj hkey)

/-- **Whatever is made is valid**, in every run: each part of the feature
and of all that is stored. If no line of text that was delivered holds a
line feed, no description ends in a blank line either. -/
theorem validity_reached :
    (reached settings events).AllParts DocPart.Valid ∧
      ((∀ token, .leaf token ∈ events → token.kind = .other → '\n' ∉ token.text.toList) →
        (reached settings events).AllParts DocPart.EndsMarked) := by
  refine ⟨(throughout_valid settings events).allParts, fun hleaves => ?_⟩
  have hmarked := (throughout_endsMarked settings events hleaves).imp fun _ _ h => h.2
  exact hmarked.allParts

/-- A run with a stray exit, an odd row and an unfinished scenario, and
with blank lines below the title of its feature. -/
def untidyRun : List Event :=
  [.exit .feature, .enter .feature, .enter .featureHeader,
    .leaf { kind := .featureLine, location := ⟨1, 1⟩, text := "Sums" }, .enter .description,
    .leaf { kind := .other, location := ⟨2, 1⟩, text := "  Adding up" },
    .leaf { kind := .other, location := ⟨3, 1⟩, text := " " }, .exit .description,
    .exit .featureHeader, .enter .dataTable,
    .leaf { kind := .tableRow, location := ⟨4, 3⟩, spans := [⟨5, "1"⟩] },
    .leaf { kind := .tableRow, location := ⟨5, 3⟩, spans := [⟨5, "1"⟩, ⟨9, "2"⟩] },
    .exit .dataTable, .exit .feature, .enter .scenario, .enter .description,
    .leaf { kind := .other, location := ⟨6, 1⟩, text := "Carrying" }, .exit .description]

/-- Its feature and the scenario left open have all their parts valid, and
no blank line ends their descriptions. -/
theorem validity_untidyRun :
    (reached {} untidyRun).feature?.map Feature.parts = some [.description "  Adding up"] ∧
      (reached {} untidyRun).AllParts DocPart.Valid ∧
      (reached {} untidyRun).AllParts DocPart.EndsMarked := by
  have hleaves : ∀ token, .leaf token ∈ untidyRun → token.kind = .other →
      '\n' ∉ token.text.toList := by
    intro token htoken hkind
    simp only [untidyRun, List.mem_cons, reduceCtorEq, Event.leaf.injEq, List.not_mem_nil,
      or_false, false_or] at htoken
    obtain rfl | rfl | rfl | rfl | rfl | rfl := htoken
    · cases hkind
    · decide
    · decide
    · cases hkind
    · cases hkind
    · decide
  obtain ⟨hvalid, hmarked⟩ := validity_reached {} untidyRun
  exact ⟨by rfl, hvalid, hmarked hleaves⟩

end FeatureTree
