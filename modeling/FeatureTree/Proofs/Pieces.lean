import Mathlib.Data.List.Flatten
import Mathlib.Data.List.Perm.Subperm
import FeatureTree.Proofs.Localisation
/-!
# Where the pieces of a feature come from

A piece is what one line gives to a feature: a title, a tag, a row with
its cells, the opening of a doc string or one of its lines. Every piece
of a feature is a piece of a line that was delivered, no piece of a line
is used twice, and each list in the feature keeps the order of delivery
(`pieces_of_assemble`). A body gives its pieces to what it is read as
under keys of its own, and lines under different keys are different
lines (`Body.subperm_delivered`); everything else goes part by part
(`Drawn`).
-/

namespace FeatureTree

open scoped List

/-- **What one line gives to a feature**, one tag for each of its spans if
it is a tag line. -/
inductive Piece where
  | title (kind : TokenKind) (location : Location) (keyword text : String)
  | tag (tag : Tag)
  | row (row : TableRow)
  | opening (location : Location) (contentType : String)
  | docLine (line : DocLine)
  deriving DecidableEq

/-- The kind of the lines that give such a piece. -/
def Piece.kind : Piece → TokenKind
  | .title kind _ _ _ => kind
  | .tag _ => .tagLine
  | .row _ => .tableRow
  | .opening _ _ => .docStringSeparator
  | .docLine _ => .other

/-! ## The pieces of a walk -/

/-- The pieces that a line can give: the tags and the cells are its spans,
each on its line at the column of the span. -/
def Token.pieces (t : Token) : List Piece :=
  match t.kind with
  | .tagLine =>
    t.spans.map fun span =>
      .tag { location := { line := t.location.line, column := span.column }, name := span.text }
  | .featureLine | .backgroundLine | .scenarioLine | .outlineLine | .examplesLine | .stepLine =>
    [.title t.kind t.location t.keyword t.text]
  | .docStringSeparator => [.opening t.location t.text]
  | .tableRow =>
    [.row { location := t.location
            cells := t.spans.map fun span =>
              { location := { line := t.location.line, column := span.column }
                value := span.text } }]
  | .other => [.docLine { location := t.location, text := t.text }]
  | .endOfFile | .empty | .comment | .language => []

theorem Token.pieces_of_isTitle (t : Token) (h : t.kind.isTitle = true) :
    t.pieces = [.title t.kind t.location t.keyword t.text] := by
  rw [Token.pieces]
  cases hkind : t.kind with
  | featureLine | backgroundLine | scenarioLine | outlineLine | examplesLine | stepLine => rfl
  | endOfFile | empty | comment | tagLine | docStringSeparator | tableRow | language | other =>
    rw [hkind] at h
    cases h

/-- The lines of one kind, in the order they were delivered. -/
def linesOf (kind : TokenKind) (events : List Event) : List Token :=
  events.filterMap fun
    | .leaf token => if token.kind = kind then some token else none
    | .enter _ | .exit _ => none

def Event.pieces : Event → List Piece
  | .leaf token => token.pieces
  | .enter _ | .exit _ => []

/-- The pieces of all lines, in the order these were delivered. -/
def delivered (events : List Event) : List Piece :=
  events.flatMap Event.pieces

/-! ## The pieces of a feature -/

def Section.piece (kind : TokenKind) (s : Section) : Piece :=
  .title kind s.location s.keyword s.name

def StepArgument.pieces : StepArgument → List Piece
  | .table grid => grid.rows.map .row
  | .docString doc => .opening doc.location doc.contentType :: doc.lines.map .docLine
  | .empty => []

/-- A step stands in its list with its title line. -/
def Step.header (s : Step) : Piece :=
  .title .stepLine s.location s.keyword s.text

def Step.pieces (s : Step) : List Piece :=
  s.header :: s.argument.pieces

def Background.pieces (b : Background) : List Piece :=
  b.toSection.piece .backgroundLine :: b.steps.flatMap Step.pieces

def ExamplesTable.header (e : ExamplesTable) : Piece :=
  e.toSection.piece .examplesLine

def ExamplesTable.pieces (e : ExamplesTable) : List Piece :=
  e.tags.map .tag ++ (e.header :: e.rows.map .row)

/-- The pieces inside a scenario or an outline, whose tags stand outside. -/
def Scenario.pieces (kind : TokenKind) (s : Scenario) : List Piece :=
  s.toSection.piece kind :: s.steps.flatMap Step.pieces

def ScenarioDefinition.header : ScenarioDefinition → Piece
  | .scenario s => s.toSection.piece .scenarioLine
  | .outline o => o.toSection.piece .outlineLine

def ScenarioDefinition.pieces : ScenarioDefinition → List Piece
  | .scenario s => s.tags.map .tag ++ s.pieces .scenarioLine
  | .outline o =>
    o.tags.map .tag ++ (o.toScenario.pieces .outlineLine ++ o.examples.flatMap ExamplesTable.pieces)

/-- **The pieces of a feature**, depth first. -/
def Feature.pieces (f : Feature) : List Piece :=
  f.tags.map .tag ++ (f.toSection.piece .featureLine ::
    (f.background.toList.flatMap Background.pieces ++
      f.definitions.flatMap ScenarioDefinition.pieces))

/-! ## The lists in a feature -/

/-- The rows of a table, or the lines of a doc string. -/
def StepArgument.lists : StepArgument → List (List Piece)
  | .table grid => [grid.rows.map .row]
  | .docString doc => [doc.lines.map .docLine]
  | .empty => []

/-- A list of steps, and the lists inside each of them. -/
def stepLists (steps : List Step) : List (List Piece) :=
  steps.map Step.header :: steps.flatMap fun s => s.argument.lists

def ExamplesTable.lists (e : ExamplesTable) : List (List Piece) :=
  [e.tags.map .tag, e.rows.map .row]

def ScenarioDefinition.lists : ScenarioDefinition → List (List Piece)
  | .scenario s => s.tags.map .tag :: stepLists s.steps
  | .outline o =>
    o.tags.map .tag :: (stepLists o.steps ++
      o.examples.map ExamplesTable.header :: o.examples.flatMap ExamplesTable.lists)

/-- **Each single list in a feature**, by the pieces that its entries are
titled by: tags, steps, rows, lines of doc strings, definitions and
examples. -/
def Feature.lists (f : Feature) : List (List Piece) :=
  f.tags.map .tag :: (f.background.toList.flatMap (fun b => stepLists b.steps) ++
    f.definitions.map ScenarioDefinition.header :: f.definitions.flatMap ScenarioDefinition.lists)

/-! ## Drawing pieces from a source -/

section

variable {source source' stream stream' pieces pieces' : List Piece}
  {lists lists' : List (List Piece)}

/-- **Pieces drawn from a source**, each at most as often as it is there,
and lists of them in the order of a stream. -/
structure Drawn (source stream pieces : List Piece) (lists : List (List Piece)) : Prop where
  once : pieces <+~ source
  ordered : ∀ list ∈ lists, list <+ stream

namespace Drawn

theorem nil (source stream : List Piece) : Drawn source stream [] [] :=
  ⟨List.nil_subperm, List.forall_mem_nil _⟩

/-- A list that is drawn in order. -/
theorem of_sublist (h : pieces <+ source) (hstream : source <+ stream) :
    Drawn source stream pieces [pieces] :=
  ⟨h.subperm, List.forall_mem_singleton.mpr (h.trans hstream)⟩

/-- A single piece, which needs no order. -/
theorem single {piece : Piece} (h : piece ∈ source) : Drawn source stream [piece] [] :=
  ⟨List.singleton_subperm_iff.mpr h, List.forall_mem_nil _⟩

/-- What is drawn from two sources is drawn from both in a row. -/
theorem append (h : Drawn source stream pieces lists) (h' : Drawn source' stream pieces' lists') :
    Drawn (source ++ source') stream (pieces ++ pieces') (lists ++ lists') :=
  ⟨h.once.append h'.once, List.forall_mem_append.mpr ⟨h.ordered, h'.ordered⟩⟩

/-- More can be drawn from more. -/
theorem mono (h : Drawn source stream pieces lists) (hsource : source <+~ source')
    (hstream : stream <+ stream') : Drawn source' stream' pieces lists :=
  ⟨h.once.trans hsource, fun list hlist => (h.ordered list hlist).trans hstream⟩

/-- One more list that is in order. -/
theorem cons_list {list : List Piece} (h : Drawn source stream pieces lists)
    (hlist : list <+ stream) : Drawn source stream pieces (list :: lists) :=
  ⟨h.once, List.forall_mem_cons.mpr ⟨hlist, h.ordered⟩⟩

end Drawn

end

/-! ## The pieces of blocks -/

namespace Body

variable {body inside : Body} {kind : TokenKind} {rule : Rule} {key : Key}

@[simp] theorem delivered_append (events later : List Event) :
    delivered (events ++ later) = delivered events ++ delivered later :=
  List.flatMap_append

/-- A body delivers what its blocks deliver. -/
theorem delivered_events (body : Body) :
    delivered body.events = body.flatMap fun block => delivered block.events := by
  induction body with
  | nil => rfl
  | cons block rest ih => rw [events, delivered_append, ih, List.flatMap_cons]

/-- A rule delivers what is inside it. -/
theorem delivered_scope (rule : Rule) (inside : Body) :
    delivered (Block.scope rule inside).events = delivered inside.events := by
  rw [Block.events]
  change [] ++ delivered (events inside ++ [.exit rule]) = _
  rw [delivered_append]
  exact List.append_nil _

/-- The pieces of the blocks under one key. -/
def under (key : Key) (body : Body) : List Piece :=
  (body.filter fun block => block.key = key).flatMap fun block => delivered block.events

theorem under_sublist (key : Key) (body : Body) : under key body <+ delivered body.events := by
  rw [delivered_events]
  exact List.filter_sublist.flatMap _

/-- **Blocks under different keys are different blocks**: what they deliver
side by side the body delivers. -/
theorem subperm_delivered {keys : List Key} (hkeys : keys.Nodup) (body : Body) :
    keys.flatMap (under · body) <+~ delivered body.events := by
  induction keys generalizing body with
  | nil => exact List.nil_subperm
  | cons key keys ih =>
    obtain ⟨hkey, hrest⟩ := List.nodup_cons.mp hkeys
    -- The other keys find their blocks in what is left without those of the first.
    have hothers : keys.flatMap (under · body) =
        keys.flatMap (under · (body.filter fun block => !decide (block.key = key))) := by
      refine List.flatMap_congr fun other hother => ?_
      have hne : key ≠ other := fun heq => hkey (heq ▸ hother)
      rw [under, under, List.filter_filter]
      congr 1
      refine List.filter_congr fun block _ => ?_
      by_cases hblock : block.key = other
      · simp [hblock, hne.symm]
      · simp [hblock]
    have hsplit := List.filter_append_perm (fun block : Block => decide (block.key = key)) body
    rw [List.flatMap_cons, hothers, delivered_events]
    refine List.Subperm.trans ?_ (hsplit.flatMap_right _).subperm
    rw [List.flatMap_append]
    refine List.Subperm.append (List.Subperm.refl _) ?_
    rw [← delivered_events]
    exact ih hrest _

/-- Under the kind of a line stand the lines of that kind. -/
theorem under_token (kind : TokenKind) (body : Body) :
    under (.token kind) body = (leaves kind body).flatMap Token.pieces := by
  induction body with
  | nil => rfl
  | cons block rest ih =>
    rw [under] at ih ⊢
    cases block with
    | scope rule inside =>
      rw [List.filter_cons_of_neg (by simp [Block.key]), ih, leaves_scope]
    | leaf token =>
      by_cases hkind : token.kind = kind
      · rw [List.filter_cons_of_pos (by simp [Block.key, hkind]), List.flatMap_cons, ih,
          leaves_leaf, if_pos hkind, List.flatMap_cons]
        simp [delivered, Block.events, Event.pieces]
      · rw [List.filter_cons_of_neg (by simp [Block.key, hkind]), ih, leaves_leaf, if_neg hkind]

/-- Under a rule stand its blocks. -/
theorem under_rule (rule : Rule) (body : Body) :
    under (.rule rule) body = (bodies rule body).flatMap fun inside => delivered inside.events := by
  induction body with
  | nil => rfl
  | cons block rest ih =>
    rw [under] at ih ⊢
    cases block with
    | leaf token =>
      rw [List.filter_cons_of_neg (by simp [Block.key]), ih, bodies_leaf]
    | scope rule' inside =>
      by_cases hrule : rule' = rule
      · rw [List.filter_cons_of_pos (by simp [Block.key, hrule]), List.flatMap_cons, ih,
          delivered_scope, bodies_scope, if_pos hrule, List.flatMap_cons]
      · rw [List.filter_cons_of_neg (by simp [Block.key, hrule]), ih, bodies_scope, if_neg hrule]

/-! ## What a body gives -/

variable {keys keys' : List Key} {pieces pieces' : List Piece} {lists lists' : List (List Piece)}
  {line : Token}

/-- What is drawn from all that a body delivers. -/
abbrev Gives (body : Body) (pieces : List Piece) (lists : List (List Piece)) : Prop :=
  Drawn (delivered body.events) (delivered body.events) pieces lists

/-- What is drawn from its blocks under some keys alone. -/
abbrev GivesUnder (body : Body) (keys : List Key) (pieces : List Piece)
    (lists : List (List Piece)) : Prop :=
  Drawn (keys.flatMap (under · body)) (delivered body.events) pieces lists

theorem givesUnder_key (h : Drawn (under key body) (delivered body.events) pieces lists) :
    GivesUnder body [key] pieces lists := by
  rwa [GivesUnder, List.flatMap_singleton]

theorem givesUnder_nil (keys : List Key) (body : Body) : GivesUnder body keys [] [] :=
  Drawn.nil _ _

theorem GivesUnder.append (h : GivesUnder body keys pieces lists)
    (h' : GivesUnder body keys' pieces' lists') :
    GivesUnder body (keys ++ keys') (pieces ++ pieces') (lists ++ lists') := by
  rw [GivesUnder, List.flatMap_append]
  exact Drawn.append h h'

/-- What is drawn under different keys is drawn from the whole body. -/
theorem GivesUnder.gives (h : GivesUnder body keys pieces lists) (hkeys : keys.Nodup) :
    Gives body pieces lists :=
  Drawn.mono h (subperm_delivered hkeys body) (List.Sublist.refl _)

/-- The block of a rule gives what its inside gives. -/
theorem givesUnder_block (hinside : inside ∈ bodies rule body) (h : Gives inside pieces lists) :
    GivesUnder body [.rule rule] pieces lists := by
  have hsource : delivered inside.events <+ under (.rule rule) body := by
    obtain ⟨before, after, hbodies⟩ := List.append_of_mem hinside
    rw [under_rule, hbodies, List.flatMap_append, List.flatMap_cons]
    exact (List.sublist_append_left _ _).trans (List.sublist_append_right _ _)
  exact givesUnder_key (h.mono hsource.subperm (hsource.trans (under_sublist _ _)))

section

variable {α : Type _} {read : Body → Option α} {piecesOf : α → List Piece}
  {listsOf : α → List (List Piece)} {headerOf : α → Piece}

/-- Parts read one after the other give their pieces, and their headers in
order. -/
theorem drawn_parts
    (hread : ∀ inside part, read inside = some part → Gives inside (piecesOf part) (listsOf part))
    (hheader : ∀ part, headerOf part ∈ piecesOf part) (insides : List Body) :
    Drawn (insides.flatMap fun inside => delivered inside.events)
      (insides.flatMap fun inside => delivered inside.events)
      ((insides.filterMap read).flatMap piecesOf)
      ((insides.filterMap read).map headerOf :: (insides.filterMap read).flatMap listsOf) := by
  induction insides with
  | nil => exact (Drawn.nil _ _).cons_list (List.Sublist.refl _)
  | cons inside rest ih =>
    rw [List.flatMap_cons]
    cases hpart : read inside with
    | none =>
      rw [List.filterMap_cons_none hpart]
      have hrest := List.sublist_append_right (delivered inside.events)
        (rest.flatMap fun inside => delivered inside.events)
      exact ih.mono hrest.subperm hrest
    | some part =>
      rw [List.filterMap_cons_some hpart]
      obtain ⟨honce, hordered⟩ := hread inside part hpart
      obtain ⟨hheaders, hlists⟩ := List.forall_mem_cons.mp ih.ordered
      refine ⟨honce.append ih.once, List.forall_mem_cons.mpr ⟨?_, ?_⟩⟩
      · have hmem := honce.subset (hheader part)
        exact (List.singleton_sublist.mpr hmem).append hheaders
      · refine List.forall_mem_append.mpr ⟨fun list hlist => ?_, fun list hlist => ?_⟩
        · exact (hordered list hlist).trans (List.sublist_append_left _ _)
        · exact (hlists list hlist).trans (List.sublist_append_right _ _)

theorem givesUnder_parts
    (hread : ∀ inside part, read inside = some part → Gives inside (piecesOf part) (listsOf part))
    (hheader : ∀ part, headerOf part ∈ piecesOf part) (rule : Rule) (body : Body) :
    GivesUnder body [.rule rule] (((bodies rule body).filterMap read).flatMap piecesOf)
      (((bodies rule body).filterMap read).map headerOf ::
        ((bodies rule body).filterMap read).flatMap listsOf) := by
  have hparts := drawn_parts hread hheader (bodies rule body)
  rw [← under_rule] at hparts
  exact givesUnder_key (hparts.mono (List.Subperm.refl _) (under_sublist _ _))

end

/-! ## What the lines of a body give -/

/-- The line that titles a part. -/
theorem givesUnder_title (hkind : kind.isTitle = true) (h : line? kind body = some line) :
    GivesUnder body [.token kind] [.title kind line.location line.keyword line.text] [] := by
  have hmem := List.mem_of_head? h
  obtain ⟨-, rfl⟩ := mem_leaves.mp hmem
  refine givesUnder_key (.single ?_)
  rw [under_token]
  refine List.mem_flatMap.mpr ⟨line, hmem, ?_⟩
  rw [line.pieces_of_isTitle hkind]
  exact List.mem_singleton_self _

/-- All lines of a kind that gives one piece each. -/
theorem givesUnder_leaves {piece : Token → Piece}
    (hpiece : ∀ token : Token, token.kind = kind → token.pieces = [piece token]) :
    GivesUnder body [.token kind] ((leaves kind body).map piece) [(leaves kind body).map piece] := by
  have hleaves : (leaves kind body).map piece = under (.token kind) body := by
    rw [under_token, List.map_eq_flatMap]
    exact List.flatMap_congr fun token htoken => (hpiece token (mem_leaves.mp htoken).2).symm
  rw [hleaves]
  exact givesUnder_key (.of_sublist (List.Sublist.refl _) (under_sublist _ _))

theorem givesUnder_rows (body : Body) :
    GivesUnder body [.token .tableRow] ((rows body).map .row) [(rows body).map .row] := by
  rw [rows, List.map_map]
  refine givesUnder_leaves fun token hkind => ?_
  rw [Token.pieces, hkind]
  rfl

theorem givesUnder_docLines (body : Body) :
    GivesUnder body [.token .other] (((leaves .other body).map Token.docLine).map .docLine)
      [((leaves .other body).map Token.docLine).map .docLine] := by
  rw [List.map_map]
  refine givesUnder_leaves fun token hkind => ?_
  rw [Token.pieces, hkind]
  rfl

/-- The tags are those of the first block of tag lines. -/
theorem givesUnder_tags (body : Body) :
    GivesUnder body [.rule .tags] (body.tags.map .tag) [body.tags.map .tag] := by
  cases hbodies : bodies .tags body with
  | nil =>
    have htags : tags body = [] := by rw [tags, hbodies]; rfl
    rw [htags]
    exact (givesUnder_nil _ body).cons_list (List.nil_sublist _)
  | cons tagLines rest =>
    have htags : (tags body).map Piece.tag = under (.token .tagLine) tagLines := by
      rw [tags, hbodies, under_token]
      change ((leaves .tagLine tagLines).flatMap Token.tags).map Piece.tag = _
      rw [List.map_flatMap]
      refine List.flatMap_congr fun token htoken => ?_
      rw [Token.pieces, (mem_leaves.mp htoken).2, Token.tags, List.map_map]
      rfl
    have hmem : tagLines ∈ bodies .tags body := by simp [hbodies]
    rw [htags]
    exact givesUnder_block hmem (.of_sublist (under_sublist _ _) (List.Sublist.refl _))

/-! ## What the parts give -/

theorem gives_docString {doc : DocString} (h : docString? body = some doc) :
    Gives body (StepArgument.docString doc).pieces (StepArgument.docString doc).lists := by
  obtain ⟨opening, hopening, rfl⟩ := Option.map_eq_some_iff.mp h
  have hmem := List.mem_of_head? hopening
  have hpiece : Piece.opening opening.location opening.text ∈
      under (.token .docStringSeparator) body := by
    rw [under_token]
    refine List.mem_flatMap.mpr ⟨opening, hmem, ?_⟩
    rw [Token.pieces, (mem_leaves.mp hmem).2]
    exact List.mem_singleton_self _
  exact ((givesUnder_key (.single hpiece)).append (givesUnder_docLines body)).gives (by decide)

/-- Of a table and a doc string the argument is one, so it gives what that
one gives. -/
theorem givesUnder_argument (body : Body) :
    GivesUnder body [.rule .dataTable, .rule .docString] (argument body).pieces
      (argument body).lists := by
  rw [argument]
  cases htable : bodies .dataTable body with
  | cons table rest =>
    have hmem : table ∈ bodies .dataTable body := by simp [htable]
    have hrows := (givesUnder_rows table).gives (by decide)
    have happend := (givesUnder_block hmem hrows).append (givesUnder_nil [.rule .docString] body)
    rwa [List.append_nil, List.append_nil] at happend
  | nil =>
    cases hdocs : (bodies .docString body).filterMap docString? with
    | nil => exact .nil _ _
    | cons doc rest =>
      have hmem : doc ∈ (bodies .docString body).filterMap docString? := by simp [hdocs]
      obtain ⟨inside, hinside, hread⟩ := List.mem_filterMap.mp hmem
      exact (givesUnder_nil [.rule .dataTable] body).append
        (givesUnder_block hinside (gives_docString hread))

theorem gives_step {s : Step} (h : step? body = some s) : Gives body s.pieces s.argument.lists := by
  obtain ⟨line, hline, rfl⟩ := Option.map_eq_some_iff.mp h
  exact ((givesUnder_title rfl hline).append (givesUnder_argument body)).gives (by decide)

theorem givesUnder_steps (body : Body) :
    GivesUnder body [.rule .step] ((steps body).flatMap Step.pieces) (stepLists (steps body)) :=
  givesUnder_parts (fun _ _ => gives_step) (fun _ => List.mem_cons_self) .step body

/-- The title of a part and its steps. -/
theorem givesUnder_titledSteps {title : Section} (hkind : kind.isTitle = true)
    (h : titled? kind body = some title) :
    GivesUnder body [.token kind, .rule .step]
      (title.piece kind :: (steps body).flatMap Step.pieces) (stepLists (steps body)) := by
  obtain ⟨line, hline, rfl⟩ := Option.map_eq_some_iff.mp h
  exact (givesUnder_title hkind hline).append (givesUnder_steps body)

theorem gives_background {b : Background} (h : background? body = some b) :
    Gives body b.pieces (stepLists b.steps) := by
  obtain ⟨title, htitle, rfl⟩ := Option.map_eq_some_iff.mp h
  exact (givesUnder_titledSteps rfl htitle).gives (by decide)

theorem gives_examples {e : ExamplesTable} (h : examples? body = some e) :
    Gives body e.pieces e.lists := by
  obtain ⟨title, htitle, rfl⟩ := Option.map_eq_some_iff.mp h
  obtain ⟨line, hline, rfl⟩ := Option.map_eq_some_iff.mp htitle
  exact ((givesUnder_tags body).append
    ((givesUnder_title rfl hline).append (givesUnder_rows body))).gives (by decide)

theorem gives_scenario {tags : List Tag} {s : Scenario} (h : scenario? tags body = some s) :
    Gives body (s.pieces .scenarioLine) (stepLists s.steps) := by
  obtain ⟨title, htitle, rfl⟩ := Option.map_eq_some_iff.mp h
  exact (givesUnder_titledSteps rfl htitle).gives (by decide)

theorem gives_outline {tags : List Tag} {o : ScenarioOutline} (h : outline? tags body = some o) :
    Gives body (o.toScenario.pieces .outlineLine ++ o.examples.flatMap ExamplesTable.pieces)
      (stepLists o.steps ++
        o.examples.map ExamplesTable.header :: o.examples.flatMap ExamplesTable.lists) := by
  obtain ⟨title, htitle, rfl⟩ := Option.map_eq_some_iff.mp h
  have hheader (e : ExamplesTable) : e.header ∈ e.pieces :=
    List.mem_append_right _ List.mem_cons_self
  exact ((givesUnder_titledSteps rfl htitle).append
    (givesUnder_parts (fun _ _ => gives_examples) hheader .examples body)).gives (by decide)

/-- The tags of a definition are its own, and the rest is that of its
scenario or its outline. -/
theorem gives_definition {d : ScenarioDefinition} (h : definition? body = some d) :
    Gives body d.pieces d.lists := by
  rw [definition?] at h
  cases hscenario : bodies .scenario body with
  | cons scenario rest =>
    rw [hscenario] at h
    obtain ⟨s, hs, rfl⟩ := Option.map_eq_some_iff.mp h
    have htags : s.tags = body.tags := by
      obtain ⟨title, -, rfl⟩ := Option.map_eq_some_iff.mp hs
      rfl
    have hmem : scenario ∈ bodies .scenario body := by simp [hscenario]
    have hboth := (givesUnder_tags body).append (givesUnder_block hmem (gives_scenario hs))
    rw [← htags] at hboth
    exact hboth.gives (by decide)
  | nil =>
    cases houtline : bodies .outline body with
    | nil =>
      rw [hscenario, houtline] at h
      cases h
    | cons outline rest =>
      rw [hscenario, houtline] at h
      obtain ⟨o, ho, rfl⟩ := Option.map_eq_some_iff.mp h
      have htags : o.tags = body.tags := by
        obtain ⟨title, -, rfl⟩ := Option.map_eq_some_iff.mp ho
        rfl
      have hmem : outline ∈ bodies .outline body := by simp [houtline]
      have hboth := (givesUnder_tags body).append (givesUnder_block hmem (gives_outline ho))
      rw [← htags] at hboth
      exact hboth.gives (by decide)

/-- The header gives the tags and the title. -/
theorem givesUnder_header {line : Token} (h : line? .featureLine (header body) = some line) :
    GivesUnder body [.rule .featureHeader]
      ((tags (header body)).map .tag ++
        [.title .featureLine line.location line.keyword line.text])
      [(tags (header body)).map .tag] := by
  cases hheader : bodies .featureHeader body with
  | nil =>
    rw [header, hheader] at h
    cases h
  | cons inside rest =>
    have hread : header body = inside := by rw [header, hheader]; rfl
    rw [hread] at h ⊢
    have hmem : inside ∈ bodies .featureHeader body := by simp [hheader]
    exact givesUnder_block hmem
      (((givesUnder_tags inside).append (givesUnder_title rfl h)).gives (by decide))

/-- The first background, if there is one. -/
theorem givesUnder_background (body : Body) :
    GivesUnder body [.rule .background]
      (((bodies .background body).filterMap background?).head?.toList.flatMap Background.pieces)
      (((bodies .background body).filterMap background?).head?.toList.flatMap
        fun b => stepLists b.steps) := by
  cases hfirst : ((bodies .background body).filterMap background?).head? with
  | none => exact .nil _ _
  | some b =>
    obtain ⟨inside, hinside, hread⟩ := List.mem_filterMap.mp (List.mem_of_head? hfirst)
    simpa using givesUnder_block hinside (gives_background hread)

theorem givesUnder_definitions (body : Body) :
    GivesUnder body [.rule .definition]
      (((bodies .definition body).filterMap definition?).flatMap ScenarioDefinition.pieces)
      (((bodies .definition body).filterMap definition?).map ScenarioDefinition.header ::
        ((bodies .definition body).filterMap definition?).flatMap ScenarioDefinition.lists) := by
  refine givesUnder_parts (fun _ _ => gives_definition) (fun d => ?_) .definition body
  cases d with
  | scenario s => exact List.mem_append_right _ List.mem_cons_self
  | outline o =>
    exact List.mem_append_right _ (List.mem_append_left _ List.mem_cons_self)

/-- **A body gives its feature all its pieces.** -/
theorem gives_feature {fallback : String} {f : Feature} (h : feature? fallback body = some f) :
    Gives body f.pieces f.lists := by
  obtain ⟨line, hline, rfl⟩ := Option.map_eq_some_iff.mp h
  have hall := ((givesUnder_header hline).append ((givesUnder_background body).append
    (givesUnder_definitions body))).gives (by decide)
  rwa [List.append_assoc] at hall

end Body

/-! ## Every run -/

variable {settings : Settings} {events : List Event} {f : Feature}

/-- A line gives pieces of its own kind. -/
theorem Token.kind_of_mem_pieces {token : Token} {piece : Piece} (h : piece ∈ token.pieces) :
    piece.kind = token.kind := by
  rw [Token.pieces] at h
  cases hkind : token.kind <;> simp only [hkind] at h
  case tagLine =>
    obtain ⟨span, -, rfl⟩ := List.mem_map.mp h
    rfl
  case endOfFile | empty | comment | language => cases h
  all_goals
    obtain rfl := List.mem_singleton.mp h
    rfl

/-- So the pieces of one kind are those of the lines of that kind. -/
theorem filter_delivered (kind : TokenKind) (events : List Event) :
    (delivered events).filter (fun piece => piece.kind = kind) =
      (linesOf kind events).flatMap Token.pieces := by
  induction events with
  | nil => rfl
  | cons event rest ih =>
    rw [delivered] at ih ⊢
    rw [List.flatMap_cons, List.filter_append, ih]
    cases event with
    | enter rule | exit rule => rfl
    | leaf token =>
      by_cases hkind : token.kind = kind
      · have hall : token.pieces.filter (fun piece => piece.kind = kind) = token.pieces :=
          List.filter_eq_self.mpr fun piece hpiece =>
            decide_eq_true ((Token.kind_of_mem_pieces hpiece).trans hkind)
        simp [linesOf, Event.pieces, hkind, hall]
      · have hnone : token.pieces.filter (fun piece => piece.kind = kind) = [] :=
          List.filter_eq_nil_iff.mpr fun piece hpiece => by
            simp [Token.kind_of_mem_pieces hpiece, hkind]
        simp [linesOf, Event.pieces, hkind, hnone]

/-- The feature of a run is made of what was delivered. -/
theorem drawn_of_assemble (h : assemble settings events = .ok (some f)) :
    Drawn (delivered events) (delivered events) f.pieces f.lists := by
  obtain ⟨outermost, opened, rfl, -⟩ := exists_unfinished (errors_brackets_of_assemble h)
  obtain ⟨-, hfirst⟩ := assemble_events_eq_ok_iff.mp (assemble_of_unfinished h)
  obtain ⟨body, hbody, hread⟩ := List.mem_filterMap.mp (List.mem_of_head? hfirst)
  obtain ⟨rest, hrest⟩ := exists_unfinished_eq outermost opened
  have hgiven := (Body.givesUnder_block hbody (Body.gives_feature hread)).gives (by simp)
  have hpart : delivered outermost.events <+ delivered (unfinished outermost opened) := by
    rw [hrest, Body.delivered_append]
    exact List.sublist_append_left _ _
  exact hgiven.mono hpart.subperm hpart

/-- **Each line is used at most once, and lists keep the order of
delivery**, whatever the walk was: the pieces of each kind in the feature
are pieces of the lines of that kind, none taken twice, and every list in
the feature is a part of what was delivered, in the order in which it
was. -/
theorem pieces_of_assemble (h : assemble settings events = .ok (some f)) :
    (∀ kind, f.pieces.filter (fun piece => piece.kind = kind) <+~
        (linesOf kind events).flatMap Token.pieces) ∧
      ∀ list ∈ f.lists, list <+ delivered events := by
  obtain ⟨honce, hordered⟩ := drawn_of_assemble h
  refine ⟨fun kind => ?_, hordered⟩
  rw [← filter_delivered]
  exact honce.filter _

/-- A walk that follows no grammar: a row outside tables, a step with two
lines, and two backgrounds, both behind a definition. -/
def looseWalk : Body :=
  [.scope .feature
    [.scope .featureHeader
        [.scope .tags
          [.leaf { kind := .tagLine, location := ⟨1, 1⟩, spans := [⟨1, "@a"⟩, ⟨4, "@b"⟩] }],
          .leaf { kind := .featureLine, location := ⟨2, 1⟩, keyword := "Feature", text := "Sums" }],
      .scope .definition
        [.leaf { kind := .tableRow, location := ⟨3, 3⟩, spans := [⟨5, "1"⟩] },
          .scope .scenario
            [.leaf { kind := .scenarioLine, location := ⟨4, 3⟩, keyword := "Scenario" },
              .scope .step
                [.leaf { kind := .stepLine, location := ⟨5, 5⟩, keyword := "When " },
                  .leaf { kind := .stepLine, location := ⟨6, 5⟩, keyword := "Then " }]]],
      .scope .background
        [.leaf { kind := .backgroundLine, location := ⟨7, 3⟩, keyword := "Background" },
          .scope .step [.leaf { kind := .stepLine, location := ⟨8, 5⟩, keyword := "Given " }]],
      .scope .background [.leaf { kind := .backgroundLine, location := ⟨9, 3⟩ }]]]

/-- Its feature has two of its three step lines, the background's first. -/
theorem pieces_looseWalk :
    ∃ f, assemble {} looseWalk.events = .ok (some f) ∧
      f.pieces.filter (fun piece => piece.kind = .stepLine) =
        [.title .stepLine ⟨8, 5⟩ "Given " "", .title .stepLine ⟨5, 5⟩ "When " ""] ∧
      f.pieces.filter (fun piece => piece.kind = .stepLine) <+~
        (linesOf .stepLine looseWalk.events).flatMap Token.pieces ∧
      ∀ list ∈ f.lists, list <+ delivered looseWalk.events := by
  have hread : ∃ f, assemble {} looseWalk.events = .ok (some f) ∧
      f.pieces.filter (fun piece => piece.kind = .stepLine) =
        [.title .stepLine ⟨8, 5⟩ "Given " "", .title .stepLine ⟨5, 5⟩ "When " ""] := ⟨_, rfl, rfl⟩
  obtain ⟨f, htold, hsteps⟩ := hread
  obtain ⟨honce, hordered⟩ := pieces_of_assemble htold
  exact ⟨f, htold, hsteps, honce .stepLine, hordered⟩

end FeatureTree
