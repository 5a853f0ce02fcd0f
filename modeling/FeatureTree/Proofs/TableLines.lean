import FeatureTree.Proofs.Document
/-!
# Tables and their lines

A data table and an examples table are made of the table lines directly
in their block, in the same way (`TableLaw`). Where the lines have one
number of spans, either rule makes the same rows of them; otherwise either
fails at the first line that differs from the first one. Nothing else in
the block counts, so the order of the lines does not decide whether a
table is made, and lines behind an odd one do not change the error.
-/

namespace FeatureTree

/-- **The row of a table line** is at the place of the line, and has one
cell for each span: on that line, at the column of the span. -/
structure Token.IsRow (line : Token) (row : TableRow) : Prop where
  location : row.location = line.location
  cells : List.Forall₂ (fun (span : Span) (cell : TableCell) =>
    cell = { location := { line := line.location.line, column := span.column }
             value := span.text }) line.spans row.cells

/-- The rows of a child that is a table of either rule. -/
def Child.rows? : Child → Option (List TableRow)
  | .dataTable grid => some grid.rows
  | .examples e => some e.rows
  | .token _ | .group _ _ | .step _ | .docString _ | .background _ | .definition _
  | .description _ | .feature _ => none

/-- **The inside of a table block of some lines**: these are its table
lines, nothing in it is refused, and if it is of examples it has the line
that titles them. -/
structure IsTableOf (lines : List Token) (rule : Rule) (body : Body) : Prop where
  isTable : rule.isTable = true
  titled : rule = .examples → ∃ title, .leaf title ∈ body ∧ title.kind = .examplesLine
  accepted : body.error? = none
  lines : body.leaves .tableRow = lines

namespace Body

/-- A table block with this inside is made to a table of some rows,
whatever was taken in before: it is filed, and nothing else changes. -/
def Tabulates (body : Body) (rule : Rule) (rows : List TableRow) : Prop :=
  ∀ a : Assembly, ∃ child, child.rows? = some rows ∧
    a.run (Block.scope rule body).events = .ok (a.file (.rule rule) child)

/-- It is refused for an uneven table, at some place. -/
def UnevenAt (body : Body) (rule : Rule) (location : Location) : Prop :=
  ∀ a : Assembly, a.run (Block.scope rule body).events = .error (.unevenTable location)

end Body

/-! ## Rows -/

/-- The rows made of table lines are theirs. -/
theorem isRow_map_row (lines : List Token) :
    List.Forall₂ Token.IsRow lines (lines.map Token.row) := by
  refine List.forall₂_map_right_iff.mpr (List.forall₂_same.mpr fun line _ => ⟨rfl, ?_⟩)
  exact List.forall₂_map_right_iff.mpr (List.forall₂_same.mpr fun span _ => rfl)

/-- A table that is not even has a first odd line. -/
theorem exists_isFirstOddLine {lines : List Token} (h : ¬ EvenLines lines) :
    ∃ line, IsFirstOddLine lines line := by
  rw [← Body.oddLine?_eq_none_iff] at h
  obtain ⟨line, hline⟩ := Option.ne_none_iff_exists'.mp h
  exact ⟨line, Body.oddLine?_eq_some_iff.mp hline⟩

/-- One that is even has none. -/
theorem IsFirstOddLine.not_even {lines : List Token} {line : Token}
    (h : IsFirstOddLine lines line) : ¬ EvenLines lines := by
  intro heven
  have hnone := Body.oddLine?_eq_none_iff.mpr heven
  have hsome := Body.oddLine?_eq_some_iff.mpr h
  rw [hnone] at hsome
  cases hsome

/-- There is one first odd line. -/
theorem IsFirstOddLine.unique {lines : List Token} {line line' : Token}
    (h : IsFirstOddLine lines line) (h' : IsFirstOddLine lines line') : line = line' := by
  have hline := Body.oddLine?_eq_some_iff.mpr h
  have hline' := Body.oddLine?_eq_some_iff.mpr h'
  exact Option.some.inj (hline.symm.trans hline')

/-- It stays the first, whatever lines follow. -/
theorem IsFirstOddLine.append {lines : List Token} {line : Token} (h : IsFirstOddLine lines line)
    (more : List Token) : IsFirstOddLine (lines ++ more) line := by
  obtain ⟨first, same, later, rfl, hsame, hdiffers⟩ := h
  exact ⟨first, same, later ++ more, by simp, hsame, hdiffers⟩

/-- The order of its lines does not make a table even. -/
theorem EvenLines.perm {lines lines' : List Token} (h : EvenLines lines)
    (hperm : lines'.Perm lines) : EvenLines lines' :=
  fun line hline line' hline' =>
    h line (hperm.mem_iff.mp hline) line' (hperm.mem_iff.mp hline')

/-! ## Table blocks -/

namespace IsTableOf

variable {lines lines' : List Token} {rule : Rule} {body before after more : Body}
  {rows : List TableRow} {location : Location}

/-- Table lines alone are the inside of a data table. -/
theorem dataTable (hlines : ∀ line ∈ lines, line.kind = .tableRow) :
    IsTableOf lines .dataTable (lines.map .leaf) where
  isTable := rfl
  titled := nofun
  accepted := Body.error?_map_leaf
  lines := Body.leaves_map_leaf hlines

/-- Behind a line that titles them, they are that of an examples table. -/
theorem examples (hlines : ∀ line ∈ lines, line.kind = .tableRow) {title : Token}
    (htitle : title.kind = .examplesLine) :
    IsTableOf lines .examples (.leaf title :: lines.map .leaf) where
  isTable := rfl
  titled _ := ⟨title, List.mem_cons_self, htitle⟩
  accepted := by
    rw [Body.error?, Body.error?_map_leaf]
    rfl
  lines := by
    have hkind : title.kind ≠ .tableRow := by
      rw [htitle]
      decide
    rw [Body.leaves_leaf, if_neg hkind, Body.leaves_map_leaf hlines]

/-- An examples table has a first line that titles it. -/
theorem exists_title (h : IsTableOf lines .examples body) :
    ∃ title, body.line? .examplesLine = some title := by
  obtain ⟨title, hmem, hkind⟩ := h.titled rfl
  have hleaves : title ∈ body.leaves .examplesLine := Body.mem_leaves.mpr ⟨hmem, hkind⟩
  exact ⟨_, List.head?_eq_some_head (List.ne_nil_of_mem hleaves)⟩

/-- The exit of a table is refused for its first odd line alone. -/
theorem error?_eq (h : IsTableOf lines rule body) :
    (Block.scope rule body).error? =
      (Body.oddLine? lines).map fun line => .unevenTable line.location := by
  have huneven : body.uneven? =
      (Body.oddLine? lines).map fun line => .unevenTable line.location := by
    rw [Body.uneven?, h.lines]
  have hrule := h.isTable
  rw [Block.error?, h.accepted, Option.none_or]
  cases rule with
  | dataTable => exact huneven
  | examples =>
    obtain ⟨title, htitle⟩ := h.exists_title
    rw [Body.refusal?, Body.missing?_of_line? htitle, Option.none_or, huneven]
  | _ => cases hrule

/-- What a table block leaves is a table of the rows of its lines. -/
theorem exists_child (h : IsTableOf lines rule body) (fallback : String) :
    ∃ child, (Block.scope rule body).child? fallback = some child ∧
      child.rows? = some (lines.map Token.row) := by
  have hrows : some body.rows = some (lines.map Token.row) := by rw [Body.rows, h.lines]
  have hrule := h.isTable
  cases rule with
  | dataTable => exact ⟨.dataTable { rows := body.rows }, rfl, hrows⟩
  | examples =>
    obtain ⟨title, htitle⟩ := h.exists_title
    refine ⟨.examples
      { toSection := title.titled body.description
        tags := body.tags
        rows := body.rows }, ?_, hrows⟩
    rw [Block.child?, Body.examples?, Body.titled?, htitle]
    rfl
  | _ => cases hrule

/-- **Even lines make a table of their rows**, by either rule. -/
theorem tabulates (h : IsTableOf lines rule body) (heven : EvenLines lines) :
    body.Tabulates rule (lines.map Token.row) := by
  intro a
  obtain ⟨child, hchild, hrows⟩ := h.exists_child a.fallback
  have haccepted : (Block.scope rule body).error? = none := by
    rw [h.error?_eq, Body.oddLine?_eq_none_iff.mpr heven]
    rfl
  exact ⟨child, hrows, a.run_accepted haccepted hchild⟩

/-- **Others are refused at the first odd line**, by either rule. -/
theorem unevenAt (h : IsTableOf lines rule body) {line : Token}
    (hodd : IsFirstOddLine lines line) : body.UnevenAt rule line.location := by
  intro a
  refine a.run_refused ?_
  rw [h.error?_eq, Body.oddLine?_eq_some_iff.mpr hodd]
  rfl

/-- A table is made of even lines only, and of their rows. -/
theorem tabulates_iff (h : IsTableOf lines rule body) :
    body.Tabulates rule rows ↔ EvenLines lines ∧ rows = lines.map Token.row := by
  constructor
  · intro hmade
    obtain ⟨child, hrows, hrun⟩ := hmade (Assembly.start {})
    by_cases heven : EvenLines lines
    · obtain ⟨child', hrows', hrun'⟩ := h.tabulates heven (Assembly.start {})
      have hsame : child = child' := Assembly.file_inj (Except.ok.inj (hrun.symm.trans hrun'))
      subst hsame
      exact ⟨heven, Option.some.inj (hrows.symm.trans hrows')⟩
    · obtain ⟨line, hodd⟩ := exists_isFirstOddLine heven
      have hrefused := h.unevenAt hodd (Assembly.start {})
      rw [hrun] at hrefused
      cases hrefused
  · rintro ⟨heven, rfl⟩
    exact h.tabulates heven

/-- And one is refused at its first odd line only. -/
theorem unevenAt_iff (h : IsTableOf lines rule body) :
    body.UnevenAt rule location ↔
      ∃ line, IsFirstOddLine lines line ∧ line.location = location := by
  constructor
  · intro hrefused
    have hrun := hrefused (Assembly.start {})
    by_cases heven : EvenLines lines
    · obtain ⟨child, -, hmade⟩ := h.tabulates heven (Assembly.start {})
      rw [hmade] at hrun
      cases hrun
    · obtain ⟨line, hodd⟩ := exists_isFirstOddLine heven
      rw [h.unevenAt hodd (Assembly.start {})] at hrun
      exact ⟨line, hodd, AssemblyError.unevenTable.inj (Except.error.inj hrun)⟩
  · rintro ⟨line, hodd, rfl⟩
    exact h.unevenAt hodd

/-- A block that is not a table line changes nothing about a table. -/
theorem insert (h : IsTableOf lines rule (before ++ after)) {block : Block}
    (haccepted : block.error? = none) (hkey : block.key ≠ .token .tableRow) :
    IsTableOf lines rule (before ++ block :: after) := by
  have hblock : Body.leaves .tableRow [block] = [] := by
    cases block with
    | scope rule inside => rfl
    | leaf token =>
      have hkind : token.kind ≠ .tableRow := fun hkind => hkey (congrArg Key.token hkind)
      rw [Body.leaves_leaf, if_neg hkind]
      rfl
  have hparts : before ++ block :: after = before ++ ([block] ++ after) := rfl
  have hbefore : Body.error? before = none ∧ Body.error? after = none := by
    have hwhole := h.accepted
    rwa [Body.error?_append, Option.or_eq_none_iff] at hwhole
  refine ⟨h.isTable, ?_, ?_, ?_⟩
  · intro hrule
    obtain ⟨title, hmem, hkind⟩ := h.titled hrule
    refine ⟨title, ?_, hkind⟩
    rcases List.mem_append.mp hmem with hmem | hmem
    · exact List.mem_append_left _ hmem
    · exact List.mem_append_right _ (List.mem_cons_of_mem _ hmem)
  · rw [hparts]
    exact Body.error?_append_eq_none hbefore.1
      (Body.error?_append_eq_none (Body.error?_singleton haccepted) hbefore.2)
  · rw [hparts, Body.leaves_append, Body.leaves_append, hblock, List.nil_append,
      ← Body.leaves_append, h.lines]

/-- What is added behind a table adds its own lines. -/
theorem append (h : IsTableOf lines rule body) (haccepted : more.error? = none) :
    IsTableOf (lines ++ more.leaves .tableRow) rule (body ++ more) where
  isTable := h.isTable
  titled := by
    intro hrule
    obtain ⟨title, hmem, hkind⟩ := h.titled hrule
    exact ⟨title, List.mem_append_left _ hmem, hkind⟩
  accepted := Body.error?_append_eq_none h.accepted haccepted
  lines := by rw [Body.leaves_append, h.lines]

end IsTableOf

/-! ## The law of tables -/

/-- **What any table of some lines comes to**, of either rule. -/
structure TableLaw (lines : List Token) : Prop where
  /-- There are tables of either rule, if these are table lines. -/
  plain (hlines : ∀ line ∈ lines, line.kind = .tableRow) :
    IsTableOf lines .dataTable (lines.map .leaf) ∧
      ∀ title : Token, title.kind = .examplesLine →
        IsTableOf lines .examples (.leaf title :: lines.map .leaf)
  /-- It is made just where any two of the lines have the same number of
  spans. -/
  succeeds {rule : Rule} {body : Body} (h : IsTableOf lines rule body) :
    (∃ rows, body.Tabulates rule rows) ↔ EvenLines lines
  /-- Then either rule makes the same rows, one for each line in order. -/
  even (heven : EvenLines lines) : ∃ rows, List.Forall₂ Token.IsRow lines rows ∧
    ∀ rule body, IsTableOf lines rule body → body.Tabulates rule rows
  /-- Otherwise either rule refuses it at the same line: the first that
  differs from the first one. -/
  uneven (hodd : ¬ EvenLines lines) : ∃ line, IsFirstOddLine lines line ∧
    ∀ rule body, IsTableOf lines rule body → body.UnevenAt rule line.location
  /-- The order of the lines does not decide whether a table is made. -/
  permuted {rule : Rule} {body body' : Body} {lines' : List Token} (h : IsTableOf lines rule body)
    (h' : IsTableOf lines' rule body') (hperm : lines'.Perm lines) :
    (∃ rows, body'.Tabulates rule rows) ↔ ∃ rows, body.Tabulates rule rows
  /-- Lines of other kinds, and blocks, make no difference wherever they
  stand between. -/
  interleaved {rule : Rule} {before after : Body} (h : IsTableOf lines rule (before ++ after))
    (block : Block) (haccepted : block.error? = none) (hkey : block.key ≠ .token .tableRow) :
    (∀ rows, (before ++ block :: after).Tabulates rule rows ↔
      (before ++ after).Tabulates rule rows) ∧
    ∀ location, (before ++ block :: after).UnevenAt rule location ↔
      (before ++ after).UnevenAt rule location
  /-- A table that is refused is refused at the same place with more behind
  it. -/
  appended {rule : Rule} {body : Body} {location : Location} (h : IsTableOf lines rule body)
    (hrefused : body.UnevenAt rule location) (more : Body) (haccepted : more.error? = none) :
    (body ++ more).UnevenAt rule location

/-- **Data tables and examples tables are made alike**, of any lines. -/
theorem tableLaw (lines : List Token) : TableLaw lines := by
  have hsucceeds {lines : List Token} {rule : Rule} {body : Body} (h : IsTableOf lines rule body) :
      (∃ rows, body.Tabulates rule rows) ↔ EvenLines lines := by
    constructor
    · rintro ⟨rows, hmade⟩
      exact (h.tabulates_iff.mp hmade).1
    · intro heven
      exact ⟨_, h.tabulates heven⟩
  refine ⟨?_, hsucceeds, ?_, ?_, ?_, ?_, ?_⟩
  · intro hlines
    exact ⟨.dataTable hlines, fun title htitle => .examples hlines htitle⟩
  · intro heven
    exact ⟨_, isRow_map_row lines, fun rule body h => h.tabulates heven⟩
  · intro hodd
    obtain ⟨line, hline⟩ := exists_isFirstOddLine hodd
    exact ⟨line, hline, fun rule body h => h.unevenAt hline⟩
  · intro rule body body' lines' h h' hperm
    rw [hsucceeds h, hsucceeds h']
    exact ⟨fun heven => heven.perm hperm.symm, fun heven => heven.perm hperm⟩
  · intro rule before after h block haccepted hkey
    have hinserted := h.insert haccepted hkey
    refine ⟨fun rows => ?_, fun location => ?_⟩
    · rw [h.tabulates_iff, hinserted.tabulates_iff]
    · rw [h.unevenAt_iff, hinserted.unevenAt_iff]
  · intro rule body location h hrefused more haccepted
    obtain ⟨line, hline, rfl⟩ := h.unevenAt_iff.mp hrefused
    exact (h.append haccepted).unevenAt (hline.append _)

/-- Three lines, of which the second has no spans and the third has one. -/
def gappedLines : List Token :=
  [{ kind := .tableRow, location := ⟨6, 3⟩, spans := [⟨5, "a"⟩, ⟨9, "b"⟩] },
    { kind := .tableRow, location := ⟨7, 3⟩ },
    { kind := .tableRow, location := ⟨8, 3⟩, spans := [⟨5, "1"⟩] }]

/-- Either rule refuses them at the second line, behind a comment too. -/
theorem tableLaw_gappedLines :
    Body.UnevenAt (gappedLines.map .leaf) .dataTable ⟨7, 3⟩ ∧
      Body.UnevenAt (.leaf { kind := .comment, location := ⟨5, 3⟩ } :: gappedLines.map .leaf)
        .dataTable ⟨7, 3⟩ ∧
      Body.UnevenAt (.leaf { kind := .examplesLine, location := ⟨4, 1⟩ } :: gappedLines.map .leaf)
        .examples ⟨7, 3⟩ := by
  have hlaw := tableLaw gappedLines
  have hfirst : IsFirstOddLine gappedLines { kind := .tableRow, location := ⟨7, 3⟩ } :=
    ⟨_, [], _, rfl, by simp, by decide⟩
  obtain ⟨hdata, hexamples⟩ := hlaw.plain (by decide)
  obtain ⟨line, hline, hrefused⟩ := hlaw.uneven hfirst.not_even
  obtain rfl := hline.unique hfirst
  have hplain := hrefused _ _ hdata
  have hbare : IsTableOf gappedLines .dataTable ([] ++ gappedLines.map .leaf) := hdata
  exact ⟨hplain, ((hlaw.interleaved hbare _ rfl (by decide)).2 _).mpr hplain,
    hrefused _ _ (hexamples _ rfl)⟩

end FeatureTree
