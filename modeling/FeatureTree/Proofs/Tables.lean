import FeatureTree.Proofs.Production
import FeatureTree.Proofs.Reading
/-!
# The tables of a document

A data table and an examples table are made of the table lines directly
inside their rule (`Body.tables`). They are even when these have one
number of spans (`Body.Even`), and otherwise there is a first odd line
(`Body.IsFirstOdd`). In a document no table stands inside another and no
table line outside all tables, so the tables hold the table lines of the
walk in their order (`IsDocument.flatten_tables`).
-/

namespace FeatureTree

/-- The rules that make a table of the lines in them. -/
def Rule.isTable : Rule → Bool
  | .dataTable | .examples => true
  | _ => false

mutual

/-- The lines of each table in a block, the tables in the order in which
they end. -/
def Block.tables : Block → List (List Token)
  | .leaf _ => []
  | .scope rule body =>
    Body.tables body ++ if rule.isTable then [Body.leaves .tableRow body] else []

/-- The lines of each table in a body. -/
def Body.tables : Body → List (List Token)
  | [] => []
  | block :: rest => block.tables ++ Body.tables rest

end

/-- All lines of a table have the same number of spans. -/
def EvenLines (lines : List Token) : Prop :=
  ∀ line ∈ lines, ∀ line' ∈ lines, line.spans.length = line'.spans.length

instance : DecidablePred EvenLines := fun lines =>
  inferInstanceAs (Decidable (∀ line ∈ lines, ∀ line' ∈ lines, _ = _))

/-- The first of some table lines that differs from the first one: those
before it have its number of spans. -/
def IsFirstOddLine (lines : List Token) (line : Token) : Prop :=
  ∃ first same later, lines = first :: (same ++ line :: later) ∧
    (∀ line' ∈ same, line'.spans.length = first.spans.length) ∧
    line.spans.length ≠ first.spans.length

namespace Body

/-- All tables of a body are even. -/
def Even (body : Body) : Prop :=
  ∀ lines ∈ body.tables, EvenLines lines

instance : DecidablePred Even := fun body =>
  inferInstanceAs (Decidable (∀ lines ∈ body.tables, EvenLines lines))

/-- The first odd line of a body: all tables before its own are even, and
so are the lines before it in its own table, but it differs from them. -/
def IsFirstOdd (body : Body) (line : Token) : Prop :=
  ∃ before first same later after,
    body.tables = before ++ (first :: (same ++ line :: later)) :: after ∧
    (∀ lines ∈ before, EvenLines lines) ∧
    (∀ line' ∈ same, line'.spans.length = first.spans.length) ∧
    line.spans.length ≠ first.spans.length

/-- A table is even when no line of it is odd. -/
theorem oddLine?_eq_none_iff {lines : List Token} : oddLine? lines = none ↔ EvenLines lines := by
  cases lines with
  | nil => exact ⟨fun _ _ h => (List.not_mem_nil h).elim, fun _ => rfl⟩
  | cons first rest =>
    have hodd : oddLine? (first :: rest) = none ↔
        ∀ line ∈ rest, line.spans.length = first.spans.length := by
      simp [oddLine?, List.find?_eq_none]
    rw [hodd]
    constructor
    · intro h line hline line' hline'
      have hfirst : ∀ l ∈ first :: rest, l.spans.length = first.spans.length :=
        List.forall_mem_cons.mpr ⟨rfl, h⟩
      rw [hfirst line hline, hfirst line' hline']
    · intro h line hline
      exact h line (List.mem_cons_of_mem _ hline) first List.mem_cons_self

/-- The odd line of a table is the first that differs from its first
one. -/
theorem oddLine?_eq_some_iff {lines : List Token} {line : Token} :
    oddLine? lines = some line ↔ IsFirstOddLine lines line := by
  constructor
  · intro h
    cases lines with
    | nil => cases h
    | cons first rest =>
      obtain ⟨hodd, same, later, rfl, hsame⟩ := List.find?_eq_some_iff_append.mp h
      refine ⟨first, same, later, rfl, fun line' hline' => ?_, by simpa using hodd⟩
      simpa using hsame line' hline'
  · rintro ⟨first, same, later, rfl, hsame, hodd⟩
    refine List.find?_eq_some_iff_append.mpr ⟨by simpa using hodd, same, later, rfl, ?_⟩
    intro line' hline'
    simpa using hsame line' hline'

end Body

/-! ## The order of the tables -/

/-- The line, of an event that is a line of a table. -/
def Event.tableLine? : Event → Option Token
  | .leaf token => if token.kind = .tableRow then some token else none
  | .enter _ | .exit _ => none

namespace Body

/-- The lines of tables in a walk, in the order of the walk. -/
def tableLines (body : Body) : List Token :=
  body.events.filterMap Event.tableLine?

variable {body rest inside : Body} {rule : Rule}

theorem tableLines_leaf {token : Token} :
    tableLines (.leaf token :: rest) =
      if token.kind = .tableRow then token :: tableLines rest else tableLines rest := by
  by_cases h : token.kind = .tableRow <;>
    simp [tableLines, events, Block.events, Event.tableLine?, h]

theorem filterMap_events_scope :
    (Block.scope rule inside).events.filterMap Event.tableLine? = tableLines inside := by
  rw [Block.events, List.filterMap_cons_none rfl, List.filterMap_append]
  exact List.append_nil _

theorem tableLines_scope :
    tableLines (.scope rule inside :: rest) = tableLines inside ++ tableLines rest := by
  rw [tableLines, events, List.filterMap_append, filterMap_events_scope]
  rfl

/-- Where no line and no rule is of a table, there are no tables. -/
theorem tables_of_lines
    (h : ∀ block ∈ body, ∃ token, block = .leaf token ∧ token.kind ≠ .tableRow) :
    tables body = [] ∧ tableLines body = [] := by
  induction body with
  | nil => exact ⟨rfl, rfl⟩
  | cons block rest ih =>
    obtain ⟨token, rfl, htoken⟩ := h block List.mem_cons_self
    obtain ⟨htables, hlines⟩ := ih fun b hb => h b (List.mem_cons_of_mem _ hb)
    exact ⟨htables, by rw [tableLines_leaf, if_neg htoken, hlines]⟩

/-- Tags and descriptions are lines, and none of a table. -/
theorem tables_of_text (h : (Block.scope rule inside).Grammatical)
    (hrule : rule = .tags ∨ rule = .description) :
    tables inside = [] ∧ tableLines inside = [] := by
  -- A block is noise, which is a line, or one that the production names.
  refine tables_of_lines fun block hmem => ?_
  cases hnoise : block.isNoise with
  | true =>
    cases block with
    | scope rule' body => cases hnoise
    | leaf token =>
      refine ⟨token, rfl, fun hkind => ?_⟩
      rw [Block.isNoise, hkind] at hnoise
      cases hnoise
  | false =>
    have hkey := key_mem_production h hmem hnoise
    cases block with
    | scope rule' body => rcases hrule with rfl | rfl <;> cases List.mem_singleton.mp hkey
    | leaf token =>
      refine ⟨token, rfl, fun hkind => ?_⟩
      rw [Block.key, hkind] at hkey
      rcases hrule with rfl | rfl <;> cases List.mem_singleton.mp hkey

/-- No table stands inside another. -/
theorem tables_of_isTable (h : (Block.scope rule body).Grammatical) (htable : rule.isTable) :
    tables body = [] ∧ tableLines body = leaves .tableRow body := by
  have htext : ∀ rule' inside, .scope rule' inside ∈ body →
      rule' = .tags ∨ rule' = .description := by
    intro rule' inside hmem
    have hkey := key_mem_production h hmem rfl
    cases rule with
    | dataTable => cases List.mem_singleton.mp hkey
    | examples =>
      have hkeys : Rule.examples.production.keys =
          [.rule .tags, .token .examplesLine, .rule .description, .token .tableRow] := rfl
      rw [hkeys] at hkey
      simpa [Block.key] using hkey
    | _ => cases htable
  -- From here on only the rules inside matter, so the induction may forget the production.
  have hbody := h.2
  clear h
  induction body with
  | nil => exact ⟨rfl, rfl⟩
  | cons block rest ih =>
    obtain ⟨htables, hlines⟩ :=
      ih (fun r i hmem => htext r i (List.mem_cons_of_mem _ hmem)) hbody.2
    cases block with
    | leaf token => exact ⟨htables, by rw [tableLines_leaf, leaves_leaf, hlines]⟩
    | scope rule' inside =>
      have hrule' := htext rule' inside List.mem_cons_self
      have hnot : rule'.isTable = false := by rcases hrule' with rfl | rfl <;> rfl
      obtain ⟨hinside, hnone⟩ := tables_of_text hbody.1 hrule'
      refine ⟨?_, by rw [tableLines_scope, hnone, hlines]; rfl⟩
      rw [tables, Block.tables, hinside, hnot, htables]
      rfl

/-- A rule that is not a table has no line of one. -/
theorem leaves_of_not_isTable (h : (Block.scope rule body).Grammatical)
    (htable : rule.isTable = false) : leaves .tableRow body = [] := by
  rw [List.eq_nil_iff_forall_not_mem]
  intro token htoken
  -- Of all productions, only those of the two tables name a table line.
  obtain ⟨hmem, hkind⟩ := mem_leaves.mp htoken
  have hnoise : (Block.leaf token).isNoise = false := by rw [Block.isNoise, hkind]; rfl
  have hkey := key_mem_production h hmem hnoise
  rw [Block.key, hkind] at hkey
  cases rule with
  | dataTable | examples => cases htable
  | custom name => cases hkey
  | _ => exact absurd hkey (by decide)

end Body

mutual

/-- The tables of a block hold its table lines, in the order of the
walk. -/
theorem Block.flatten_tables : {block : Block} → block.Grammatical →
    block.key ≠ .token .tableRow →
    block.tables.flatten = block.events.filterMap Event.tableLine?
  | .leaf token, _, hkey => by
    have hkind : token.kind ≠ .tableRow := fun hkind => hkey (congrArg Key.token hkind)
    simp [Block.tables, Block.events, Event.tableLine?, hkind]
  | .scope rule body, h, _ => by
    rw [Body.filterMap_events_scope, Block.tables]
    cases hrule : rule.isTable with
    | true =>
      obtain ⟨htables, hleaves⟩ := Body.tables_of_isTable h hrule
      rw [htables, hleaves]
      simp
    | false =>
      rw [← Body.flatten_tables h.2 (Body.leaves_of_not_isTable h hrule)]
      simp

/-- The tables of a body hold its table lines, where none stands outside
all tables. -/
theorem Body.flatten_tables : {body : Body} → body.Grammatical →
    Body.leaves .tableRow body = [] → body.tables.flatten = body.tableLines
  | [], _, _ => rfl
  | block :: rest, h, hleaves => by
    obtain ⟨hkey, hrest⟩ : block.key ≠ .token .tableRow ∧ Body.leaves .tableRow rest = [] := by
      cases block with
      | scope rule inside => exact ⟨Key.noConfusion, hleaves⟩
      | leaf token =>
        rw [Body.leaves_leaf] at hleaves
        split at hleaves
        · cases hleaves
        · next hkind => exact ⟨fun hkey => hkind (Key.token.inj hkey), hleaves⟩
    rw [Body.tables, List.flatten_append, Block.flatten_tables h.1 hkey,
      Body.flatten_tables h.2 hrest, Body.tableLines, Body.tableLines, Body.events,
      List.filterMap_append]

end

namespace Body

variable {body : Body}

/-- **The tables of a document hold its table lines**, in the order of the
walk: the first odd line is the first that a reader meets. -/
theorem IsDocument.flatten_tables (h : body.IsDocument) :
    body.tables.flatten = body.tableLines := by
  obtain ⟨inside, hcontent⟩ := matches_block.mp h.1
  have hleaves : leaves .tableRow body = [] := by
    rw [leaves_of_content rfl hcontent]
    rfl
  exact Body.flatten_tables h.2 hleaves

end Body

end FeatureTree
