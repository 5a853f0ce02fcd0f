import FeatureTree.Proofs.Retelling
/-!
# What is read of a line

A line carries more than is read of it. Each kind has the fields that are
read of its lines (`TokenKind.fields`), and two walks whose lines agree on
these come to the same outcome, errors and their places included
(`assemble_readsAs`): told without all that is not read (`bareTelling`),
the two are one walk, and telling a walk without that changes nothing.
-/

namespace FeatureTree

/-! ## Lines that read alike -/

/-- What a line carries beside its kind; a place has a line number and a
column. -/
inductive Token.Field where
  | line
  | column
  | keyword
  | text
  | language
  | spans
  deriving DecidableEq

/-- **The fields that are read of a line**, by its kind. A tag stands at
the column of its span, so of a tag line's own place only the line number
is read. -/
def TokenKind.fields : TokenKind → List Token.Field
  | .featureLine => [.line, .column, .keyword, .text, .language]
  | .backgroundLine | .scenarioLine | .outlineLine | .examplesLine | .stepLine =>
    [.line, .column, .keyword, .text]
  | .docStringSeparator | .other => [.line, .column, .text]
  | .tableRow => [.line, .column, .spans]
  | .tagLine => [.line, .spans]
  | .endOfFile | .empty | .comment | .language => []

namespace Token

/-- Two lines have the same in a field. -/
def AgreeOn (t t' : Token) : Field → Prop
  | .line => t.location.line = t'.location.line
  | .column => t.location.column = t'.location.column
  | .keyword => t.keyword = t'.keyword
  | .text => t.text = t'.text
  | .language => t.language = t'.language
  | .spans => t.spans = t'.spans

/-- **Lines that read alike**: lines of one kind that agree on all that is
read of it. -/
structure ReadsAs (t t' : Token) : Prop where
  kind : t.kind = t'.kind
  fields : ∀ field ∈ t.kind.fields, t.AgreeOn t' field

instance (t t' : Token) : DecidablePred (t.AgreeOn t')
  | .line | .column | .keyword | .text | .language | .spans => inferInstanceAs (Decidable (_ = _))

instance : DecidableRel ReadsAs := fun t t' =>
  decidable_of_iff (t.kind = t'.kind ∧ ∀ field ∈ t.kind.fields, t.AgreeOn t' field)
    ⟨fun h => ⟨h.1, h.2⟩, fun h => ⟨h.kind, h.fields⟩⟩

/-- A line without all fields but those given. -/
def keep (t : Token) (fields : List Field) : Token where
  kind := t.kind
  location :=
    { line := if .line ∈ fields then t.location.line else 0
      column := if .column ∈ fields then t.location.column else 0 }
  keyword := if .keyword ∈ fields then t.keyword else ""
  text := if .text ∈ fields then t.text else ""
  language := if .language ∈ fields then t.language else none
  spans := if .spans ∈ fields then t.spans else []

/-- Lines that agree on some fields are the same without the others. -/
theorem keep_congr {t t' : Token} {fields : List Field} (hkind : t.kind = t'.kind)
    (hfields : ∀ field ∈ fields, t.AgreeOn t' field) : t.keep fields = t'.keep fields := by
  have hfield {α : Type} (field : Field) {x y z : α} (h : t.AgreeOn t' field → x = y) :
      (if field ∈ fields then x else z) = if field ∈ fields then y else z :=
    ite_congr rfl (fun hmem => h (hfields field hmem)) fun _ => rfl
  simp only [keep, hkind, mk.injEq, Location.mk.injEq, true_and]
  exact ⟨⟨hfield .line id, hfield .column id⟩, hfield .keyword id, hfield .text id,
    hfield .language id, hfield .spans id⟩

/-- A line without what is not read of it. -/
def bare (t : Token) : Token :=
  t.keep t.kind.fields

theorem ReadsAs.bare_eq {t t' : Token} (h : t.ReadsAs t') : t.bare = t'.bare := by
  rw [bare, bare, ← h.kind]
  exact keep_congr h.kind h.fields

/-- Of a title its place, keyword and text are read. -/
theorem titled_bare (t : Token) (h : t.kind.isTitle = true) (description : String) :
    t.bare.titled description = t.titled description := by
  have hread : .line ∈ t.kind.fields ∧ .column ∈ t.kind.fields ∧ .keyword ∈ t.kind.fields ∧
      .text ∈ t.kind.fields := by
    generalize t.kind = kind at h
    cases kind <;> first | decide | cases h
  obtain ⟨hline, hcolumn, hkeyword, htext⟩ := hread
  simp [bare, keep, titled, hline, hcolumn, hkeyword, htext]

end Token

/-- Events that read alike: the same rule entered or exited, or lines that
read alike. -/
inductive Event.ReadsAs : Event → Event → Prop where
  | enter (rule : Rule) : ReadsAs (.enter rule) (.enter rule)
  | leaf {t t' : Token} (h : t.ReadsAs t') : ReadsAs (.leaf t) (.leaf t')
  | exit (rule : Rule) : ReadsAs (.exit rule) (.exit rule)

instance : DecidableRel Event.ReadsAs
  | .enter rule, .enter rule' =>
    decidable_of_iff (rule = rule') ⟨fun h => h ▸ .enter rule, fun | .enter _ => rfl⟩
  | .leaf t, .leaf t' => decidable_of_iff (t.ReadsAs t') ⟨.leaf, fun | .leaf h => h⟩
  | .exit rule, .exit rule' =>
    decidable_of_iff (rule = rule') ⟨fun h => h ▸ .exit rule, fun | .exit _ => rfl⟩
  | .enter _, .leaf _ | .enter _, .exit _ | .leaf _, .enter _ | .leaf _, .exit _
  | .exit _, .enter _ | .exit _, .leaf _ => .isFalse nofun

/-! ## Telling only what is read -/

/-- A walk told without what is not read of its lines. -/
def bareTelling : Retelling where
  toRelabelling := .unchanged
  language := id
  name := id
  retell := Token.bare
  name_injective := Function.injective_id
  kind_retell _ := rfl
  title_retell t htitle description := t.titled_bare htitle description
  language_retell t hkind := by simp [Token.bare, Token.keep, hkind, TokenKind.fields]
  opening_retell t hkind := by
    simp [Token.bare, Token.keep, hkind, TokenKind.fields]
  docLine_retell t hkind := by
    simp [Token.bare, Token.keep, hkind, TokenKind.fields, Token.docLine]
  row_retell t hkind := by
    simp [Token.bare, Token.keep, hkind, TokenKind.fields, Token.row, Token.locate]
  tags_retell t hkind := by
    simp [Token.bare, Token.keep, hkind, TokenKind.fields, Token.tags, Token.locate,
      Location.atColumn]

/-- Nothing is lost by it. -/
theorem outcome_bareTelling (told : Outcome) : bareTelling.outcome told = told := by
  have herror : bareTelling.error = id := by
    funext error
    cases error with
    | unevenTable location => rfl
    | contract violation =>
      exact congrArg AssemblyError.contract (congrFun (bareTelling.violation_of_name rfl) violation)
  rw [bareTelling.outcome_of_unchanged rfl rfl, herror]
  cases told <;> rfl

theorem Event.ReadsAs.bare_eq {event event' : Event} (h : event.ReadsAs event') :
    bareTelling.event event = bareTelling.event event' := by
  cases h with
  | enter rule | exit rule => rfl
  | leaf h => exact congrArg Event.leaf h.bare_eq

/-- **Only the fields that are read matter.** Two walks, well-nested or
not, that enter and exit the same rules and whose lines read alike one by
one come to the same outcome under all settings: the same error at the
same place, or the same feature. -/
theorem assemble_readsAs (settings : Settings) {events events' : List Event}
    (h : List.Forall₂ Event.ReadsAs events events') :
    assemble settings events = assemble settings events' := by
  have hbare : events.map bareTelling.event = events'.map bareTelling.event := by
    induction h with
    | nil => rfl
    | cons hevent _ ih => rw [List.map_cons, List.map_cons, hevent.bare_eq, ih]
  calc assemble settings events
      = assemble settings (events.map bareTelling.event) := by
        rw [← outcome_bareTelling (assemble settings events)]
        exact (bareTelling.assemble_retold settings events).symm
    _ = assemble settings (events'.map bareTelling.event) := by rw [hbare]
    _ = assemble settings events' := by
        rw [← outcome_bareTelling (assemble settings events')]
        exact bareTelling.assemble_retold settings events'

/-- A walk to an uneven table, with something in every field of its
lines. -/
def wordyWalk : List Event :=
  let line (kind : TokenKind) (location : Location) (spans : List Span) : Event :=
    .leaf { kind, location, keyword := "a", text := "b", language := some "c", spans }
  [line .comment ⟨1, 9⟩ [⟨1, "d"⟩], .enter .feature, .enter .featureHeader, .enter .tags,
    line .tagLine ⟨2, 9⟩ [⟨3, "@slow"⟩], .exit .tags, line .featureLine ⟨3, 1⟩ [⟨2, "e"⟩],
    .exit .featureHeader, .enter .dataTable, line .tableRow ⟨4, 5⟩ [⟨7, "1"⟩],
    line .tableRow ⟨5, 5⟩ [], .exit .dataTable]

/-- The same walk without the fields that nobody reads. -/
def terseWalk : List Event :=
  [.leaf { kind := .comment, location := ⟨0, 0⟩ }, .enter .feature, .enter .featureHeader,
    .enter .tags, .leaf { kind := .tagLine, location := ⟨2, 0⟩, spans := [⟨3, "@slow"⟩] },
    .exit .tags,
    .leaf { kind := .featureLine, location := ⟨3, 1⟩, keyword := "a", text := "b",
            language := some "c" },
    .exit .featureHeader, .enter .dataTable,
    .leaf { kind := .tableRow, location := ⟨4, 5⟩, spans := [⟨7, "1"⟩] },
    .leaf { kind := .tableRow, location := ⟨5, 5⟩ }, .exit .dataTable]

/-- Both are refused at the second row. -/
theorem assemble_wordyWalk :
    List.Forall₂ Event.ReadsAs wordyWalk terseWalk ∧
      assemble {} wordyWalk = assemble {} terseWalk ∧
      assemble {} terseWalk = .error (.unevenTable ⟨5, 5⟩) := by
  have hreads : List.Forall₂ Event.ReadsAs wordyWalk terseWalk := by decide
  exact ⟨hreads, assemble_readsAs {} hreads, rfl⟩

end FeatureTree
