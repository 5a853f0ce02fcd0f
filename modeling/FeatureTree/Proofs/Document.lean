import FeatureTree.Proofs.Evaluation
import FeatureTree.Proofs.Tables
/-!
# What a document comes to

Every rule of a document finds the line it is made from, so the only
thing a document can be refused for is a table whose lines differ in
their number of spans (`refusal?_of_grammatical`). `assemble_document`
says which: the run of a document fails at the first odd line of its
first uneven table, and gives a feature where every table is even.
-/

namespace FeatureTree

namespace Body

variable {body : Body} {kind : TokenKind} {rule : Rule}

/-! ## What a document can be refused for -/

/-- The line of a rule, where its blocks are known. -/
theorem line?_of_content (before : Body) {after : Body} {line : Token}
    (hcontent : body.content = before ++ .leaf line :: after) (hkind : line.kind = kind)
    (hnoise : kind.isNoise = false) (hbefore : leaves kind before = []) :
    line? kind body = some line := by
  rw [line?, leaves_of_content hnoise hcontent, leaves_append, hbefore, leaves_leaf,
    if_pos hkind]
  rfl

theorem missing?_of_line? {line : Token} (h : line? kind body = some line) :
    missing? rule kind body = none := by
  rw [missing?, h]

/-- The header of a feature has the feature's line. -/
theorem exists_line?_header (h : (Block.scope .feature body).Grammatical) :
    ∃ line, line? .featureLine (header body) = some line := by
  obtain ⟨inside, _, _, hcontent⟩ := of_matches_feature h.1
  have hbodies : bodies .featureHeader body = [inside] := by
    rw [bodies_of_content hcontent]
    simp
  have hinside : (Block.scope .featureHeader inside).Grammatical :=
    h.2.of_bodies_eq hbodies
  obtain ⟨_, line, _, hline, hheader⟩ := of_matches_featureHeader hinside.1
  rw [header, hbodies]
  exact ⟨line, line?_of_content _ hheader hline rfl leaves_map_scope⟩

/-- The one inside of a definition has the line of its rule. -/
theorem refusal?_definition (h : (Block.scope .definition body).Grammatical) :
    refusal? .definition body = none := by
  -- The line is asked of the group inside, so that group's own production answers for it.
  obtain ⟨tags, inside, hcontent | hcontent⟩ := of_matches_definition h.1
  · have hscenario : bodies .scenario body = [inside] := by
      rw [bodies_of_content hcontent]
      simp
    have hinside : (Block.scope .scenario inside).Grammatical :=
      h.2.of_bodies_eq hscenario
    obtain ⟨line, _, _, hline, hshape⟩ := of_matches_steps hinside.1
    rw [refusal?, hscenario]
    exact missing?_of_line? (line?_of_content [] hshape hline rfl rfl)
  · have hscenario : bodies .scenario body = [] := by
      rw [bodies_of_content hcontent]
      simp
    have houtline : bodies .outline body = [inside] := by
      rw [bodies_of_content hcontent]
      simp
    have hinside : (Block.scope .outline inside).Grammatical :=
      h.2.of_bodies_eq houtline
    obtain ⟨line, _, _, _, hline, hshape⟩ := of_matches_outline hinside.1
    rw [refusal?, hscenario, houtline]
    exact missing?_of_line? (line?_of_content [] hshape hline rfl rfl)

/-- **Only tables are at fault.** The exit of a rule that follows its
production is refused for nothing but odd lines of its own table. -/
theorem refusal?_of_grammatical (h : (Block.scope rule body).Grammatical) :
    refusal? rule body = if rule.isTable then uneven? body else none := by
  cases rule with
  | step =>
    obtain ⟨line, hline, hcontent⟩ := of_matches_step h.1
    obtain ⟨after, hafter⟩ : ∃ after, body.content = [] ++ .leaf line :: after := by
      obtain hcontent | ⟨inside, hcontent | hcontent⟩ := hcontent
      all_goals exact ⟨_, hcontent⟩
    exact missing?_of_line? (line?_of_content [] hafter hline rfl rfl)
  | docString =>
    obtain ⟨opening, _, _, hopening, _, _, hcontent⟩ := of_matches_docString h.1
    exact missing?_of_line? (line?_of_content [] hcontent hopening rfl rfl)
  | background =>
    obtain ⟨line, _, _, hline, hcontent⟩ := of_matches_steps h.1
    exact missing?_of_line? (line?_of_content [] hcontent hline rfl rfl)
  | definition => exact refusal?_definition h
  | examples =>
    obtain ⟨_, line, _, _, hline, _, hcontent⟩ := of_matches_examples h.1
    have hmissing : missing? .examples .examplesLine body = none :=
      missing?_of_line? (line?_of_content _ hcontent hline rfl leaves_map_scope)
    rw [refusal?, hmissing]
    rfl
  | feature =>
    obtain ⟨line, hline⟩ := exists_line?_header h
    exact missing?_of_line? hline
  | dataTable | root | featureHeader | scenario | outline | tags | description | custom _ => rfl

end Body

mutual

/-- The error of a grammatical block is that of its first odd line. -/
theorem Block.error?_of_grammatical : {block : Block} → block.Grammatical →
    block.error? =
      (block.tables.findSome? Body.oddLine?).map fun line => .unevenTable line.location
  | .leaf _, _ => rfl
  | .scope rule body, h => by
    have hbody := Body.error?_of_grammatical h.2
    rw [Block.error?, hbody, Body.refusal?_of_grammatical h, Block.tables, List.findSome?_append,
      Option.map_or]
    cases rule.isTable with
    | false => rfl
    | true => rw [if_pos rfl, if_pos rfl, List.findSome?_singleton, Body.uneven?]

/-- The error of a grammatical body is that of its first odd line. -/
theorem Body.error?_of_grammatical : {body : Body} → body.Grammatical →
    body.error? =
      (body.tables.findSome? Body.oddLine?).map fun line => .unevenTable line.location
  | [], _ => rfl
  | block :: rest, h => by
    rw [Body.error?, Block.error?_of_grammatical h.1, Body.error?_of_grammatical h.2, Body.tables,
      List.findSome?_append, Option.map_or]

end

namespace Body

variable {body : Body}

/-- A grammatical body is accepted when all its tables are even. -/
theorem error?_eq_none_iff (h : body.Grammatical) : body.error? = none ↔ body.Even := by
  rw [error?_of_grammatical h, Option.map_eq_none_iff, List.findSome?_eq_none_iff]
  exact forall₂_congr fun lines _ => oddLine?_eq_none_iff

/-- It is refused for its first odd line when they are not. -/
theorem exists_isFirstOdd (h : body.Grammatical) (huneven : ¬ body.Even) :
    ∃ line, body.IsFirstOdd line ∧ body.error? = some (.unevenTable line.location) := by
  have herror := error?_of_grammatical h
  cases hodd : body.tables.findSome? oddLine? with
  | none =>
    rw [hodd] at herror
    exact absurd ((error?_eq_none_iff h).mp herror) huneven
  | some line =>
    obtain ⟨before, lines, after, htables, hline, hbefore⟩ := List.findSome?_eq_some_iff.mp hodd
    -- The tables before the first uneven one have no odd line.
    obtain ⟨first, same, later, rfl, hsame, hne⟩ := oddLine?_eq_some_iff.mp hline
    have hbeforeEven : ∀ lines ∈ before, EvenLines lines :=
      fun lines hlines => oddLine?_eq_none_iff.mp (hbefore lines hlines)
    refine ⟨line, ⟨before, first, same, later, after, htables, hbeforeEven, hsame, hne⟩, ?_⟩
    rw [herror, hodd]
    rfl

/-- Outside all rules of a document stands one feature. -/
theorem IsDocument.exists_feature (h : body.IsDocument) :
    ∃ inside, bodies .feature body = [inside] ∧ (Block.scope .feature inside).Grammatical := by
  obtain ⟨inside, hcontent⟩ := matches_block.mp h.1
  have hbodies : bodies .feature body = [inside] := by
    rw [bodies_of_content hcontent]
    simp
  exact ⟨inside, hbodies, h.2.of_bodies_eq hbodies⟩

end Body

/-- **A document is refused for its tables alone.** Whatever the settings
and whatever stands in its lines, its run never breaks the contract: it
gives a feature where all tables are even, and fails at the first odd
line where they are not. -/
theorem assemble_document (settings : Settings) {body : Body} (h : body.IsDocument) :
    (∀ violation, assemble settings body.events ≠ .error (.contract violation)) ∧
    (body.Even → ∃ feature, assemble settings body.events = .ok (some feature)) ∧
    (¬ body.Even → ∃ line, body.IsFirstOdd line ∧
      assemble settings body.events = .error (.unevenTable line.location)) := by
  by_cases heven : body.Even
  · have herror : body.error? = none := (Body.error?_eq_none_iff h.2).mpr heven
    obtain ⟨inside, hbodies, hinside⟩ := h.exists_feature
    obtain ⟨line, hline⟩ := Body.exists_line?_header hinside
    obtain ⟨feature, hfeature⟩ : ∃ feature,
        inside.feature? settings.language = some feature := by
      rw [Body.feature?, hline]
      exact ⟨_, rfl⟩
    have hrun : assemble settings body.events = .ok (some feature) := by
      rw [assemble_of_accepted settings herror, hbodies, List.filterMap_cons_some hfeature]
      rfl
    refine ⟨fun violation hbroken => ?_, fun _ => ⟨feature, hrun⟩,
      fun huneven => absurd heven huneven⟩
    cases hrun.symm.trans hbroken
  · obtain ⟨line, hodd, herror⟩ := Body.exists_isFirstOdd h.2 heven
    have hrun := assemble_of_refused settings herror
    refine ⟨fun violation hbroken => ?_, fun heven' => absurd heven' heven,
      fun _ => ⟨line, hodd, hrun⟩⟩
    cases hrun.symm.trans hbroken

/-- A document with an even data table and uneven examples, and a comment
between them. -/
def unevenDocument : Body :=
  [.scope .feature
    [.scope .featureHeader
      [.scope .tags [.leaf { kind := .tagLine, location := ⟨1, 1⟩, spans := [⟨1, "@slow"⟩] }],
        .leaf { kind := .featureLine, location := ⟨2, 1⟩, keyword := "Feature", text := "Sums" }],
      .scope .definition
        [.scope .outline
          [.leaf { kind := .outlineLine, location := ⟨4, 3⟩, keyword := "Scenario Outline" },
            .scope .step
              [.leaf { kind := .stepLine, location := ⟨5, 5⟩, keyword := "Given ", text := "a" },
                .scope .dataTable
                  [.leaf { kind := .tableRow, location := ⟨6, 7⟩, spans := [⟨9, "1"⟩] }]],
            .leaf { kind := .comment, location := ⟨7, 1⟩, text := "# two rows" },
            .scope .examples
              [.leaf { kind := .examplesLine, location := ⟨8, 5⟩, keyword := "Examples" },
                .leaf { kind := .tableRow, location := ⟨9, 7⟩, spans := [⟨9, "a"⟩, ⟨13, "b"⟩] },
                .leaf { kind := .tableRow, location := ⟨10, 7⟩, spans := [⟨9, "1"⟩] }]]]],
    .leaf { kind := .endOfFile, location := ⟨11, 1⟩ }]

/-- It is refused for an odd line. -/
theorem assemble_unevenDocument :
    unevenDocument.IsDocument ∧ ¬ unevenDocument.Even ∧
      ∃ line, unevenDocument.IsFirstOdd line ∧
        assemble {} unevenDocument.events = .error (.unevenTable line.location) := by
  have hdocument : unevenDocument.IsDocument := by decide
  have huneven : ¬ unevenDocument.Even := by decide
  obtain ⟨-, -, hodd⟩ := assemble_document {} hdocument
  exact ⟨hdocument, huneven, hodd huneven⟩

end FeatureTree
