import FeatureTree.Proofs.RefusalPlace
/-!
# Scenarios told as outlines

A definition with scenarios can be told with outlines in their place: the
same insides, where the line that titles a scenario and the line that
titles an outline stand for each other (`Body.outlined`). Either way the
definition holds the same, but for the examples that an outline has and a
scenario has not, and either way it is refused at the same event and for
the same, but for the title that is missed (`toldAsOutline`).
-/

namespace FeatureTree

/-! ## Telling scenarios as outlines -/

/-- The kinds that title a scenario and an outline stand for each other. -/
def TokenKind.swapTitle : TokenKind → TokenKind
  | .scenarioLine => .outlineLine
  | .outlineLine => .scenarioLine
  | kind => kind

/-- A line of a scenario, told in an outline. -/
def Token.swapTitle (line : Token) : Token :=
  { line with kind := line.kind.swapTitle }

/-- A block of a scenario, told in an outline; what stands inside other
rules stays. -/
def Block.swapTitle : Block → Block
  | .leaf line => .leaf line.swapTitle
  | .scope rule inside => .scope rule inside

/-- **The inside of a scenario, told in an outline.** -/
def Body.swapTitles (body : Body) : Body :=
  body.map Block.swapTitle

/-- A block of a definition, with an outline in the place of a scenario. -/
def Block.outlined : Block → Block
  | .scope .scenario inside => .scope .outline (Body.swapTitles inside)
  | block => block

/-- **The inside of a definition, its scenarios told as outlines.** -/
def Body.outlined (body : Body) : Body :=
  body.map Block.outlined

/-- Another rule than a scenario stays. -/
theorem Block.outlined_of_ne {rule : Rule} {inside : Body} (h : rule ≠ .scenario) :
    (Block.scope rule inside).outlined = .scope rule inside := by
  cases rule with
  | scenario => exact absurd rfl h
  | _ => rfl

theorem TokenKind.swapTitle_eq_iff {kind kind' : TokenKind} :
    kind.swapTitle = kind' ↔ kind = kind'.swapTitle := by
  cases kind <;> cases kind' <;> decide

namespace Body

variable {kind : TokenKind} {rule : Rule} {body : Body}

/-- Lines of a kind were lines of the other. -/
theorem leaves_swapTitles :
    leaves kind body.swapTitles = (leaves kind.swapTitle body).map Token.swapTitle := by
  induction body with
  | nil => rfl
  | cons block rest ih =>
    cases block with
    | scope rule inside => exact ih
    | leaf line =>
      change leaves kind (.leaf line.swapTitle :: swapTitles rest) = _
      rw [leaves_leaf, leaves_leaf, ih]
      have hswap : line.swapTitle.kind = kind ↔ line.kind = kind.swapTitle :=
        TokenKind.swapTitle_eq_iff
      by_cases hkind : line.kind = kind.swapTitle
      · rw [if_pos hkind, if_pos (hswap.mpr hkind), List.map_cons]
      · rw [if_neg hkind, if_neg fun h => hkind (hswap.mp h)]

/-- The rules inside stay. -/
theorem bodies_swapTitles : bodies rule body.swapTitles = bodies rule body := by
  induction body with
  | nil => rfl
  | cons block rest ih =>
    cases block with
    | leaf line => exact ih
    | scope rule' inside =>
      change bodies rule (.scope rule' inside :: swapTitles rest) = _
      rw [bodies_scope, bodies_scope, ih]

/-- The title is found in an outline where it was in the scenario. -/
theorem line?_swapTitles :
    line? .outlineLine body.swapTitles = (line? .scenarioLine body).map Token.swapTitle := by
  rw [line?, leaves_swapTitles, List.head?_map]
  rfl

/-- So an outline holds what the scenario does, and examples. -/
theorem outline?_swapTitles (tags : List Tag) :
    outline? tags body.swapTitles = (scenario? tags body).map fun scenario =>
      { toScenario := scenario
        examples := (bodies .examples body.swapTitles).filterMap examples? } := by
  have hdescription : description body.swapTitles = description body := by
    rw [description, bodies_swapTitles, description]
  have hsteps : steps body.swapTitles = steps body := by
    rw [steps, bodies_swapTitles, steps]
  rw [outline?, scenario?, titled?, titled?, line?_swapTitles, hdescription, hsteps]
  cases line? .scenarioLine body <;> rfl

/-- **A definition without outlines, told with outlines**, has those in
the place of its scenarios, and everything else as it was. -/
theorem bodies_outlined (hnone : bodies .outline body = []) :
    bodies rule body.outlined =
      if rule = .outline then (bodies .scenario body).map swapTitles
      else if rule = .scenario then [] else bodies rule body := by
  induction body with
  | nil => simp [outlined]
  | cons block rest ih =>
    cases block with
    | leaf line => exact ih hnone
    | scope rule' inside =>
      have houtline : rule' ≠ .outline := by
        rintro rfl
        cases hnone
      rw [bodies_scope, if_neg houtline] at hnone
      by_cases hrule' : rule' = .scenario
      · subst hrule'
        change bodies rule (.scope .outline (swapTitles inside) :: outlined rest) = _
        rw [bodies_scope, ih hnone]
        cases rule <;> simp
      · change bodies rule ((Block.scope rule' inside).outlined :: outlined rest) = _
        rw [Block.outlined_of_ne hrule', bodies_scope, ih hnone]
        by_cases hrule : rule' = rule
        · subst hrule
          simp [houtline, hrule']
        · simp [hrule, hrule']

theorem bodies_outline_outlined {first : Body} {rest : List Body}
    (hnone : bodies .outline body = []) (hfirst : bodies .scenario body = first :: rest) :
    bodies .outline body.outlined = first.swapTitles :: rest.map swapTitles := by
  rw [bodies_outlined hnone, if_pos rfl, hfirst, List.map_cons]

/-- Its tags are what they were. -/
theorem tags_outlined (hnone : bodies .outline body = []) : tags body.outlined = tags body := by
  rw [tags, tags, bodies_outlined hnone]
  rfl

/-- Inside, an outline fails as the scenario does: no line is ever
refused. -/
theorem failAlike_swapTitles (body : Body) : FailAlike body.events body.swapTitles.events := by
  refine failAlike (List.forall₂_map_right_iff.mpr (List.forall₂_same.mpr fun block _ => ?_))
  cases block with
  | leaf line => exact Block.failAlike_leaf line line.swapTitle
  | scope rule inside => exact Block.failAlike_refl _

/-- **So does the inside of a definition.** -/
theorem failAlike_outlined (body : Body) : FailAlike body.events body.outlined.events := by
  refine failAlike (List.forall₂_map_right_iff.mpr (List.forall₂_same.mpr fun block _ => ?_))
  cases block with
  | leaf line => exact Block.failAlike_refl _
  | scope rule inside =>
    by_cases hrule : rule = .scenario
    · subst hrule
      exact Block.failAlike_scope (fun _ => rfl) (fun _ => rfl) (failAlike_swapTitles inside)
    · rw [Block.outlined_of_ne hrule]
      exact Block.failAlike_refl _

/-! ## The first scenario -/

section

variable {first : Body} {rest : List Body}

/-- A definition is read off its first scenario, -/
theorem definition?_of_scenario (hfirst : bodies .scenario body = first :: rest) :
    definition? body = (scenario? (tags body) first).map .scenario ∧
      refusal? .definition body = missing? .scenario .scenarioLine first := by
  constructor
  · rw [definition?, hfirst]
  · rw [refusal?, hfirst]

/-- **and told with outlines, off the same one.** -/
theorem definition?_outlined (hnone : bodies .outline body = [])
    (hfirst : bodies .scenario body = first :: rest) :
    definition? body.outlined = (outline? (tags body) first.swapTitles).map .outline ∧
      refusal? .definition body.outlined = missing? .outline .outlineLine first.swapTitles := by
  have hscenarios : bodies .scenario body.outlined = [] := bodies_outlined hnone
  have houtlines := bodies_outline_outlined hnone hfirst
  constructor
  · rw [definition?, hscenarios, houtlines, tags_outlined hnone]
  · rw [refusal?, hscenarios, houtlines]

/-- A definition block makes what its inside reads as. -/
theorem makes_definition {d : ScenarioDefinition} (haccepted : error? body = none)
    (hrefusal : refusal? .definition body = none) (hread : definition? body = some d) :
    (Block.scope .definition body).Makes (.definition d) :=
  Block.makes_iff.mpr ⟨error?_scope haccepted hrefusal,
    fun _ => congrArg (Option.map Child.definition) hread⟩

end

end Body

/-! ## What both come to -/

/-- **What a definition with this inside comes to**, told with scenarios
and told with outlines, whatever was taken in before. -/
inductive ToldAsOutline (body : Body) : Prop where
  /-- Either way it makes a definition. Both have the same title line,
  description, tags and steps, and the outline has all examples directly in
  the first of the outlines, in order. -/
  | made {d d' : ScenarioDefinition} {outline : Body}
      (hmade : (Block.scope .definition body).Makes (.definition d))
      (hmade' : (Block.scope .definition body.outlined).Makes (.definition d'))
      (hshared : d'.shared = d.shared) (hscenario : d.isOutline = false)
      (houtline : d'.isOutline = true) (hnone : d.examples = [])
      (hfirst : (Body.bodies .outline body.outlined).head? = some outline)
      (hexamples : List.Forall₂
        (fun inside table => (Block.scope .examples inside).Makes (.examples table))
        (Body.bodies .examples outline) d'.examples) : ToldAsOutline body
  /-- Something inside is refused, at the same event and with the same
  error. -/
  | inside {place : Nat} {error : AssemblyError} (hinside : place < body.events.length + 1)
      (hrefused : RefusedAt (Block.scope .definition body).events place error)
      (hrefused' : RefusedAt (Block.scope .definition body.outlined).events place error) :
      ToldAsOutline body
  /-- Its own exit is refused, for the line that titles a scenario or an
  outline. -/
  | atExit
      (hrefused : RefusedAt (Block.scope .definition body).events (body.events.length + 1)
        (.contract (.missingToken .scenario .scenarioLine)))
      (hrefused' : RefusedAt (Block.scope .definition body.outlined).events
        (body.events.length + 1) (.contract (.missingToken .outline .outlineLine))) :
      ToldAsOutline body

section

variable {body first : Body} {rest : List Body} (hnone : Body.bodies .outline body = [])
  (hfirst : Body.bodies .scenario body = first :: rest) (haccepted : body.error? = none)
  (haccepted' : body.outlined.error? = none)
include hnone hfirst haccepted haccepted'

/-- Where the first scenario has no title, neither has the outline. -/
theorem toldAsOutline_of_no_title (hline : first.line? .scenarioLine = none) :
    ToldAsOutline body := by
  obtain ⟨-, hrefusal⟩ := Body.definition?_of_scenario hfirst
  obtain ⟨-, hrefusal'⟩ := Body.definition?_outlined hnone hfirst
  rw [Body.missing?, hline] at hrefusal
  rw [Body.missing?, Body.line?_swapTitles, hline] at hrefusal'
  have hexit' := Body.refusedAt_exit haccepted' hrefusal'
  rw [← body.failAlike_outlined.length] at hexit'
  exact .atExit (Body.refusedAt_exit haccepted hrefusal) hexit'

/-- Where it has one, both are made. -/
theorem toldAsOutline_of_title {line : Token} (hline : first.line? .scenarioLine = some line) :
    ToldAsOutline body := by
  obtain ⟨hread, hrefusal⟩ := Body.definition?_of_scenario hfirst
  obtain ⟨hread', hrefusal'⟩ := Body.definition?_outlined hnone hfirst
  obtain ⟨scenario, hscenario⟩ : ∃ scenario, first.scenario? body.tags = some scenario :=
    ⟨_, by rw [Body.scenario?, Body.titled?, hline]; rfl⟩
  rw [Body.missing?, hline] at hrefusal
  rw [Body.missing?, Body.line?_swapTitles, hline] at hrefusal'
  rw [hscenario] at hread
  rw [Body.outline?_swapTitles, hscenario] at hread'
  have houtlines := Body.bodies_outline_outlined hnone hfirst
  -- The examples are made where they stand, which is inside the outline.
  have hmem : .scope .outline first.swapTitles ∈ body.outlined :=
    Body.mem_bodies.mp (houtlines ▸ List.mem_cons_self)
  have hexamples := Body.forall₂_makes .examples .examples
    (Body.error?_inside_of_mem haccepted' hmem) fun _ _ => rfl
  refine .made (Body.makes_definition haccepted hrefusal hread)
    (Body.makes_definition haccepted' hrefusal' hread') rfl rfl rfl rfl
    (congrArg List.head? houtlines) ?_
  exact hexamples.imp fun _ _ h => h.2

end

/-- **A scenario and an outline are made alike.** -/
theorem toldAsOutline {body : Body} (hscenario : ∃ inside, .scope .scenario inside ∈ body)
    (houtline : ∀ inside, .scope .outline inside ∉ body) : ToldAsOutline body := by
  have hnone : Body.bodies .outline body = [] := Body.bodies_eq_nil_iff.mpr houtline
  obtain ⟨inside, hinside⟩ := hscenario
  obtain ⟨first, rest, hfirst⟩ :=
    List.exists_cons_of_ne_nil (List.ne_nil_of_mem (Body.mem_bodies.mpr hinside))
  rcases body.failAlike_outlined.refused with ⟨hbody, hbody'⟩ | ⟨place, error, hplace, hplace'⟩
  · have haccepted := Body.unrefused_iff.mp hbody
    have haccepted' := Body.unrefused_iff.mp hbody'
    cases hline : first.line? .scenarioLine with
    | none => exact toldAsOutline_of_no_title hnone hfirst haccepted haccepted' hline
    | some line => exact toldAsOutline_of_title hnone hfirst haccepted haccepted' hline
  · refine .inside ?_ (hplace.inside .definition) (hplace'.inside .definition)
    exact Nat.succ_lt_succ hplace.lt_length

/-- The inside of a definition with two scenarios. In the first there stand
the title of an outline behind its own, and an examples table; the second
is empty. -/
def pairInside : Body :=
  [.scope .tags [.leaf { kind := .tagLine, location := ⟨1, 1⟩, spans := [⟨3, "@slow"⟩] }],
    .scope .scenario
      [.leaf { kind := .scenarioLine, location := ⟨2, 3⟩, keyword := "Scenario", text := "Sums" },
        .leaf { kind := .outlineLine, location := ⟨3, 3⟩, keyword := "Outline", text := "Terms" },
        .scope .examples [.leaf { kind := .examplesLine, location := ⟨4, 5⟩, text := "Small" }]],
    .scope .scenario []]

/-- The outline that is made of it. -/
def pairOutline : ScenarioOutline where
  location := ⟨2, 3⟩
  keyword := "Scenario"
  name := "Sums"
  description := ""
  tags := [⟨⟨1, 3⟩, "@slow"⟩]
  steps := []
  examples :=
    [{ location := ⟨4, 5⟩, keyword := "", name := "Small", description := "", tags := []
       rows := [] }]

/-- The scenario that is made of it is this outline without the
examples. -/
theorem toldAsOutline_pairInside :
    (∃ inside, .scope .scenario inside ∈ pairInside) ∧
      (∀ inside, .scope .outline inside ∉ pairInside) ∧ ToldAsOutline pairInside ∧
      (Block.scope .definition pairInside).Makes (.definition (.scenario pairOutline.toScenario)) ∧
      (Block.scope .definition pairInside.outlined).Makes (.definition (.outline pairOutline)) := by
  have hscenario : ∃ inside, .scope .scenario inside ∈ pairInside :=
    ⟨[], by simp [pairInside]⟩
  have houtline : ∀ inside, .scope .outline inside ∉ pairInside := by simp [pairInside]
  exact ⟨hscenario, houtline, toldAsOutline hscenario houtline,
    Block.makes_iff.mpr ⟨rfl, fun _ => rfl⟩, Block.makes_iff.mpr ⟨rfl, fun _ => rfl⟩⟩

end FeatureTree
