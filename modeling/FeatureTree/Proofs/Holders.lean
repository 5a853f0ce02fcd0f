import FeatureTree.Proofs.Evaluation
/-!
# Who has tags

A feature has tags, each of its definitions has, and each examples table
of an outline (`Holder`). On the other side each of them is made from a
block of its own: the header of the feature, the definition, the examples
(`Body.holder?`). A holder has the tags on the tag lines directly in the
first tags block directly in its own block (`Body.Tagged`), and no others
(`tagsOf_eq_some_iff`).
-/

namespace FeatureTree

/-- The parts of a feature that have tags, by the place of the definition
among all and of the table among those of its outline. -/
inductive Holder where
  | feature
  | definition (index : Nat)
  | examples (index table : Nat)
  deriving DecidableEq

/-! ## Tags in a feature -/

namespace Feature

/-- The tags of a holder, where the feature has it. -/
def tagsOf (f : Feature) : Holder → Option (List Tag)
  | .feature => some f.tags
  | .definition i => f.definitions[i]?.map fun d => d.shared.tags
  | .examples i j => (f.definitions[i]?.bind fun d => d.examples[j]?).map fun table => table.tags

/-- **The tags in effect for a definition are those of the feature and its
own.** -/
theorem effectiveTags_eq (f : Feature) (i : Nat) :
    f.effectiveTags i =
      ((f.tagsOf .feature).getD [] ++ (f.tagsOf (.definition i)).getD []).map Tag.name := rfl

end Feature

/-! ## Tags in a walk -/

namespace Body

/-- The outline that a definition is made from, if it is one: the first,
where there is no scenario. -/
def ownOutline? (body : Body) : Option Body :=
  match bodies .scenario body with
  | [] => (bodies .outline body).head?
  | _ :: _ => none

/-- **The inside of the block that a holder is made from**, in the inside
of a feature. -/
def holder? (body : Body) : Holder → Option Body
  | .feature => (bodies .featureHeader body).head?
  | .definition i => (bodies .definition body)[i]?
  | .examples i j =>
    ((bodies .definition body)[i]?.bind ownOutline?).bind fun outline =>
      (bodies .examples outline)[j]?

/-- **The tags of a block with this inside.** -/
inductive Tagged (body : Body) : List Tag → Prop where
  /-- Without a tags block there are none. -/
  | none (hnone : ∀ lines, .scope .tags lines ∉ body) : Tagged body []
  /-- Of the first tags block the tag lines count, line by line and on each
  line span by span. A tag is on its line, at the column of its span. -/
  | first {earlier lines later : Body} (hbody : body = earlier ++ .scope .tags lines :: later)
      (hfirst : ∀ lines, .scope .tags lines ∉ earlier) :
      Tagged body ((leaves .tagLine lines).flatMap fun line => line.spans.map fun span =>
        { location := { line := line.location.line, column := span.column }, name := span.text })

variable {body : Body} {rule : Rule} {tags : List Tag}

/-- The first block of a rule has none of that rule before it. -/
theorem exists_split_of_head? {first : Body} (h : (bodies rule body).head? = some first) :
    ∃ earlier later, body = earlier ++ .scope rule first :: later ∧ bodies rule earlier = [] := by
  rw [bodies, List.head?_filterMap] at h
  obtain ⟨earlier, block, later, rfl, hread, hearlier⟩ := List.findSome?_eq_some_iff.mp h
  cases block with
  | leaf token => cases hread
  | scope rule' inside =>
    obtain ⟨rfl, hinside⟩ := Option.ite_none_right_eq_some.mp hread
    obtain rfl := Option.some.inj hinside
    exact ⟨earlier, later, rfl, List.filterMap_eq_nil_iff.mpr hearlier⟩

/-- **A block has the tags that are read of it**, and no others. -/
theorem tagged_iff : body.Tagged tags ↔ tags = Body.tags body := by
  constructor
  · rintro (hnone | ⟨rfl, hfirst⟩)
    · rw [Body.tags, bodies_eq_nil_iff.mpr hnone]
      rfl
    · rw [Body.tags, bodies_append, bodies_eq_nil_iff.mpr hfirst, bodies_scope, if_pos rfl]
      rfl
  · rintro rfl
    cases hfirst : (bodies .tags body).head? with
    | none =>
      rw [Body.tags, hfirst]
      exact .none (bodies_eq_nil_iff.mp (List.head?_eq_none_iff.mp hfirst))
    | some lines =>
      obtain ⟨earlier, later, hbody, hnone⟩ := exists_split_of_head? hfirst
      rw [Body.tags, hfirst]
      exact .first hbody (bodies_eq_nil_iff.mp hnone)

/-! ## What is read of a holder -/

/-- **What a definition is made from**: a scenario, or else its own
outline, under the tags of its block. -/
theorem made_of_definition? {d : ScenarioDefinition} (h : definition? body = some d) :
    (∃ scenario s, ownOutline? body = none ∧ scenario? (Body.tags body) scenario = some s ∧
      d = .scenario s) ∨
    ∃ outline o, ownOutline? body = some outline ∧ outline? (Body.tags body) outline = some o ∧
      d = .outline o := by
  rw [definition?] at h
  rw [ownOutline?]
  cases hscenario : bodies .scenario body with
  | cons scenario _ =>
    rw [hscenario] at h
    obtain ⟨s, hmade, rfl⟩ := Option.map_eq_some_iff.mp h
    exact .inl ⟨scenario, s, rfl, hmade, rfl⟩
  | nil =>
    rw [hscenario] at h
    cases houtline : bodies .outline body with
    | nil =>
      rw [houtline] at h
      cases h
    | cons outline _ =>
      rw [houtline] at h
      obtain ⟨o, hmade, rfl⟩ := Option.map_eq_some_iff.mp h
      exact .inr ⟨outline, o, rfl, hmade, rfl⟩

/-- A definition has the tags of its block, -/
theorem tags_of_definition? {d : ScenarioDefinition} (h : definition? body = some d) :
    d.shared.tags = Body.tags body := by
  obtain ⟨_, s, -, hmade, rfl⟩ | ⟨_, o, -, hmade, rfl⟩ := made_of_definition? h
  · obtain ⟨title, -, rfl⟩ := Option.map_eq_some_iff.mp hmade
    rfl
  · obtain ⟨title, -, rfl⟩ := Option.map_eq_some_iff.mp hmade
    rfl

/-- and the examples of its own outline. -/
theorem examples_of_definition? {d : ScenarioDefinition} (h : definition? body = some d) :
    d.examples = ((ownOutline? body).map fun outline =>
      (bodies .examples outline).filterMap examples?).getD [] := by
  obtain ⟨_, s, hnone, -, rfl⟩ | ⟨outline, o, hsome, hmade, rfl⟩ := made_of_definition? h
  · rw [hnone]
    rfl
  · obtain ⟨title, -, rfl⟩ := Option.map_eq_some_iff.mp hmade
    rw [hsome]
    rfl

/-- An examples table has the tags of its block. -/
theorem tags_of_examples? {table : ExamplesTable} (h : examples? body = some table) :
    table.tags = Body.tags body := by
  obtain ⟨title, -, rfl⟩ := Option.map_eq_some_iff.mp h
  rfl

/-- Its own outline is inside a definition. -/
theorem mem_of_ownOutline? {outline : Body} (h : ownOutline? body = some outline) :
    .scope .outline outline ∈ body := by
  rw [ownOutline?] at h
  cases hscenario : bodies .scenario body with
  | cons scenario _ =>
    rw [hscenario] at h
    cases h
  | nil =>
    rw [hscenario] at h
    exact mem_bodies.mp (List.mem_of_head? h)

/-- A feature is read off a header. -/
theorem exists_header {fallback : String} {f : Feature} (h : feature? fallback body = some f) :
    (bodies .featureHeader body).head? = some (header body) := by
  obtain ⟨line, hline, -⟩ := Option.map_eq_some_iff.mp h
  rw [header] at hline ⊢
  cases hheaders : bodies .featureHeader body with
  | nil =>
    rw [hheaders] at hline
    cases hline
  | cons first rest => rfl

end Body

/-! ## Holders and their blocks -/

/-- Lists side by side end at the same place, and up to there stand related
elements. -/
theorem getElem?_of_forall₂ {α β : Type _} {related : α → β → Prop} {xs : List α} {ys : List β}
    (h : List.Forall₂ related xs ys) (i : Nat) :
    (xs[i]? = none ∧ ys[i]? = none) ∨
      ∃ x y, xs[i]? = some x ∧ ys[i]? = some y ∧ related x y := by
  induction h generalizing i with
  | nil => exact .inl ⟨rfl, rfl⟩
  | cons hxy _ ih =>
    cases i with
    | zero => exact .inr ⟨_, _, rfl, rfl, hxy⟩
    | succ i => exact ih i

section

variable {fallback : String} {body : Body} {f : Feature} (haccepted : body.error? = none)
  (hread : body.feature? fallback = some f)
include haccepted hread

/-- The definitions of a feature are read off the definition blocks, one
each. -/
theorem definitions_forall₂ :
    List.Forall₂ (fun inside d => inside.error? = none ∧ Body.definition? inside = some d)
      (Body.bodies .definition body) f.definitions := by
  obtain ⟨line, -, rfl⟩ := Option.map_eq_some_iff.mp hread
  have hmakes := Body.forall₂_makes .definition .definition haccepted fun _ _ => rfl
  refine hmakes.imp fun inside d hmade => ⟨?_, hmade.1⟩
  exact error?_inside (Block.makes_iff.mp hmade.2).1

/-- **A holder has the tags that are read of its block.** -/
theorem tagsOf_eq (h : Holder) : f.tagsOf h = (body.holder? h).map Body.tags := by
  cases h with
  | feature =>
    rw [Body.holder?, Body.exists_header hread]
    obtain ⟨line, -, rfl⟩ := Option.map_eq_some_iff.mp hread
    rfl
  | definition i =>
    rw [Feature.tagsOf, Body.holder?]
    obtain ⟨hblock, hdefinition⟩ | ⟨inside, d, hblock, hdefinition, -, hmade⟩ :=
      getElem?_of_forall₂ (definitions_forall₂ haccepted hread) i
    · rw [hblock, hdefinition]
      rfl
    · rw [hblock, hdefinition, Option.map_some, Option.map_some, Body.tags_of_definition? hmade]
  | examples i j =>
    rw [Feature.tagsOf, Body.holder?]
    obtain ⟨hblock, hdefinition⟩ | ⟨inside, d, hblock, hdefinition, hinside, hmade⟩ :=
      getElem?_of_forall₂ (definitions_forall₂ haccepted hread) i
    · rw [hblock, hdefinition]
      rfl
    · rw [hblock, hdefinition, Option.bind_some, Option.bind_some,
        Body.examples_of_definition? hmade]
      cases houtline : Body.ownOutline? inside with
      | none => rfl
      | some outline =>
        have haccepted' := Body.error?_inside_of_mem hinside (Body.mem_of_ownOutline? houtline)
        have htables := Body.forall₂_makes .examples .examples haccepted' fun _ _ => rfl
        rw [Option.map_some, Option.getD_some, Option.bind_some]
        obtain ⟨hblock', htable⟩ | ⟨inside', table, hblock', htable, hmade', -⟩ :=
          getElem?_of_forall₂ htables j
        · rw [hblock', htable]
          rfl
        · rw [hblock', htable, Option.map_some, Option.map_some, Body.tags_of_examples? hmade']

/-- **What a holder has is what stands in its own block**, and no other
holder there is. -/
theorem tagsOf_eq_some_iff (h : Holder) (tags : List Tag) :
    f.tagsOf h = some tags ↔ ∃ inside, body.holder? h = some inside ∧ inside.Tagged tags := by
  rw [tagsOf_eq haccepted hread, Option.map_eq_some_iff]
  exact exists_congr fun inside => and_congr_right fun _ => by rw [Body.tagged_iff, eq_comm]

end

end FeatureTree
