import FeatureTree.Proofs.Fallback
import FeatureTree.Proofs.Holders
import FeatureTree.Proofs.Siblings
/-!
# Changing tags

The spans of the tag lines of one holder can be changed in the block that
a feature is told by (`Body.retag`). What is told then is the same feature
with other tags for this holder (`Feature.setTags`). So all other holders
keep their tags, and every definition the tags in effect for it, unless
the holder is the feature or the definition itself. Tags blocks in other
places are not read at all (`tagged_of_assemble`).
-/

namespace FeatureTree

/-! ## Features with other tags -/

/-- An examples table with other tags. -/
def ExamplesTable.setTags (tags : List Tag) (table : ExamplesTable) : ExamplesTable :=
  { table with tags }

namespace ScenarioDefinition

/-- A definition with other tags. -/
def setTags (tags : List Tag) : ScenarioDefinition → ScenarioDefinition
  | .scenario s => .scenario { s with tags }
  | .outline o => .outline { o with tags }

/-- A definition with other tags at one of its examples tables. -/
def setExamplesTags (table : Nat) (tags : List Tag) : ScenarioDefinition → ScenarioDefinition
  | .scenario s => .scenario s
  | .outline o => .outline { o with examples := o.examples.modify table (.setTags tags) }

variable {d : ScenarioDefinition} {tags : List Tag} {table : Nat}

@[simp] theorem tags_setExamplesTags :
    (d.setExamplesTags table tags).shared.tags = d.shared.tags := by
  cases d <;> rfl

@[simp] theorem examples_setTags : (d.setTags tags).examples = d.examples := by
  cases d <;> rfl

theorem examples_setExamplesTags :
    (d.setExamplesTags table tags).examples = d.examples.modify table (.setTags tags) := by
  cases d with
  | scenario s => exact (List.modify_nil _ _).symm
  | outline o => rfl

end ScenarioDefinition

/-- What is read of an element and not changed in it stays. -/
theorem bind_getElem?_modify {α β : Type _} {xs : List α} {change : α → α} {get : α → Option β}
    {i k : Nat} (h : i = k → ∀ x, get (change x) = get x) :
    (xs.modify i change)[k]?.bind get = xs[k]?.bind get := by
  rw [List.getElem?_modify]
  cases xs[k]? with
  | none => rfl
  | some x =>
    by_cases hik : i = k
    · simp [hik, h hik x]
    · simp [hik]

namespace Feature

/-- **A feature with other tags for one holder.** -/
def setTags (f : Feature) (tags : List Tag) : Holder → Feature
  | .feature => { f with tags }
  | .definition i => { f with definitions := f.definitions.modify i (.setTags tags) }
  | .examples i j => { f with definitions := f.definitions.modify i (.setExamplesTags j tags) }

variable {f : Feature} {tags : List Tag} {h h' : Holder}

/-- **All others keep theirs.** -/
theorem tagsOf_setTags_of_ne (hne : h' ≠ h) : (f.setTags tags h).tagsOf h' = f.tagsOf h' := by
  cases h' with
  | feature =>
    cases h with
    | feature => exact absurd rfl hne
    | definition | examples => rfl
  | definition k =>
    simp only [tagsOf, Option.map_eq_bind]
    cases h with
    | feature => rfl
    | definition i => exact bind_getElem?_modify fun hik => absurd (hik ▸ rfl) hne
    | examples i j => exact bind_getElem?_modify fun _ d => by simp
  | examples k l =>
    rw [tagsOf, tagsOf]
    refine congrArg _ ?_
    cases h with
    | feature => rfl
    | definition i => exact bind_getElem?_modify fun _ d => by simp
    | examples i j =>
      refine bind_getElem?_modify fun hik d => ?_
      have htable : j ≠ l := fun hjl => hne (by rw [hik, hjl])
      rw [ScenarioDefinition.examples_setExamplesTags, List.getElem?_modify_ne _ _ htable]

/-- The tags in effect for a definition stay, unless they are those of the
feature or its own. -/
theorem effectiveTags_setTags {i : Nat} (hfeature : h ≠ .feature) (hown : h ≠ .definition i) :
    (f.setTags tags h).effectiveTags i = f.effectiveTags i := by
  rw [effectiveTags_eq, effectiveTags_eq, tagsOf_setTags_of_ne hfeature.symm,
    tagsOf_setTags_of_ne hown.symm]

end Feature

/-! ## Bodies with other spans -/

/-- The line with other spans, if it is a tag line. -/
def Block.respan (spans : List Span) : Block → Block
  | .leaf line => .leaf (if line.kind = .tagLine then line.setSpans spans else line)
  | .scope rule inside => .scope rule inside

namespace Body

/-- The body with the inside of one block of a rule changed. The block is
named by its place among those of the rule. -/
def changeAt (rule : Rule) (change : Body → Body) : Nat → Body → Body
  | _, [] => []
  | i, .leaf line :: rest => .leaf line :: changeAt rule change i rest
  | i, .scope rule' inside :: rest =>
    if rule' = rule then
      match i with
      | 0 => .scope rule' (change inside) :: rest
      | i + 1 => .scope rule' inside :: changeAt rule change i rest
    else .scope rule' inside :: changeAt rule change i rest

/-- **The inside of a tags block with other spans on its tag lines**: those
that are given for its place in the block. -/
def respan (spans : Nat → List Span) (lines : Body) : Body :=
  lines.mapIdx fun i block => block.respan (spans i)

/-- A body with other spans on its tags, which are in its first tags
block. -/
def respanTags (spans : Nat → List Span) : Body → Body :=
  changeAt .tags (respan spans) 0

/-- The inside of an outline with other spans on the tags of one of its
examples tables. -/
def respanTable (spans : Nat → List Span) (table : Nat) : Body → Body :=
  changeAt .examples (respanTags spans) table

/-- **The inside of a feature with other spans on the tags of one
holder.** -/
def retag (spans : Nat → List Span) (body : Body) : Holder → Body
  | .feature => changeAt .featureHeader (respanTags spans) 0 body
  | .definition i => changeAt .definition (respanTags spans) i body
  | .examples i j =>
    changeAt .definition (changeAt .outline (respanTable spans j) 0) i body

variable {body lines : Body} {rule rule' : Rule} {change : Body → Body} {kind : TokenKind}
  {spans : Nat → List Span} {i : Nat}

/-! ### What a change at one block leaves -/

/-- The lines beside the block stay, -/
theorem leaves_changeAt : leaves kind (changeAt rule change i body) = leaves kind body := by
  induction i, body using changeAt.induct rule with
  | case1 i => rfl
  | case2 i line rest ih => simp only [changeAt, leaves_leaf, ih]
  | case3 inside rest => simp [changeAt]
  | case4 inside rest i ih => simp [changeAt, ih]
  | case5 i rule' inside rest hne ih => simp [changeAt, hne, ih]

/-- and so do the blocks of other rules. -/
theorem bodies_changeAt_of_ne (hne : rule ≠ rule') :
    bodies rule' (changeAt rule change i body) = bodies rule' body := by
  induction i, body using changeAt.induct rule with
  | case1 i => rfl
  | case2 i line rest ih => simp only [changeAt, bodies_leaf, ih]
  | case3 inside rest => simp [changeAt, hne]
  | case4 inside rest i ih => simp [changeAt, hne, ih]
  | case5 i rule' inside rest hother ih => simp [changeAt, hother, ih]

/-- Of its own rule the one block is changed. -/
theorem bodies_changeAt :
    bodies rule (changeAt rule change i body) = (bodies rule body).modify i change := by
  induction i, body using changeAt.induct rule with
  | case1 i => exact (List.modify_nil _ _).symm
  | case2 i line rest ih => simp only [changeAt, bodies_leaf, ih]
  | case3 inside rest => simp [changeAt]
  | case4 inside rest i ih => simp [changeAt, ih]
  | case5 i rule' inside rest hne ih => simp [changeAt, hne, ih]

/-- It is refused as before if the block is. -/
theorem error?_changeAt
    (h : ∀ inside, (Block.scope rule (change inside)).error? = (Block.scope rule inside).error?) :
    error? (changeAt rule change i body) = error? body := by
  induction i, body using changeAt.induct rule with
  | case1 i => rfl
  | case2 i line rest ih => simp only [changeAt, error?, ih]
  | case3 inside rest => simp only [changeAt, if_true, error?, h]
  | case4 inside rest i ih => simp only [changeAt, if_true, error?, ih]
  | case5 i rule' inside rest hne ih => simp only [changeAt, if_neg hne, error?, ih]

theorem line?_changeAt : line? kind (changeAt rule change i body) = line? kind body :=
  congrArg List.head? leaves_changeAt

theorem tags_changeAt (hne : rule ≠ .tags) : tags (changeAt rule change i body) = tags body := by
  rw [tags, bodies_changeAt_of_ne hne, tags]

theorem steps_changeAt (hne : rule ≠ .step) :
    steps (changeAt rule change i body) = steps body := by
  rw [steps, bodies_changeAt_of_ne hne, steps]

theorem description_changeAt (hne : rule ≠ .description) :
    description (changeAt rule change i body) = description body := by
  rw [description, bodies_changeAt_of_ne hne, description]

theorem titled?_changeAt (hne : rule ≠ .description) :
    titled? kind (changeAt rule change i body) = titled? kind body := by
  rw [titled?, line?_changeAt, description_changeAt hne, titled?]

theorem header_changeAt (hne : rule ≠ .featureHeader) :
    header (changeAt rule change i body) = header body := by
  rw [header, bodies_changeAt_of_ne hne, header]

/-- A header that is changed is changed where there is one. -/
theorem header_changeAt_header (hsome : bodies .featureHeader body ≠ []) :
    header (changeAt .featureHeader change 0 body) = change (header body) := by
  obtain ⟨first, rest, hheaders⟩ := List.exists_cons_of_ne_nil hsome
  rw [header, bodies_changeAt, hheaders, header, hheaders]
  rfl

/-! ### No other refusals -/

theorem error?_respan : error? (respan spans lines) = error? lines := by
  induction lines generalizing spans with
  | nil => rfl
  | cons block rest ih =>
    have hblock : (block.respan (spans 0)).error? = block.error? := by cases block <;> rfl
    rw [respan, List.mapIdx_cons, error?, hblock, error?]
    exact congrArg _ ih

theorem error?_respanTags : error? (respanTags spans body) = error? body :=
  error?_changeAt fun lines => by rw [Block.error?, error?_respan]; rfl

/-- No exit asks for tags. -/
theorem refusal?_respanTags : refusal? rule (respanTags spans body) = refusal? rule body := by
  have hleaves (kind : TokenKind) : leaves kind (respanTags spans body) = leaves kind body :=
    leaves_changeAt
  have hbodies {rule : Rule} (hne : .tags ≠ rule) :
      bodies rule (respanTags spans body) = bodies rule body := bodies_changeAt_of_ne hne
  cases rule <;>
    simp only [refusal?, missing?, line?, uneven?, header, hleaves, hbodies, ne_eq, reduceCtorEq,
      not_false_eq_true]

theorem error?_scope_respanTags :
    (Block.scope rule (respanTags spans body)).error? = (Block.scope rule body).error? := by
  rw [Block.error?, error?_respanTags, refusal?_respanTags, Block.error?]

/-- An outline is refused as before, -/
theorem error?_scope_respanTable :
    (Block.scope .outline (respanTable spans i body)).error? =
      (Block.scope .outline body).error? := by
  rw [Block.error?, respanTable, error?_changeAt fun _ => error?_scope_respanTags]
  rfl

/-- and the definition around it. -/
theorem error?_scope_respanTable_definition :
    (Block.scope .definition (changeAt .outline (respanTable spans i) 0 body)).error? =
      (Block.scope .definition body).error? := by
  have hrefusal : refusal? .definition (changeAt .outline (respanTable spans i) 0 body) =
      refusal? .definition body := by
    rw [refusal?, bodies_changeAt, bodies_changeAt_of_ne (by decide), refusal?]
    cases bodies .scenario body with
    | cons scenario _ => rfl
    | nil =>
      cases bodies .outline body with
      | nil => rfl
      | cons outline _ =>
        rw [List.modify_zero_cons]
        change missing? .outline .outlineLine _ = missing? .outline .outlineLine _
        rw [missing?, respanTable, line?_changeAt]
        rfl
  rw [Block.error?, hrefusal, error?_changeAt fun _ => error?_scope_respanTable, Block.error?]

/-- **A feature with other spans on its tags is refused as before.** -/
theorem error?_scope_retag (h : Holder) :
    (Block.scope .feature (body.retag spans h)).error? = (Block.scope .feature body).error? := by
  rw [Block.error?, refusal?, Block.error?, refusal?]
  cases h with
  | feature =>
    rw [retag, error?_changeAt fun _ => error?_scope_respanTags]
    by_cases hnone : bodies .featureHeader body = []
    · rw [header, bodies_changeAt, hnone, header, hnone]
      rfl
    · rw [header_changeAt_header hnone, missing?, respanTags, line?_changeAt, missing?]
  | definition i =>
    rw [retag, error?_changeAt fun _ => error?_scope_respanTags, header_changeAt (by decide)]
  | examples i j =>
    rw [retag, error?_changeAt fun _ => error?_scope_respanTable_definition,
      header_changeAt (by decide)]

/-! ### No other readings -/

/-- An examples table has other tags and is otherwise the same. -/
theorem examples?_respanTags :
    examples? (respanTags spans body) =
      (examples? body).map (.setTags (tags (respanTags spans body))) := by
  have hrows : rows (respanTags spans body) = rows body :=
    congrArg (List.map Token.row) leaves_changeAt
  have htitle : titled? .examplesLine (respanTags spans body) = titled? .examplesLine body :=
    titled?_changeAt (by decide)
  rw [examples?, htitle, hrows, examples?]
  cases titled? .examplesLine body <;> rfl

/-- So is a definition. -/
theorem definition?_respanTags :
    definition? (respanTags spans body) =
      (definition? body).map (.setTags (tags (respanTags spans body))) := by
  have hscenarios : bodies .scenario (respanTags spans body) = bodies .scenario body :=
    bodies_changeAt_of_ne (by decide)
  have houtlines : bodies .outline (respanTags spans body) = bodies .outline body :=
    bodies_changeAt_of_ne (by decide)
  rw [definition?, hscenarios, houtlines, definition?]
  cases bodies .scenario body with
  | cons scenario _ =>
    simp only [scenario?]
    cases titled? .scenarioLine scenario <;> rfl
  | nil =>
    cases bodies .outline body with
    | nil => rfl
    | cons outline _ =>
      simp only [outline?]
      cases titled? .outlineLine outline <;> rfl

/-- If what is read of one of some blocks is set anew, it is set in the
part at its place. -/
theorem exists_filterMap_modify {α β : Type _} {part? : Body → Option α} {set : β → α → α}
    [Nonempty β] {insides : List Body} (change : Body → Body) (i : Nat)
    (hread : ∀ inside ∈ insides, ∃ part, part? inside = some part)
    (hset : ∀ inside ∈ insides, ∃ value, part? (change inside) = (part? inside).map (set value)) :
    ∃ value, (insides.modify i change).filterMap part? =
      (insides.filterMap part?).modify i (set value) := by
  induction insides generalizing i with
  | nil => exact ⟨Classical.arbitrary β, by simp⟩
  | cons inside rest ih =>
    obtain ⟨part, hpart⟩ := hread inside List.mem_cons_self
    rw [List.filterMap_cons_some hpart]
    cases i with
    | zero =>
      obtain ⟨value, hvalue⟩ := hset inside List.mem_cons_self
      rw [hpart] at hvalue
      refine ⟨value, ?_⟩
      rw [List.modify_zero_cons, List.filterMap_cons_some hvalue, List.modify_zero_cons]
    | succ i =>
      obtain ⟨value, hvalue⟩ := ih i (fun other h => hread other (List.mem_cons_of_mem _ h))
        fun other h => hset other (List.mem_cons_of_mem _ h)
      refine ⟨value, ?_⟩
      rw [List.modify_succ_cons, List.filterMap_cons_some hpart, hvalue, List.modify_succ_cons]

/-- An outline has other tags at one of its tables. -/
theorem outline?_respanTable (spans : Nat → List Span) (haccepted : error? body = none) (j : Nat) :
    ∃ tags, ∀ own, outline? own (respanTable spans j body) = (outline? own body).map fun o =>
      { o with examples := o.examples.modify j (.setTags tags) } := by
  have htables := exists_makes .examples .examples haccepted fun _ _ => rfl
  obtain ⟨tags, htags⟩ := exists_filterMap_modify (respanTags spans) j
    (fun inside hinside => (htables inside hinside).imp fun _ h => h.1)
    fun inside _ => ⟨_, examples?_respanTags⟩
  refine ⟨tags, fun own => ?_⟩
  rw [outline?, respanTable, titled?_changeAt (by decide), steps_changeAt (by decide),
    bodies_changeAt, htags, outline?]
  cases titled? .outlineLine body <;> rfl

/-- So has a definition, if it is made from an outline. -/
theorem definition?_respanTable (haccepted : error? body = none) (j : Nat) :
    ∃ tags, definition? (changeAt .outline (respanTable spans j) 0 body) =
      (definition? body).map (.setExamplesTags j tags) := by
  rw [definition?, bodies_changeAt_of_ne (by decide), bodies_changeAt, tags_changeAt (by decide),
    definition?]
  cases bodies .scenario body with
  | cons scenario _ =>
    refine ⟨[], ?_⟩
    dsimp only
    cases scenario? (tags body) scenario <;> rfl
  | nil =>
    cases houtlines : bodies .outline body with
    | nil => exact ⟨[], rfl⟩
    | cons outline rest =>
      have hmem : .scope .outline outline ∈ body :=
        mem_bodies.mp (houtlines ▸ List.mem_cons_self)
      obtain ⟨tags', htags'⟩ :=
        outline?_respanTable spans (error?_inside_of_mem haccepted hmem) j
      refine ⟨tags', ?_⟩
      rw [List.modify_zero_cons]
      dsimp only
      rw [htags']
      cases outline? (tags body) outline <;> rfl

/-- What is read of a feature with a definition changed is that feature with
the definition set anew. -/
theorem exists_feature?_changeAt {fallback : String} {f : Feature} (haccepted : error? body = none)
    (hread : feature? fallback body = some f) (i : Nat)
    {set : List Tag → ScenarioDefinition → ScenarioDefinition}
    (hset : ∀ inside, error? inside = none →
      ∃ tags, definition? (change inside) = (definition? inside).map (set tags)) :
    ∃ tags, feature? fallback (changeAt .definition change i body) =
      some { f with definitions := f.definitions.modify i (set tags) } := by
  have hdefinitions := exists_makes .definition .definition haccepted fun _ _ => rfl
  obtain ⟨tags, htags⟩ := exists_filterMap_modify change i
    (fun inside hinside => (hdefinitions inside hinside).imp fun _ h => h.1)
    fun inside hinside => hset inside (error?_inside_of_mem haccepted (mem_bodies.mp hinside))
  obtain ⟨line, hline, rfl⟩ := Option.map_eq_some_iff.mp hread
  refine ⟨tags, ?_⟩
  rw [feature?, header_changeAt (by decide), bodies_changeAt_of_ne (by decide), bodies_changeAt,
    htags, hline]
  rfl

/-- **What is read of a feature with other spans on the tags of one holder
is the same feature with other tags there.** -/
theorem exists_feature?_retag {fallback : String} {f : Feature} (haccepted : error? body = none)
    (hread : feature? fallback body = some f) (spans : Nat → List Span) (h : Holder) :
    ∃ tags, feature? fallback (body.retag spans h) = some (f.setTags tags h) := by
  cases h with
  | feature =>
    have hnone : bodies .featureHeader body ≠ [] := by
      intro hnone
      rw [feature?, header, hnone] at hread
      cases hread
    obtain ⟨line, hline, rfl⟩ := Option.map_eq_some_iff.mp hread
    refine ⟨tags (respanTags spans (header body)), ?_⟩
    rw [retag, feature?, header_changeAt_header hnone, bodies_changeAt_of_ne (by decide),
      bodies_changeAt_of_ne (by decide), respanTags, line?_changeAt, hline,
      description_changeAt (by decide)]
    rfl
  | definition i =>
    exact exists_feature?_changeAt haccepted hread i fun _ _ => ⟨_, definition?_respanTags⟩
  | examples i j =>
    exact exists_feature?_changeAt haccepted hread i fun _ hinside =>
      definition?_respanTable hinside j

end Body

/-! ## Another feature in the place of the first -/

section

variable {settings : Settings} {before after : List Event} {body body' : Body} {f g : Feature}

/-- Nothing of a run without an error is refused. -/
theorem Block.error?_of_assemble {block : Block} {made : Option Feature}
    (h : assemble settings (before ++ block.events ++ after) = .ok made) : block.error? = none := by
  obtain ⟨c, hrun, -⟩ := assemble_eq_ok_iff_run.mp h
  obtain ⟨b, hb, -⟩ := Assembly.run_append_eq_ok hrun
  obtain ⟨a, -, hblock⟩ := Assembly.run_append_eq_ok hb
  exact (Assembly.run_block_eq_ok_iff.mp hblock).1

/-- Outside all rules a run goes on from one child as it does from another:
no rule is open, so nothing that follows closes the frame they are in. -/
theorem Assembly.exists_run_file {a c : Assembly} {key : Key} {child : Child}
    (hdepth : a.depth = 0) (h : (a.file key child).run after = .ok c) (child' : Child) :
    ∃ c', (a.file key child').run after = .ok c' := by
  have hapart : Apart (fun _ _ _ => True) (a.fileAll [(key, child)]) (a.fileAll [(key, child')]) :=
    apart_fileAll trivial
  have hstay (part : List Event) (_ : part <+: after) :
      (a.file key child).depth ≤ ((a.file key child).deliverAll part).depth := by
    rw [depth_file, hdepth]
    exact Nat.zero_le _
  obtain ⟨error, hfail, -⟩ | ⟨_, c', inner, -, -, -, hrun⟩ :=
    hapart.run_above (fun _ _ _ _ _ => trivial) [] after hstay
  · cases h.symm.trans hfail
  · exact ⟨c'.above inner, hrun⟩

/-- **Another feature block in the place of the first** is told instead of
it, whatever follows. -/
theorem IsFirstOutermost.assemble_replaced
    (hfirst : IsFirstOutermost .feature (before ++ (Block.scope .feature body).events ++ after)
      before body.events)
    (h : assemble settings (before ++ (Block.scope .feature body).events ++ after) = .ok (some f))
    (haccepted : (Block.scope .feature body').error? = none)
    (hread : body'.feature? settings.language = some g) :
    assemble settings (before ++ (Block.scope .feature body').events ++ after) = .ok (some g) := by
  obtain ⟨earlier, -, rfl, -⟩ := hfirst.exists_bodies (errors_brackets_of_assemble h)
  obtain ⟨c, hrun, -⟩ := assemble_eq_ok_iff_run.mp h
  obtain ⟨b, hb, hafter⟩ := Assembly.run_append_eq_ok hrun
  obtain ⟨a, ha, hblock⟩ := Assembly.run_append_eq_ok hb
  obtain ⟨-, child, -, rfl⟩ := Assembly.run_block_eq_ok_iff.mp hblock
  have hearlier := (Assembly.run_body_eq_ok_iff.mp ha).1
  have hdepth : a.depth = 0 := by
    obtain ⟨-, rfl⟩ := Assembly.run_eq_ok_iff.mp ha
    exact (depth_reached settings _).trans (congrArg List.length hfirst.outside)
  -- Up to its end the other block tells its feature, as there is none before it.
  have hevents : Body.events (earlier ++ [.scope .feature body']) =
      earlier.events ++ (Block.scope .feature body').events := by simp [Body.events]
  have halone : assemble settings (earlier.events ++ (Block.scope .feature body').events) =
      .ok (some g) := by
    rw [← hevents, assemble_events_eq_ok_iff]
    exact ⟨Body.error?_append_eq_none hearlier (Body.error?_singleton haccepted),
      by simp [hfirst.bodies_eq_nil, hread]⟩
  obtain ⟨b', hb', hfinish⟩ := assemble_eq_ok_iff_run.mp halone
  obtain ⟨a', ha', hblock'⟩ := Assembly.run_append_eq_ok hb'
  obtain rfl : a = a' := Except.ok.inj (ha.symm.trans ha')
  obtain ⟨-, child', -, rfl⟩ := Assembly.run_block_eq_ok_iff.mp hblock'
  -- And what is told first is told in the end.
  obtain ⟨c', hafter'⟩ := Assembly.exists_run_file hdepth hafter child'
  refine assemble_eq_ok_iff_run.mpr ⟨c', ?_, ?_⟩
  · rw [Assembly.run_append, hb']
    exact hafter'
  · rw [← (Assembly.run_eq_ok_iff.mp hafter').2]
    exact Assembly.finish_deliverAll hfinish after

/-! ## Where tags come from -/

/-- A holder with its block in the inside of a feature, and the tags that
stand there. -/
def Body.Holds (body : Body) (h : Holder) (tags : List Tag) : Prop :=
  ∃ inside, body.holder? h = some inside ∧ inside.Tagged tags

/-- The rules in which a tags block is not read. -/
def Rule.ignoresTags : Rule → Bool
  | .feature | .background | .scenario | .outline | .step => true
  | _ => false

theorem not_mem_readKeys_of_ignoresTags {rule : Rule} (h : rule.ignoresTags = true) :
    .rule .tags ∉ readKeys (some rule) := by
  cases rule with
  | feature | background | scenario | outline | step => decide
  | _ => cases h

/-- In effect for a definition is what the header and its own block hold. -/
theorem exists_effectiveTags (haccepted : body.error? = none)
    (hread : body.feature? settings.language = some f) (i : Nat) :
    ∃ inherited own, body.Holds .feature inherited ∧
      (body.Holds (.definition i) own ∨ body.holder? (.definition i) = none ∧ own = []) ∧
      f.effectiveTags i = (inherited ++ own).map Tag.name := by
  have hheld := tagsOf_eq_some_iff haccepted hread
  have hfeature : body.Holds .feature f.tags := (hheld .feature f.tags).mp rfl
  have heffective := f.effectiveTags_eq i
  cases hown : f.tagsOf (.definition i) with
  | some own =>
    rw [hown] at heffective
    exact ⟨f.tags, own, hfeature, .inl ((hheld _ own).mp hown), heffective⟩
  | none =>
    rw [hown] at heffective
    rw [tagsOf_eq haccepted hread, Option.map_eq_none_iff] at hown
    exact ⟨f.tags, [], hfeature, .inr ⟨hown, rfl⟩, heffective⟩

/-- Tags can be left out where they are not read. -/
theorem assemble_without_tags {earlier later : List Event} {lines : Body} {rule : Rule}
    {made : Option Feature}
    (h : assemble settings (earlier ++ (Block.scope .tags lines).events ++ later) = .ok made)
    (hplace : (openedBy earlier).head? = some rule) (hrule : rule.ignoresTags = true) :
    assemble settings (earlier ++ later) = .ok made := by
  have haccepted : (Block.scope .tags lines).Accepted settings :=
    Block.accepted_iff.mpr (Block.error?_of_assemble h)
  rw [← h, assemble_idle haccepted (.unread (hplace ▸ not_mem_readKeys_of_ignoresTags hrule))]

/-- **How the tags of a feature follow from the walk it is told by**, in
which `body` is the inside of its block. -/
structure TaggedBy (settings : Settings) (before : List Event) (body : Body) (after : List Event)
    (f : Feature) : Prop where
  /-- A holder has the tags in its own block and no others. -/
  held (h : Holder) (tags : List Tag) : f.tagsOf h = some tags ↔ body.Holds h tags
  /-- In effect for a definition are the tags of the feature and then its
  own; there are none of its own where there is no such definition. -/
  effective (i : Nat) : ∃ inherited own, body.Holds .feature inherited ∧
    (body.Holds (.definition i) own ∨ body.holder? (.definition i) = none ∧ own = []) ∧
    f.effectiveTags i = (inherited ++ own).map Tag.name
  /-- Other spans on the tag lines of one holder are told as other tags of
  this holder, and change nothing else: neither the tags of another nor,
  unless the holder is the feature or the definition itself, those in effect
  for a definition. -/
  changed (h : Holder) (spans : Nat → List Span) : ∃ tags,
    assemble settings (before ++ (Block.scope .feature (body.retag spans h)).events ++ after) =
      .ok (some (f.setTags tags h)) ∧
    (∀ h', h' ≠ h → (f.setTags tags h).tagsOf h' = f.tagsOf h') ∧
    ∀ i, h ≠ .feature → h ≠ .definition i →
      (f.setTags tags h).effectiveTags i = f.effectiveTags i
  /-- A tags block directly in a feature, a background, a scenario, an
  outline or a step can be left out, with all tags in it. -/
  elsewhere (earlier later : List Event) (lines : Body) (rule : Rule)
    (hevents : before ++ (Block.scope .feature body).events ++ after =
      earlier ++ (Block.scope .tags lines).events ++ later)
    (hplace : (openedBy earlier).head? = some rule) (hrule : rule.ignoresTags = true) :
    assemble settings (earlier ++ later) = .ok (some f)

/-- **Tags are read at the feature, its definitions and their examples
tables, each off its own block.** -/
theorem tagged_of_assemble {settings : Settings} {events : List Event} {f : Feature}
    (h : assemble settings events = .ok (some f)) :
    ∃ (before : List Event) (body : Body) (after : List Event),
      events = before ++ (Block.scope .feature body).events ++ after ∧
      IsFirstOutermost .feature events before body.events ∧
      TaggedBy settings before body after f := by
  obtain ⟨_, _, hblock⟩ := exists_isOutermost h
  obtain ⟨before, inside, hfirst⟩ := hblock.exists_first
  obtain ⟨-, body, -, rfl⟩ := hfirst.exists_bodies (errors_brackets_of_assemble h)
  obtain ⟨after, hsplit⟩ := hfirst.split
  obtain rfl : events = before ++ (Block.scope .feature body).events ++ after := by
    simpa [Block.events] using hsplit
  have hread := hfirst.feature?_eq h
  have haccepted := Block.error?_of_assemble h
  have hbody := error?_inside haccepted
  refine ⟨before, body, after, rfl, hfirst, ?_⟩
  constructor
  case held => exact tagsOf_eq_some_iff hbody hread
  case effective => exact exists_effectiveTags hbody hread
  case changed =>
    intro holder spans
    obtain ⟨tags, hretold⟩ := Body.exists_feature?_retag hbody hread spans holder
    exact ⟨tags,
      hfirst.assemble_replaced h ((Body.error?_scope_retag holder).trans haccepted) hretold,
      fun _ hne => Feature.tagsOf_setTags_of_ne hne,
      fun _ hfeature hown => Feature.effectiveTags_setTags hfeature hown⟩
  case elsewhere =>
    intro earlier later lines rule hevents hplace hrule
    exact assemble_without_tags (hevents ▸ h) hplace hrule

end

/-- A tags block with one tag. -/
def oneTag (line : Nat) (name : String) : Block :=
  .scope .tags [.leaf { kind := .tagLine, location := ⟨line, 1⟩, spans := [⟨3, name⟩] }]

/-- The inside of a feature with tags at its header, at an outline and at an
examples table, and with tags in front of the outline that belong to
nothing. -/
def taggedInside : Body :=
  [.scope .featureHeader
      [oneTag 1 "@sums",
        .leaf { kind := .featureLine, location := ⟨2, 1⟩, keyword := "Feature", text := "Sums" }],
    oneTag 3 "@nobody",
    .scope .definition
      [oneTag 4 "@slow",
        .scope .outline
          [.leaf { kind := .outlineLine, location := ⟨5, 3⟩, keyword := "Outline", text := "Add" },
            .scope .examples
              [oneTag 6 "@small", .leaf { kind := .examplesLine, location := ⟨7, 5⟩ }]]]]

/-- What is told of it. -/
def taggedFeature : Feature :=
  { titleFeature 2 "Sums" with
    tags := [⟨⟨1, 3⟩, "@sums"⟩]
    definitions :=
      [.outline
        { location := ⟨5, 3⟩, keyword := "Outline", name := "Add", description := ""
          tags := [⟨⟨4, 3⟩, "@slow"⟩], steps := []
          examples :=
            [{ location := ⟨7, 5⟩, keyword := "", name := "", description := ""
               tags := [⟨⟨6, 3⟩, "@small"⟩], rows := [] }] }] }

/-- In effect for the outline are the tags of the header and its own, while
those of its examples table and those that belong to nothing are not. -/
theorem tagged_taggedInside :
    assemble {} (Block.scope .feature taggedInside).events = .ok (some taggedFeature) ∧
      taggedFeature.effectiveTags 0 = ["@sums", "@slow"] ∧
      ∃ (before : List Event) (body : Body) (after : List Event),
        (Block.scope .feature taggedInside).events =
          before ++ (Block.scope .feature body).events ++ after ∧
        IsFirstOutermost .feature (Block.scope .feature taggedInside).events before body.events ∧
        TaggedBy {} before body after taggedFeature := by
  have htold : assemble {} (Block.scope .feature taggedInside).events =
      .ok (some taggedFeature) := rfl
  exact ⟨htold, rfl, tagged_of_assemble htold⟩

end FeatureTree
