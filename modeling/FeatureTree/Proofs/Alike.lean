import Mathlib.Data.List.Basic
import FeatureTree.Proofs.Stored
/-!
# What closing a frame does not see

A frame is closed by reading its children key by key: the first child
under some keys (`firstKeys`), every child under others (`allKeys`), and
none under the rest. Two lists of children are `Alike` in a place if they
differ in one spot only, by something that is not read there: neighbours
under different keys that have changed places, one child more that is
idle, or a group with alike children in the place of another.
`close_of_alike` says that no rule that makes a part of the document
tells alike children apart.
-/

namespace FeatureTree

/-! ## The keys of a place

A place is where a child can be filed: the frame of a rule, or with
`none` the frame outside all rules. The root rule can be entered as well,
and is then a rule that reads nothing. -/

/-- The keys under which the first child is read and no other. -/
def firstKeys : Option Rule → List Key
  | none => [.rule .feature]
  | some .feature => [.rule .featureHeader, .rule .background]
  | some .featureHeader => [.rule .tags, .token .featureLine, .rule .description]
  | some .background => [.token .backgroundLine, .rule .description]
  | some .definition => [.rule .tags, .rule .scenario, .rule .outline]
  | some .scenario => [.token .scenarioLine, .rule .description]
  | some .outline => [.token .outlineLine, .rule .description]
  | some .examples => [.rule .tags, .token .examplesLine, .rule .description]
  | some .step => [.token .stepLine, .rule .dataTable, .rule .docString]
  | some .docString => [.token .docStringSeparator]
  | some .dataTable | some .tags | some .description | some .root | some (.custom _) => []

/-- The keys under which every child is read. -/
def allKeys : Option Rule → List Key
  | some .feature => [.rule .definition]
  | some .background | some .scenario => [.rule .step]
  | some .outline => [.rule .step, .rule .examples]
  | some .examples | some .dataTable => [.token .tableRow]
  | some .docString | some .description => [.token .other]
  | some .tags => [.token .tagLine]
  | none | some .featureHeader | some .definition | some .step | some .root
  | some (.custom _) => []

/-- The keys that are read at all. -/
def readKeys (place : Option Rule) : List Key :=
  firstKeys place ++ allKeys place

/-- Children under one key may hide those under another: a table hides
the doc strings of its step, and a scenario the outlines of its
definition. -/
inductive Hides : Option Rule → Key → Key → Prop where
  | table : Hides (some .step) (.rule .dataTable) (.rule .docString)
  | scenario : Hides (some .definition) (.rule .scenario) (.rule .outline)

/-- Nothing in the children hides those under a key. -/
def Shown (place : Option Rule) (key : Key) (children : List (Key × Child)) : Prop :=
  ∀ cover hider, Hides place cover key → (cover, hider) ∈ children → ¬ Filed cover hider

/-- What no key hides is shown. -/
theorem shown_of_not_hides {place : Option Rule} {key : Key} (h : ∀ cover, ¬ Hides place cover key)
    (children : List (Key × Child)) : Shown place key children :=
  fun cover _ hhides _ => absurd hhides (h cover)

/-- No key is read in both ways. -/
theorem not_mem_allKeys (place : Option Rule) : ∀ key ∈ firstKeys place, key ∉ allKeys place := by
  rcases place with _ | rule
  · decide
  · cases rule with
    | custom name => exact List.forall_mem_nil _
    | _ => decide

/-- A child that is filed under `key` between the children `earlier` and
`later` goes unnoticed. -/
inductive Idle (place : Option Rule) (key : Key) (earlier later : List (Key × Child)) : Prop where
  /-- Nothing is read under its key. -/
  | unread (hkey : key ∉ readKeys place)
  /-- It is not the first under its key, and only the first is read. -/
  | repeated {first : Child} (hkey : key ∈ firstKeys place) (hfirst : (key, first) ∈ earlier)
      (hfiled : Filed key first)
  /-- It is hidden by another child, before it or behind it. -/
  | hidden {cover : Key} {hider : Child} (hkey : Hides place cover key)
      (hcover : (cover, hider) ∈ earlier ++ later) (hfiled : Filed cover hider)

/-- What is idle stays so, whatever is filed later. -/
theorem Idle.concat {place : Option Rule} {key : Key} {earlier later : List (Key × Child)}
    {entry : Key × Child} (h : Idle place key earlier later) :
    Idle place key earlier (later ++ [entry]) := by
  cases h with
  | unread hkey => exact .unread hkey
  | repeated hkey hfirst hfiled => exact .repeated hkey hfirst hfiled
  | hidden hkey hcover hfiled =>
    refine .hidden hkey ?_ hfiled
    rw [← List.append_assoc]
    exact List.mem_append_left _ hcover

/-- **Lists of children that read the same in a place**: they are the same
up to one spot in the first or, inside its groups, in one list. -/
inductive Alike : Option Rule → List (Key × Child) → List (Key × Child) → Prop where
  | refl (place : Option Rule) (children : List (Key × Child)) : Alike place children children
  /-- Neighbours under different keys have changed places. -/
  | swapped {place : Option Rule} {key key' : Key} {child child' : Child}
      (earlier later : List (Key × Child)) (hne : key ≠ key') :
      Alike place (earlier ++ (key, child) :: (key', child') :: later)
        (earlier ++ (key', child') :: (key, child) :: later)
  /-- One has an idle child more. -/
  | extra {place : Option Rule} {key : Key} {child : Child} {earlier later : List (Key × Child)}
      (hidle : Idle place key earlier later) :
      Alike place (earlier ++ later) (earlier ++ (key, child) :: later)
  /-- A group stands for another that reads the same in its own rule. -/
  | group {place : Option Rule} {rule : Rule} {children children' : List (Key × Child)}
      (earlier later : List (Key × Child)) (hinner : Alike (some rule) children children') :
      Alike place (earlier ++ (.rule rule, .group rule children) :: later)
        (earlier ++ (.rule rule, .group rule children') :: later)

/-! ## What is picked -/

section

variable {α : Type _}

/-- What `pick` accepts of the children under a key: what `Frame.collect`
reads, from the list alone. -/
def picked (key : Key) (pick : Child → Option α) (children : List (Key × Child)) : List α :=
  children.filterMap fun entry => if entry.1 = key then pick entry.2 else none

/-- What is stored under a key is accepted by `pick`. -/
def Picks (key : Key) (pick : Child → Option α) : Prop :=
  ∀ child, Filed key child → (pick child).isSome

theorem Reads.picks {α : Type} {key : Key} {pick : Child → Option α} {make : α → Child}
    (h : Reads key pick make) : Picks key pick := by
  intro child hfiled
  have hmade : ((pick child).map make).isSome := by
    rw [h.map_pick hfiled]
    rfl
  rwa [Option.isSome_map] at hmade

variable {key key' : Key} {pick : Child → Option α} {child child' : Child}
  {earlier later children children' : List (Key × Child)} {place : Option Rule}

@[simp] theorem picked_append :
    picked key pick (earlier ++ later) = picked key pick earlier ++ picked key pick later :=
  List.filterMap_append

theorem picked_cons_of_ne (hne : key' ≠ key) :
    picked key pick ((key', child) :: later) = picked key pick later :=
  List.filterMap_cons_none (if_neg hne)

/-- Children that are picked alike can stand for one another. -/
theorem picked_cons_congr (hpick : pick child = pick child') :
    picked key pick ((key', child) :: later) = picked key pick ((key', child') :: later) := by
  simp only [picked, List.filterMap_cons, hpick]

/-- Under different keys nothing depends on the order. -/
theorem picked_swap (hne : key ≠ key') {key'' : Key} :
    picked key'' pick ((key, child) :: (key', child') :: later) =
      picked key'' pick ((key', child') :: (key, child) :: later) := by
  by_cases hkey : key = key''
  · have hother : key' ≠ key'' := hkey ▸ hne.symm
    rw [hkey, picked_cons_of_ne hother]
    simp only [picked, List.filterMap_cons, if_neg hother]
  · rw [picked_cons_of_ne hkey]
    simp only [picked, List.filterMap_cons, if_neg hkey]

/-- A child that is picked makes the list of what is picked non-empty. -/
theorem picked_ne_nil (hmem : (key, child) ∈ children) (hpick : (pick child).isSome) :
    picked key pick children ≠ [] := by
  obtain ⟨x, hx⟩ := Option.isSome_iff_exists.mp hpick
  exact List.ne_nil_of_mem (List.mem_filterMap.mpr ⟨_, hmem, (if_pos rfl).trans hx⟩)

namespace Alike

/-- An idle child is not among those of which all are read. -/
theorem ne_of_idle (hidle : Idle place key' earlier later) (hkey : key ∈ allKeys place) :
    key' ≠ key := by
  rintro rfl
  cases hidle with
  | unread hunread => exact hunread (List.mem_append_right _ hkey)
  | repeated hfirst _ _ => exact not_mem_allKeys place _ hfirst hkey
  | hidden hhides _ _ => cases hhides <;> cases hkey

/-- And it is not the first of those of which one is read. -/
theorem head?_of_idle (hidle : Idle place key' earlier later) (hkey : key ∈ firstKeys place)
    (hshown : Shown place key (earlier ++ later)) (hpick : Picks key pick) :
    (picked key pick (earlier ++ later)).head? =
      (picked key pick (earlier ++ (key', child) :: later)).head? := by
  by_cases hsame : key' = key
  · subst hsame
    cases hidle with
    | unread hunread => exact absurd (List.mem_append_left _ hkey) hunread
    | repeated _ hfirst hfiled =>
      have hsome := picked_ne_nil hfirst (hpick _ hfiled)
      rw [picked_append, picked_append, List.head?_append_of_ne_nil _ hsome,
        List.head?_append_of_ne_nil _ hsome]
    | hidden hhides hcover hfiled => exact absurd hfiled (hshown _ _ hhides hcover)
  · rw [picked_append, picked_append, picked_cons_of_ne hsame]

variable (h : Alike place children children')
include h

/-- **Where every child is read, the same is picked from alike
children**, as long as it is nothing of a group. -/
theorem picked_eq (hkey : key ∈ allKeys place)
    (hgroup : ∀ rule inner, pick (.group rule inner) = none) :
    picked key pick children = picked key pick children' := by
  cases h with
  | refl => rfl
  | swapped earlier later hne => rw [picked_append, picked_append, picked_swap hne]
  | extra hidle => rw [picked_append, picked_append, picked_cons_of_ne (ne_of_idle hidle hkey)]
  | group earlier later _ =>
    rw [picked_append, picked_append, picked_cons_congr ((hgroup _ _).trans (hgroup _ _).symm)]

/-- **Where the first child is read, the same is picked first.** -/
theorem head?_picked_eq (hkey : key ∈ firstKeys place) (hshown : Shown place key children)
    (hpick : Picks key pick) (hgroup : ∀ rule inner, pick (.group rule inner) = none) :
    (picked key pick children).head? = (picked key pick children').head? := by
  cases h with
  | refl => rfl
  | swapped earlier later hne => rw [picked_append, picked_append, picked_swap hne]
  | extra hidle => exact head?_of_idle hidle hkey hshown hpick
  | group earlier later _ =>
    rw [picked_append, picked_append, picked_cons_congr ((hgroup _ _).trans (hgroup _ _).symm)]

/-- The first group of a rule is the same group, or one that reads the
same. -/
theorem head?_group {rule : Rule} (hrule : rule.isGroup = true)
    (hkey : .rule rule ∈ firstKeys place) (hshown : Shown place (.rule rule) children) :
    (picked (.rule rule) Child.group? children).head? =
        (picked (.rule rule) Child.group? children').head? ∨
      ∃ inner inner', Alike (some rule) inner inner' ∧
        (picked (.rule rule) Child.group? children).head? = some { rule, children := inner } ∧
        (picked (.rule rule) Child.group? children').head? =
          some { rule, children := inner' } := by
  cases h with
  | refl => exact .inl rfl
  | swapped earlier later hne =>
    rw [picked_append, picked_append, picked_swap hne]
    exact .inl rfl
  | extra hidle => exact .inl (head?_of_idle hidle hkey hshown (Reads.group hrule).picks)
  | @group _ rule' inner inner' earlier later hinner =>
    by_cases hsame : rule' = rule
    · subst hsame
      have hgroup (inner : List (Key × Child)) :
          picked (.rule rule') Child.group? ((.rule rule', .group rule' inner) :: later) =
            { rule := rule', children := inner } ::
              picked (.rule rule') Child.group? later := by
        simp [picked, Child.group?]
      -- The groups that differ are read only if none comes before them.
      rw [picked_append, picked_append, hgroup, hgroup]
      cases picked (.rule rule') Child.group? earlier with
      | nil => exact .inr ⟨inner, inner', hinner, rfl, rfl⟩
      | cons first _ => exact .inl rfl
    · have hne : Key.rule rule' ≠ .rule rule := fun hkeys => hsame (Key.rule.inj hkeys)
      rw [picked_append, picked_append, picked_cons_of_ne hne, picked_cons_of_ne hne]
      exact .inl rfl

/-- One more child in both changes nothing in this. -/
theorem concat (entry : Key × Child) :
    Alike place (children ++ [entry]) (children' ++ [entry]) := by
  cases h with
  | refl => exact .refl _ _
  | swapped earlier later hne =>
    simp only [List.append_assoc, List.cons_append]
    exact .swapped _ _ hne
  | extra hidle =>
    simp only [List.append_assoc, List.cons_append]
    exact .extra hidle.concat
  | group earlier later hinner =>
    simp only [List.append_assoc, List.cons_append]
    exact .group _ _ hinner

end Alike

end

/-! ## What the rules read -/

namespace Frame

variable {f g : Frame} {place : Option Rule} {kind : TokenKind} {rule : Rule}

section

variable (h : Alike place f.children g.children)
include h

theorem first?_of_alike {α : Type _} {key : Key} {pick : Child → Option α}
    (hkey : key ∈ firstKeys place) (hshown : ∀ cover, ¬ Hides place cover key)
    (hpick : Picks key pick) (hgroup : ∀ rule inner, pick (.group rule inner) = none) :
    f.first? key pick = g.first? key pick :=
  h.head?_picked_eq hkey (shown_of_not_hides hshown _) hpick hgroup

theorem token?_of_alike (hkey : .token kind ∈ firstKeys place) : f.token? kind = g.token? kind :=
  first?_of_alike h hkey nofun (Reads.token kind).picks fun _ _ => rfl

theorem tokens_of_alike (hkey : .token kind ∈ allKeys place) : f.tokens kind = g.tokens kind :=
  h.picked_eq hkey fun _ _ => rfl

theorem description_of_alike (hkey : .rule .description ∈ firstKeys place) :
    f.description = g.description :=
  congrArg (Option.getD · "") (first?_of_alike h hkey nofun Reads.description.picks fun _ _ => rfl)

theorem background?_of_alike (hkey : .rule .background ∈ firstKeys place) :
    f.background? = g.background? :=
  first?_of_alike h hkey nofun Reads.background.picks fun _ _ => rfl

theorem steps_of_alike (hkey : .rule .step ∈ allKeys place) : f.steps = g.steps :=
  h.picked_eq hkey fun _ _ => rfl

theorem examples_of_alike (hkey : .rule .examples ∈ allKeys place) : f.examples = g.examples :=
  h.picked_eq hkey fun _ _ => rfl

theorem definitions_of_alike (hkey : .rule .definition ∈ allKeys place) :
    f.definitions = g.definitions :=
  h.picked_eq hkey fun _ _ => rfl

/-- The first group of a rule is the same group, or one of the same rule
that reads the same. -/
theorem group?_of_alike (hrule : rule.isGroup = true) (hkey : .rule rule ∈ firstKeys place)
    (hshown : Shown place (.rule rule) f.children) :
    f.group? rule = g.group? rule ∨
      ∃ inner inner' : Frame, f.group? rule = some inner ∧ g.group? rule = some inner' ∧
        inner.rule = inner'.rule ∧ Alike (some rule) inner.children inner'.children := by
  obtain hsame | ⟨inner, inner', hinner, hf, hg⟩ := h.head?_group hrule hkey hshown
  · exact .inl hsame
  · exact .inr ⟨_, _, hf, hg, rfl, hinner⟩

/-- The tags are read through the first group of their rule. -/
theorem tags_of_alike (hkey : .rule .tags ∈ firstKeys place) : f.tags = g.tags := by
  have hshown : Shown place (.rule .tags) f.children := shown_of_not_hides (by nofun) _
  rw [tags, tags]
  obtain hsame | ⟨inner, inner', hf, hg, -, hinner⟩ := group?_of_alike h rfl hkey hshown
  · rw [hsame]
  · rw [hf, hg]
    exact congrArg (List.flatMap Token.tags) (tokens_of_alike hinner (by decide))

theorem require_of_alike (hrule : f.rule = g.rule) (hkey : .token kind ∈ firstKeys place) :
    f.require kind = g.require kind := by
  rw [require, require, token?_of_alike h hkey, hrule]

theorem titled_of_alike (hrule : f.rule = g.rule) (hkey : .token kind ∈ firstKeys place)
    (hdescription : .rule .description ∈ firstKeys place) : f.titled kind = g.titled kind := by
  rw [titled, titled, require_of_alike h hrule hkey, description_of_alike h hdescription]

theorem rows_of_alike (hkey : .token .tableRow ∈ allKeys place) : f.rows = g.rows := by
  rw [rows, rows, tokens_of_alike h hkey]

theorem toScenario_of_alike (hrule : f.rule = g.rule) (hkey : .token kind ∈ firstKeys place)
    (hdescription : .rule .description ∈ firstKeys place)
    (hsteps : .rule .step ∈ allKeys place) (tags : List Tag) :
    f.toScenario kind tags = g.toScenario kind tags := by
  rw [toScenario, toScenario, titled_of_alike h hrule hkey hdescription, steps_of_alike h hsteps]

end

/-- Where none is picked, none stands. -/
theorem not_filed_of_first?_eq_none {α : Type _} {key : Key} {pick : Child → Option α}
    (hnone : f.first? key pick = none) (hpick : Picks key pick) {child : Child}
    (hmem : (key, child) ∈ f.children) : ¬ Filed key child :=
  fun hfiled => picked_ne_nil hmem (hpick child hfiled) (List.head?_eq_none_iff.mp hnone)

/-- The doc strings of a step are read where it has no table. -/
theorem argument_of_alike (h : Alike (some .step) f.children g.children) :
    f.argument = g.argument := by
  have htable : f.dataTable? = g.dataTable? :=
    first?_of_alike h (by decide) nofun Reads.dataTable.picks fun _ _ => rfl
  rw [argument, argument, ← htable]
  cases hfirst : f.dataTable? with
  | some table => rfl
  | none =>
    have hshown : Shown (some .step) (.rule .docString) f.children := by
      rintro _ hider ⟨⟩ hmem
      exact not_filed_of_first?_eq_none hfirst Reads.dataTable.picks hmem
    have hdoc : f.docString? = g.docString? :=
      h.head?_picked_eq (by decide) hshown Reads.docString.picks fun _ _ => rfl
    rw [hdoc]

/-- The outlines of a definition are read where it has no scenario. -/
theorem toDefinition_of_alike (h : Alike (some .definition) f.children g.children) :
    f.toDefinition = g.toDefinition := by
  have hscenario : Shown (some .definition) (.rule .scenario) f.children :=
    shown_of_not_hides (by nofun) _
  rw [toDefinition, toDefinition, tags_of_alike h (by decide)]
  obtain hsame | ⟨inner, inner', hf, hg, hrule, hinner⟩ :=
    group?_of_alike h rfl (by decide) hscenario
  · rw [← hsame]
    cases hfirst : f.group? .scenario with
    | some scenario => rfl
    | none =>
      have houtline : Shown (some .definition) (.rule .outline) f.children := by
        rintro _ hider ⟨⟩ hmem
        exact not_filed_of_first?_eq_none hfirst (Reads.group rfl).picks hmem
      obtain hsame | ⟨inner, inner', hf, hg, hrule, hinner⟩ :=
        group?_of_alike h rfl (by decide) houtline
      · rw [hsame]
      · have hmade : inner.toScenario .outlineLine g.tags = inner'.toScenario .outlineLine g.tags :=
          toScenario_of_alike hinner hrule (by decide) (by decide) (by decide) _
        rw [hf, hg]
        simp only [toOutline, hmade, examples_of_alike hinner (by decide)]
  · have hmade : inner.toScenario .scenarioLine g.tags = inner'.toScenario .scenarioLine g.tags :=
      toScenario_of_alike hinner hrule (by decide) (by decide) (by decide) _
    rw [hf, hg]
    exact congrArg (Except.map ScenarioDefinition.scenario) hmade

/-- The title and the tags of a feature are read through its first
header. -/
theorem toFeature_of_alike (h : Alike (some .feature) f.children g.children) (fallback : String) :
    f.toFeature fallback = g.toFeature fallback := by
  have hshown : Shown (some .feature) (.rule .featureHeader) f.children :=
    shown_of_not_hides (by nofun) _
  rw [toFeature, toFeature, background?_of_alike h (by decide), definitions_of_alike h (by decide),
    header, header]
  obtain hsame | ⟨inner, inner', hf, hg, hrule, hinner⟩ := group?_of_alike h rfl (by decide) hshown
  · rw [hsame]
  · rw [hf, hg, Option.getD_some, Option.getD_some, require_of_alike hinner hrule (by decide),
      description_of_alike hinner (by decide), tags_of_alike hinner (by decide)]

/-- A rule that makes no part hands its children on. -/
theorem close_of_isGroup (hrule : f.rule.isGroup = true) (fallback : String) :
    f.close fallback = .ok (.group f.rule f.children) := by
  rw [close]
  cases hplace : f.rule with
  | root | featureHeader | scenario | outline | tags | custom _ => rfl
  | _ =>
    rw [hplace] at hrule
    cases hrule

/-- **A rule that makes a part makes the same of alike children**, or
fails for the same. -/
theorem close_of_alike (hrule : f.rule = g.rule) (hpart : f.rule.isGroup = false)
    (h : Alike (some f.rule) f.children g.children) (fallback : String) :
    f.close fallback = g.close fallback := by
  rw [close, close, ← hrule]
  cases hplace : f.rule with
  | step =>
    rw [hplace] at h
    rw [toStep, toStep, require_of_alike h hrule (by decide), argument_of_alike h]
  | docString =>
    rw [hplace] at h
    rw [toDocString, toDocString, require_of_alike h hrule (by decide),
      tokens_of_alike h (by decide)]
  | dataTable =>
    rw [hplace] at h
    rw [toDataTable, toDataTable, rows_of_alike h (by decide)]
  | background =>
    rw [hplace] at h
    rw [toBackground, toBackground, titled_of_alike h hrule (by decide) (by decide),
      steps_of_alike h (by decide)]
  | definition =>
    rw [hplace] at h
    rw [toDefinition_of_alike h]
  | examples =>
    rw [hplace] at h
    rw [toExamples, toExamples, titled_of_alike h hrule (by decide) (by decide),
      rows_of_alike h (by decide), tags_of_alike h (by decide)]
  | description =>
    rw [hplace] at h
    rw [toDescription, toDescription, tokens_of_alike h (by decide)]
  | feature =>
    rw [hplace] at h
    rw [toFeature_of_alike h]
  | root | featureHeader | scenario | outline | tags | custom _ =>
    rw [hplace] at hpart
    cases hpart

end Frame

end FeatureTree
