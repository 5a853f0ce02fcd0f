import Mathlib.Data.List.Basic
import Mathlib.Data.List.Induction
import FeatureTree.Proofs.Brackets
/-!
# What an assembly stores

Children stand in the frames of an assembly and in the groups inside
these, at any depth (`Frame.Within`). A property of children that lines
have and that closing a frame passes on from everything in the frame
holds of everything that an assembly ever stores
(`Assembly.Throughout.reached`). The first such property is that
children stand under their own key (`Filed`). So what is read by key is
all that stands there (`Frame.map_collect`), which is said here of each
thing that is read in a frame.
-/

namespace FeatureTree

/-! ## What stands under a key -/

namespace Frame

/-- **All that stands under a key**, in the order it came. -/
def under (f : Frame) (key : Key) : List Child :=
  (f.children.filter fun entry => entry.1 = key).map Prod.snd

theorem mem_under {f : Frame} {key : Key} {child : Child} :
    child ∈ f.under key ↔ (key, child) ∈ f.children := by
  simp [under]

/-- Filing puts a child behind the others under its key, and nowhere
else. -/
theorem under_file (f : Frame) (key key' : Key) (child : Child) :
    (f.file key child).under key' = f.under key' ++ if key = key' then [child] else [] := by
  rw [under, under, file, List.filter_append, List.map_append]
  by_cases hkey : key = key' <;> simp [hkey]

/-- What is read under a key is picked from what stands there. -/
theorem collect_eq_filterMap {α : Type _} (f : Frame) (key : Key) (pick : Child → Option α) :
    f.collect key pick = (f.under key).filterMap pick := by
  rw [under, collect, List.filterMap_map, List.filterMap_filter]
  refine congrArg (List.filterMap · _) (funext fun entry => ?_)
  by_cases hkey : entry.1 = key <;> simp [hkey]

/-- So it was picked from a child that stands there. -/
theorem mem_collect {α : Type _} {f : Frame} {key : Key} {pick : Child → Option α} {x : α} :
    x ∈ f.collect key pick ↔ ∃ child, (key, child) ∈ f.children ∧ pick child = some x := by
  rw [collect_eq_filterMap, List.mem_filterMap]
  exact exists_congr fun child => and_congr_left fun _ => mem_under

end Frame

/-! ## Frames within frames -/

namespace Frame

/-- The frame itself and the groups inside it, at any depth. -/
inductive Within : Frame → Frame → Prop where
  | self (f : Frame) : Within f f
  | group {f outer : Frame} {key : Key} {rule : Rule} {children : List (Key × Child)}
      (hmem : (key, .group rule children) ∈ outer.children) (h : Within f { rule, children }) :
      Within f outer

/-- Everything in a frame and in the groups inside it has a property. -/
def Throughout (P : Key → Child → Prop) (f : Frame) : Prop :=
  ∀ g : Frame, g.Within f → ∀ entry ∈ g.children, P entry.1 entry.2

variable {P : Key → Child → Prop} {f : Frame} {key : Key} {child : Child}

theorem throughout_empty (rule : Rule) : (empty rule).Throughout P := by
  intro g hg
  cases hg with
  | self => exact List.forall_mem_nil _
  | group hmem _ => exact absurd hmem List.not_mem_nil

/-- What follows from it holds throughout a frame as well. -/
theorem Throughout.imp {P' : Key → Child → Prop} (h : f.Throughout P)
    (himp : ∀ key child, P key child → P' key child) : f.Throughout P' :=
  fun g hg entry hentry => himp _ _ (h g hg entry hentry)

/-- What holds throughout a frame holds throughout its groups. -/
theorem Throughout.group (h : f.Throughout P) {rule : Rule} {children : List (Key × Child)}
    (hmem : (key, .group rule children) ∈ f.children) :
    ({ rule, children } : Frame).Throughout P :=
  fun g hg => h g (.group hmem hg)

/-- So it does throughout the groups inside these, at any depth. -/
theorem Throughout.within (h : f.Throughout P) {g : Frame} (hg : g.Within f) :
    g.Throughout P := by
  induction hg with
  | self => exact h
  | group hmem _ ih => exact ih (h.group hmem)

/-- In particular throughout the one that is read as the first of a
rule. -/
theorem Throughout.of_group? (h : f.Throughout P) {rule : Rule} {g : Frame}
    (hgroup : f.group? rule = some g) : g.Throughout P := by
  obtain ⟨child, hmem, hread⟩ := mem_collect.mp (List.mem_of_head? hgroup)
  cases child with
  | group rule' children =>
    obtain rfl := Option.some.inj hread
    exact h.group hmem
  | _ => cases hread

/-- And throughout the header of a feature, which may be an empty one. -/
theorem Throughout.header (h : f.Throughout P) : f.header.Throughout P := by
  rw [Frame.header]
  cases hgroup : f.group? .featureHeader with
  | some group => exact h.of_group? hgroup
  | none => exact throughout_empty .featureHeader

/-- It holds throughout a frame with one more child, if it holds of that
child and throughout the group that it may be. -/
theorem Throughout.file (h : f.Throughout P) (hchild : P key child)
    (hgroup : ∀ g, child.group? = some g → g.Throughout P) : (f.file key child).Throughout P := by
  intro g hg
  cases hg with
  | self =>
    intro entry hentry
    obtain hold | hnew := List.mem_append.mp hentry
    · exact h f (.self f) entry hold
    · obtain rfl := List.mem_singleton.mp hnew
      exact hchild
  | group hmem hinner =>
    obtain hold | hnew := List.mem_append.mp hmem
    · exact h g (.group hold hinner)
    · obtain ⟨rfl, rfl⟩ := Prod.mk.inj (List.mem_singleton.mp hnew)
      exact hgroup _ rfl g hinner

/-- A frame that is closed to a group is closed to itself. -/
theorem eq_of_closes {fallback : String} {g : Frame} (h : f.Closes fallback child)
    (hgroup : child.group? = some g) : g = f := by
  cases h with
  | group _ => exact (Option.some.inj hgroup).symm
  | _ => cases hgroup

end Frame

/-! ## Everything stored -/

namespace Assembly

/-- The frames of an assembly: the root, the open ones, and the groups
inside any of them. -/
def Holds (a : Assembly) (f : Frame) : Prop :=
  f.Within a.root ∨ ∃ frame ∈ a.frames, f.Within frame

/-- Everything that an assembly stores has a property. -/
structure Throughout (P : Key → Child → Prop) (a : Assembly) : Prop where
  root : a.root.Throughout P
  frames : ∀ frame ∈ a.frames, frame.Throughout P

variable {P : Key → Child → Prop} {a : Assembly} {key : Key} {child : Child}

namespace Throughout

/-- It is so throughout each frame that the assembly holds. -/
theorem of_holds (h : a.Throughout P) {f : Frame} (hf : a.Holds f) : f.Throughout P := by
  obtain hroot | ⟨frame, hframe, hwithin⟩ := hf
  · exact h.root.within hroot
  · exact (h.frames frame hframe).within hwithin

theorem imp {P' : Key → Child → Prop} (h : a.Throughout P)
    (himp : ∀ key child, P key child → P' key child) : a.Throughout P' :=
  ⟨h.root.imp himp, fun frame hframe => (h.frames frame hframe).imp himp⟩

theorem file (h : a.Throughout P) (hchild : P key child)
    (hgroup : ∀ g, child.group? = some g → g.Throughout P) : (a.file key child).Throughout P := by
  rw [Assembly.file]
  cases hframes : a.frames with
  | nil =>
    exact ⟨h.root.file hchild hgroup, List.forall_mem_nil _⟩
  | cons frame outer =>
    have hopen := h.frames
    rw [hframes, List.forall_mem_cons] at hopen
    exact ⟨h.root, List.forall_mem_cons.mpr ⟨hopen.1.file hchild hgroup, hopen.2⟩⟩

/-- **What an event stores has the property**, if lines have it and
closing passes it on. -/
theorem step (hclose : ∀ fallback f child, f.Throughout P → Frame.Closes fallback f child →
    P (.rule f.rule) child) {event : Event}
    (hleaf : ∀ token, event = .leaf token → P (.token token.kind) (.token token))
    (h : a.Throughout P) : (a.step event).1.Throughout P := by
  cases event with
  | leaf token => exact h.file (hleaf token rfl) fun g hg => by cases hg
  | enter rule =>
    exact ⟨h.root, List.forall_mem_cons.mpr ⟨Frame.throughout_empty rule, h.frames⟩⟩
  | exit rule =>
    have houtcome := exit_step a rule
    generalize a.step (.exit rule) = outcome at houtcome ⊢
    cases houtcome with
    | atRoot _ | crossed _ _ => exact h
    | lost hframes _ _ =>
      have hopen := h.frames
      rw [hframes, List.forall_mem_cons] at hopen
      exact ⟨h.root, hopen.2⟩
    | @closed frame outer child hframes hrule hmade =>
      have hopen := h.frames
      rw [hframes, List.forall_mem_cons] at hopen
      obtain ⟨hframe, houter⟩ := hopen
      have hcloses := Frame.closes_of_close hmade
      have hrest : ({ a with frames := outer } : Assembly).Throughout P := ⟨h.root, houter⟩
      refine hrest.file ?_ fun g hg => ?_
      · exact hrule ▸ hclose _ frame child hframe hcloses
      · exact Frame.eq_of_closes hcloses hg ▸ hframe

/-- **So has everything that a run ever stores.** -/
theorem reached (hclose : ∀ fallback f child, f.Throughout P → Frame.Closes fallback f child →
    P (.rule f.rule) child) (settings : Settings) {events : List Event}
    (hleaf : ∀ token, .leaf token ∈ events → P (.token token.kind) (.token token)) :
    (reached settings events).Throughout P := by
  induction events using List.reverseRecOn with
  | nil =>
    exact ⟨Frame.throughout_empty .root, List.forall_mem_nil _⟩
  | append_singleton events event ih =>
    have hbefore := ih fun token htoken => hleaf token (List.mem_append_left _ htoken)
    rw [reached_concat]
    refine hbefore.step hclose fun token htoken => hleaf token ?_
    exact List.mem_append_right _ (htoken ▸ List.mem_singleton_self _)

end Throughout

end Assembly

/-! ## Children stand under their keys -/

/-- What is stored under a key: lines of a kind under that kind, and under
a rule what the rule makes, or its groups where it makes nothing. -/
inductive Filed : Key → Child → Prop where
  | token (t : Token) : Filed (.token t.kind) (.token t)
  | step (s : Step) : Filed (.rule .step) (.step s)
  | docString (doc : DocString) : Filed (.rule .docString) (.docString doc)
  | dataTable (grid : DataTable) : Filed (.rule .dataTable) (.dataTable grid)
  | background (b : Background) : Filed (.rule .background) (.background b)
  | definition (d : ScenarioDefinition) : Filed (.rule .definition) (.definition d)
  | examples (e : ExamplesTable) : Filed (.rule .examples) (.examples e)
  | description (text : String) : Filed (.rule .description) (.description text)
  | feature (f : Feature) : Filed (.rule .feature) (.feature f)
  | group {rule : Rule} (hrule : rule.isGroup = true) (children : List (Key × Child)) :
      Filed (.rule rule) (.group rule children)

/-- **The ways of reading by key**: the key, what is picked of a child
there, and the child it was picked of. -/
inductive Reads : {α : Type} → Key → (Child → Option α) → (α → Child) → Prop where
  | token (kind : TokenKind) : Reads (.token kind) Child.token? .token
  | step : Reads (.rule .step) Child.step? .step
  | docString : Reads (.rule .docString) Child.docString? .docString
  | dataTable : Reads (.rule .dataTable) Child.dataTable? .dataTable
  | background : Reads (.rule .background) Child.background? .background
  | definition : Reads (.rule .definition) Child.definition? .definition
  | examples : Reads (.rule .examples) Child.examples? .examples
  | description : Reads (.rule .description) Child.description? .description
  | feature : Reads (.rule .feature) Child.feature? .feature
  | group {rule : Rule} (hrule : rule.isGroup = true) :
      Reads (.rule rule) Child.group? fun g => .group g.rule g.children

/-- **What stands under its key is picked**, and the pick tells what it
was. -/
theorem Reads.map_pick {α : Type} {key : Key} {pick : Child → Option α} {make : α → Child}
    {child : Child} (h : Reads key pick make) (hfiled : Filed key child) :
    (pick child).map make = some child := by
  cases h with
  | token _ =>
    cases hfiled with
    | token _ => rfl
  | group hrule =>
    cases hfiled with
    | group _ _ => rfl
    | _ => cases hrule
  | step | docString | dataTable | background | definition | examples | description | feature =>
    cases hfiled with
    | group hrule _ => cases hrule
    | _ => rfl

/-- Nothing else is picked than what is a child there. -/
theorem Reads.mem_children {α : Type} {key : Key} {pick : Child → Option α} {make : α → Child}
    (h : Reads key pick make) {f : Frame} {x : α} (hx : x ∈ f.collect key pick) :
    (key, make x) ∈ f.children := by
  obtain ⟨child, hmem, hread⟩ := Frame.mem_collect.mp hx
  have hmade : make x = child := by cases h <;> cases child <;> cases hread <;> rfl
  rw [hmade]
  exact hmem

/-- A frame is closed to what belongs under its rule. -/
theorem filed_of_closes {fallback : String} {f : Frame} {child : Child}
    (h : f.Closes fallback child) : Filed (.rule f.rule) child := by
  cases h with
  | group hrule => exact .group hrule _
  | step hrule _ | docString hrule _ | dataTable hrule _ | background hrule _ | definition hrule _
  | examples hrule _ | description hrule | feature hrule _ => rw [hrule]; constructor

/-- **Whatever an assembly stores stands under its key.** -/
theorem filed_reached (settings : Settings) (events : List Event) :
    (reached settings events).Throughout Filed :=
  .reached (fun _ _ _ _ hcloses => filed_of_closes hcloses) settings fun token _ => .token token

/-! ## What is read in a frame -/

namespace Frame

variable {f : Frame} {key : Key} {rule : Rule}
variable (hfiled : f.Throughout Filed)
include hfiled

section

variable {α : Type} {pick : Child → Option α} {make : α → Child}

/-- **Where children stand under their keys, all of them are read.** -/
theorem map_collect (h : Reads key pick make) : (f.collect key pick).map make = f.under key := by
  have hpick : ∀ child ∈ f.under key, (pick child).map make = some child :=
    fun child hchild => h.map_pick (hfiled f (.self f) _ (mem_under.mp hchild))
  rw [collect_eq_filterMap, List.map_filterMap, List.filterMap_congr hpick, List.filterMap_some]

/-- Where one is asked for, it is the first that is read. -/
theorem map_first? (h : Reads key pick make) :
    (f.first? key pick).map make = (f.under key).head? := by
  rw [first?, ← List.head?_map, map_collect hfiled h]

end

/-! One law for each thing that is read. -/

theorem map_tokens (kind : TokenKind) : (f.tokens kind).map .token = f.under (.token kind) :=
  map_collect hfiled (.token kind)

theorem map_token? (kind : TokenKind) :
    (f.token? kind).map .token = (f.under (.token kind)).head? :=
  map_first? hfiled (.token kind)

theorem map_group? (hrule : rule.isGroup = true) :
    (f.group? rule).map (fun g => .group g.rule g.children) = (f.under (.rule rule)).head? :=
  map_first? hfiled (.group hrule)

theorem map_steps : f.steps.map .step = f.under (.rule .step) :=
  map_collect hfiled .step

theorem map_examples : f.examples.map .examples = f.under (.rule .examples) :=
  map_collect hfiled .examples

theorem map_definitions : f.definitions.map .definition = f.under (.rule .definition) :=
  map_collect hfiled .definition

theorem map_background? : f.background?.map .background = (f.under (.rule .background)).head? :=
  map_first? hfiled .background

theorem map_dataTable? : f.dataTable?.map .dataTable = (f.under (.rule .dataTable)).head? :=
  map_first? hfiled .dataTable

theorem map_docString? : f.docString?.map .docString = (f.under (.rule .docString)).head? :=
  map_first? hfiled .docString

/-- The description is the first, or empty where there is none. -/
theorem description_of_under :
    f.under (.rule .description) = [] ∧ f.description = "" ∨
      (f.under (.rule .description)).head? = some (.description f.description) := by
  rw [← List.head?_eq_none_iff, ← map_first? hfiled .description, description]
  cases f.first? (.rule .description) Child.description? with
  | none => exact .inl ⟨rfl, rfl⟩
  | some text => exact .inr rfl

/-- The argument is the first table, -/
theorem argument_eq_table_iff {grid : DataTable} :
    f.argument = .table grid ↔ (f.under (.rule .dataTable)).head? = some (.dataTable grid) := by
  rw [← map_dataTable? hfiled, argument]
  cases f.dataTable? with
  | some grid' => simp
  | none => cases f.docString? <;> simp

/-- or where no table is the first doc string, -/
theorem argument_eq_docString_iff {doc : DocString} :
    f.argument = .docString doc ↔ f.under (.rule .dataTable) = [] ∧
      (f.under (.rule .docString)).head? = some (.docString doc) := by
  rw [← List.head?_eq_none_iff, ← map_dataTable? hfiled, ← map_docString? hfiled, argument]
  cases f.dataTable? with
  | some grid => simp
  | none => cases f.docString? <;> simp

/-- or nothing where neither is. -/
theorem argument_eq_empty_iff :
    f.argument = .empty ↔
      f.under (.rule .dataTable) = [] ∧ f.under (.rule .docString) = [] := by
  rw [← List.head?_eq_none_iff, ← List.head?_eq_none_iff, ← map_dataTable? hfiled,
    ← map_docString? hfiled, argument]
  cases f.dataTable? with
  | some grid => simp
  | none => cases f.docString? <;> simp

/-- Under a rule that makes no part stand its groups: the first of them is
the one that is read, -/
theorem group_of_head? {children : List (Key × Child)} (hrule : rule.isGroup = true)
    (hfirst : (f.under (.rule rule)).head? = some (.group rule children)) :
    f.group? rule = some { rule, children } ∧
      ({ rule, children } : Frame).Throughout Filed := by
  have hread := (map_group? hfiled hrule).trans hfirst
  obtain ⟨⟨_, _⟩, hgroup, hmade⟩ := Option.map_eq_some_iff.mp hread
  obtain ⟨rfl, rfl⟩ := Child.group.inj hmade
  exact ⟨hgroup, hfiled.of_group? hgroup⟩

/-- none is read where none stands, -/
theorem group_of_under_eq_nil (hrule : rule.isGroup = true)
    (hnone : f.under (.rule rule) = []) : f.group? rule = none := by
  have hread := map_group? hfiled hrule
  rw [hnone, List.head?_nil, Option.map_eq_none_iff] at hread
  exact hread

/-- and nothing else stands there. -/
theorem under_group (rule : Rule) (hrule : rule.isGroup = true) :
    (f.under (.rule rule) = [] ∧ f.group? rule = none) ∨
      ∃ children, (f.under (.rule rule)).head? = some (.group rule children) ∧
        f.group? rule = some { rule, children } ∧
        ({ rule, children } : Frame).Throughout Filed := by
  cases hunder : f.under (.rule rule) with
  | nil => exact .inl ⟨rfl, group_of_under_eq_nil hfiled hrule hunder⟩
  | cons child rest =>
    have hmem : (.rule rule, child) ∈ f.children :=
      mem_under.mp (hunder ▸ List.mem_cons_self)
    cases hfiled f (.self f) _ hmem with
    | group _ children =>
      have hfirst : (f.under (.rule rule)).head? = some (.group rule children) := by
        rw [hunder]
        rfl
      exact .inr ⟨children, rfl, group_of_head? hfiled hrule hfirst⟩
    | _ => cases hrule

/-- The tags are those of all lines in the first group of tag lines. -/
theorem tags_of_under :
    f.under (.rule .tags) = [] ∧ f.tags = [] ∨
      ∃ (children : List (Key × Child)) (lines : List Token),
        (f.under (.rule .tags)).head? = some (.group .tags children) ∧
        ({ rule := .tags, children } : Frame).under (.token .tagLine) = lines.map .token ∧
        f.tags = lines.flatMap Token.tags := by
  obtain ⟨hnone, hgroup⟩ | ⟨children, hfirst, hgroup, hinner⟩ := under_group hfiled .tags rfl
  · exact .inl ⟨hnone, by rw [tags, hgroup]⟩
  · exact .inr ⟨children, _, hfirst, (map_tokens hinner .tagLine).symm, by rw [tags, hgroup]⟩

end Frame

end FeatureTree
