import Mathlib.Data.List.Basic
import FeatureTree.Proofs.Apart
import FeatureTree.Proofs.Relabelling
/-!
# Retellings

A retelling tells the events of a walk in other words: each line is
replaced by one of the same kind, and custom rules may get other names.
What is read of the new line must be a relabelling of what is read of the
old one, and that is all that is asked (`Retelling`). Then every part is
made of the new lines as it was made of the old, frame by frame
(`close_retold`) and event by event (`step_retold`), so the outcome of the
new walk is the old one relabelled (`assemble_retold`). Relabelling each
line is such a retelling (`assemble_relabelled`).
-/

namespace FeatureTree

/-- The rule with another name, if it is a custom rule. -/
def Rule.rename (name : String → String) : Rule → Rule
  | .custom n => .custom (name n)
  | rule => rule

theorem Rule.rename_injective {name : String → String} (h : Function.Injective name) :
    Function.Injective (Rule.rename name) := by
  intro a b hab
  cases a with
  | custom n =>
    cases b with
    | custom n' => exact congrArg Rule.custom (h (Rule.custom.inj hab))
    | _ => cases hab
  | _ =>
    cases b with
    | custom n' => cases hab
    | _ => exact hab

@[simp] theorem Rule.rename_id (rule : Rule) : rule.rename id = rule := by
  cases rule <;> rfl

/-- Lines are read under their own kind. -/
theorem Frame.kind_of_mem_tokens {f : Frame} (h : f.Throughout Filed) {kind : TokenKind}
    {token : Token} (htoken : token ∈ f.tokens kind) : token.kind = kind := by
  cases h f (.self f) _ ((Reads.token kind).mem_children htoken) with
  | token _ => rfl

/-- **Another way to tell a walk**: what replaces a line is read as the
line relabelled, each kind for what is read of it. -/
structure Retelling extends Relabelling where
  /-- On languages, that of the settings among them. -/
  language : String → String
  /-- On the names of custom rules. -/
  name : String → String
  /-- On lines. -/
  retell : Token → Token
  name_injective : Function.Injective name
  kind_retell : ∀ t, (retell t).kind = t.kind
  title_retell : ∀ t, t.kind.isTitle = true → ∀ description,
    (retell t).titled description = toRelabelling.title (t.titled description)
  language_retell : ∀ t, t.kind = .featureLine → (retell t).language = t.language.map language
  opening_retell : ∀ t, t.kind = .docStringSeparator →
    (retell t).location = toRelabelling.location t.location ∧ (retell t).text = text t.text
  docLine_retell : ∀ t, t.kind = .other →
    (retell t).docLine = toRelabelling.docLine t.docLine
  row_retell : ∀ t, t.kind = .tableRow → (retell t).row = toRelabelling.row t.row
  tags_retell : ∀ t, t.kind = .tagLine → (retell t).tags = t.tags.map toRelabelling.tag

namespace Retelling

variable (r : Retelling)

/-! ## What is retold -/

def rule (rule : Rule) : Rule :=
  rule.rename r.name

def key : Key → Key
  | .token kind => .token kind
  | .rule rule => .rule (r.rule rule)

def event : Event → Event
  | .enter rule => .enter (r.rule rule)
  | .leaf token => .leaf (r.retell token)
  | .exit rule => .exit (r.rule rule)

def settings (s : Settings) : Settings :=
  { s with language := r.language s.language }

def feature (f : Feature) : Feature :=
  { r.toRelabelling.feature f with language := r.language f.language }

def violation : Violation → Violation
  | .crossedExit opened found => .crossedExit (r.rule opened) (r.rule found)
  | .exitAtRoot rule => .exitAtRoot (r.rule rule)
  | .noScenario => .noScenario
  | .missingToken rule kind => .missingToken (r.rule rule) kind

/-- The numbers that the log tells of an uneven table stay. -/
def fault : Fault → Fault
  | .unevenTable location expected actual => .unevenTable (r.location location) expected actual
  | .contract violation => .contract (r.violation violation)

def error : AssemblyError → AssemblyError
  | .unevenTable location => .unevenTable (r.location location)
  | .contract violation => .contract (r.violation violation)

def outcome : Outcome → Outcome
  | .error error => .error (r.error error)
  | .ok made => .ok (made.map r.feature)

mutual

def child : Child → Child
  | .token token => .token (r.retell token)
  | .group rule children => .group (r.rule rule) (entries children)
  | .step s => .step (r.step s)
  | .docString doc => .docString (r.docString doc)
  | .dataTable grid => .dataTable (r.dataTable grid)
  | .background b => .background (r.background b)
  | .definition d => .definition (r.definition d)
  | .examples e => .examples (r.examples e)
  | .description text => .description text
  | .feature f => .feature (r.feature f)

def entries : List (Key × Child) → List (Key × Child)
  | [] => []
  | (key, child') :: rest => (r.key key, child child') :: entries rest

end

def frame (f : Frame) : Frame :=
  { rule := r.rule f.rule, children := r.entries f.children }

/-- An assembly that was told the walk in the other words. -/
def assembly (a : Assembly) : Assembly :=
  { fallback := r.language a.fallback
    root := r.frame a.root
    frames := a.frames.map r.frame }

variable {α β γ δ : Type _}

/-- What is made in the other words: the part, or the failure. -/
def made (retold : α → β) : Except Fault α → Except Fault β
  | .ok part => .ok (retold part)
  | .error fault => .error (r.fault fault)

/-- Making more of a part commutes with retelling it. -/
theorem map_eq_made {retold : α → β} {retold' : γ → δ} {g : α → γ} {g' : β → δ}
    {part : Except Fault α} {part' : Except Fault β} (hpart : part' = r.made retold part)
    (h : ∀ p, g' (retold p) = retold' (g p)) : part'.map g' = r.made retold' (part.map g) := by
  rw [hpart]
  cases part with
  | ok p => exact congrArg Except.ok (h p)
  | error fault => rfl

/-- Where custom rules keep their names, rules and breaches of contract
stay. -/
theorem rule_of_name (h : r.name = id) : r.rule = id := by
  funext rule
  rw [Retelling.rule, h]
  exact rule.rename_id

theorem violation_of_name (h : r.name = id) : r.violation = id := by
  funext violation
  cases violation <;> simp [Retelling.violation, r.rule_of_name h]

/-- Where nothing but names of custom rules is told in other words, a
feature stays, -/
theorem feature_of_unchanged (hmap : r.toRelabelling = .unchanged) (hlanguage : r.language = id) :
    r.feature = id := by
  funext f
  rw [Retelling.feature, hmap, hlanguage, Relabelling.feature_unchanged]
  rfl

/-- and so only an error can change. -/
theorem outcome_of_unchanged (hmap : r.toRelabelling = .unchanged) (hlanguage : r.language = id)
    (told : Outcome) : r.outcome told = told.mapError r.error := by
  cases told with
  | error error => rfl
  | ok made =>
    rw [Retelling.outcome, r.feature_of_unchanged hmap hlanguage, Option.map_id]
    rfl

theorem rule_inj {rule rule' : Rule} : r.rule rule = r.rule rule' ↔ rule = rule' :=
  (Rule.rename_injective r.name_injective).eq_iff

theorem key_inj {key key' : Key} : r.key key = r.key key' ↔ key = key' := by
  cases key <;> cases key' <;> simp [Retelling.key, rule_inj]

theorem entries_eq_map (children : List (Key × Child)) :
    r.entries children = children.map fun entry => (r.key entry.1, r.child entry.2) := by
  induction children with
  | nil => rw [entries]; rfl
  | cons entry rest ih =>
    obtain ⟨key, child⟩ := entry
    rw [entries, ih, List.map_cons]

/-! ## What is read in a frame -/

variable {r} {f : Frame} {rule : Rule}

/-- What is read under a key of the grammar is what was read there,
retold. -/
theorem collect_retold {key : Key} {pick : Child → Option α} {pick' : Child → Option β}
    {retold : α → β} (hkey : r.key key = key)
    (hpick : ∀ child, pick' (r.child child) = (pick child).map retold) :
    (r.frame f).collect key pick' = (f.collect key pick).map retold := by
  rw [Frame.collect, Frame.collect, frame, entries_eq_map, List.filterMap_map, List.map_filterMap]
  congr 1
  funext entry
  have hentry : r.key entry.1 = key ↔ entry.1 = key := by
    rw [← hkey, key_inj, hkey]
  by_cases h : entry.1 = key
  · simp only [Function.comp_apply, if_pos h, if_pos (hentry.mpr h), hpick]
  · simp only [Function.comp_apply, if_neg h, if_neg (mt hentry.mp h), Option.map_none]

theorem first?_retold {key : Key} {pick : Child → Option α} {pick' : Child → Option β}
    {retold : α → β} (hkey : r.key key = key)
    (hpick : ∀ child, pick' (r.child child) = (pick child).map retold) :
    (r.frame f).first? key pick' = (f.first? key pick).map retold := by
  rw [Frame.first?, collect_retold hkey hpick, List.head?_map]
  rfl

theorem tokens_retold (kind : TokenKind) :
    (r.frame f).tokens kind = (f.tokens kind).map r.retell :=
  collect_retold rfl fun child => by cases child <;> rfl

theorem token?_retold (kind : TokenKind) :
    (r.frame f).token? kind = (f.token? kind).map r.retell :=
  first?_retold rfl fun child => by cases child <;> rfl

theorem group?_retold (hrule : r.rule rule = rule) :
    (r.frame f).group? rule = (f.group? rule).map r.frame :=
  first?_retold (congrArg Key.rule hrule) fun child => by cases child <;> rfl

theorem description_retold : (r.frame f).description = f.description := by
  have hfirst : (r.frame f).first? (.rule .description) Child.description? =
      (f.first? (.rule .description) Child.description?).map id :=
    first?_retold rfl fun child => by cases child <;> rfl
  rw [Frame.description, hfirst, Option.map_id]
  rfl

theorem steps_retold : (r.frame f).steps = f.steps.map r.step :=
  collect_retold rfl fun child => by cases child <;> rfl

theorem examples_retold : (r.frame f).examples = f.examples.map r.examples :=
  collect_retold rfl fun child => by cases child <;> rfl

theorem background?_retold : (r.frame f).background? = f.background?.map r.background :=
  first?_retold rfl fun child => by cases child <;> rfl

theorem definitions_retold : (r.frame f).definitions = f.definitions.map r.definition :=
  collect_retold rfl fun child => by cases child <;> rfl

theorem dataTable?_retold : (r.frame f).dataTable? = f.dataTable?.map r.dataTable :=
  first?_retold rfl fun child => by cases child <;> rfl

theorem docString?_retold : (r.frame f).docString? = f.docString?.map r.docString :=
  first?_retold rfl fun child => by cases child <;> rfl

theorem argument_retold : (r.frame f).argument = r.argument f.argument := by
  rw [Frame.argument, Frame.argument, dataTable?_retold, docString?_retold]
  cases f.dataTable? with
  | some grid => rfl
  | none => cases f.docString? <;> rfl

/-! ## What is made of a frame

Here it matters that lines stand under their own kind: a retelling only
keeps what is read of a line of that kind. -/

section

variable (hf : f.Throughout Filed)
include hf

theorem tags_retold : (r.frame f).tags = f.tags.map r.tag := by
  have hgroup : (r.frame f).group? .tags = (f.group? .tags).map r.frame := group?_retold rfl
  rw [Frame.tags, Frame.tags, hgroup]
  cases hlines : f.group? .tags with
  | none => rfl
  | some group =>
    have hkinds := hf.of_group? hlines
    simp only [Option.map_some, tokens_retold, List.flatMap_map, List.map_flatMap]
    refine List.flatMap_congr fun token htoken => ?_
    exact r.tags_retell token (Frame.kind_of_mem_tokens hkinds htoken)

/-- What is made of the first line of a kind alone is retold, or that line
is missing in both. -/
theorem map_require_retold {kind : TokenKind} {g : Token → α} {g' : Token → β} {retold : α → β}
    (hline : ∀ token, token.kind = kind → g' (r.retell token) = retold (g token)) :
    ((r.frame f).require kind).map g' = r.made retold ((f.require kind).map g) := by
  rw [Frame.require, Frame.require, token?_retold]
  cases hfirst : f.token? kind with
  | none => rfl
  | some token =>
    have hkind := Frame.kind_of_mem_tokens hf (List.mem_of_head? hfirst)
    exact congrArg Except.ok (hline token hkind)

theorem titled_retold {kind : TokenKind} (hkind : kind.isTitle = true) :
    (r.frame f).titled kind = r.made r.title (f.titled kind) := by
  rw [Frame.titled, Frame.titled, description_retold]
  exact map_require_retold hf fun token htoken =>
    r.title_retell token (htoken ▸ hkind) f.description

omit hf in
/-- Rows keep their widths, so the same row is odd. -/
theorem oddRow?_retold (rows : List TableRow) :
    oddRow? (rows.map r.row) = (oddRow? rows).map r.row := by
  cases rows with
  | nil => rfl
  | cons first rest =>
    rw [List.map_cons, oddRow?, oddRow?, List.find?_map]
    congr 2
    funext row
    simp only [Function.comp_apply, Relabelling.width_row]

theorem rows_retold : (r.frame f).rows = r.made (List.map r.row) f.rows := by
  have hrows : ((r.frame f).tokens .tableRow).map Token.row =
      ((f.tokens .tableRow).map Token.row).map r.row := by
    rw [tokens_retold, List.map_map, List.map_map]
    refine List.map_congr_left fun token htoken => ?_
    exact r.row_retell token (Frame.kind_of_mem_tokens hf htoken)
  rw [Frame.rows, Frame.rows, hrows, evenRows, evenRows, oddRow?_retold]
  cases oddRow? ((f.tokens .tableRow).map Token.row) with
  | none => rfl
  | some odd =>
    have hexpected : ((((f.tokens .tableRow).map Token.row).map r.row).head?.map TableRow.width) =
        ((f.tokens .tableRow).map Token.row).head?.map TableRow.width := by
      rw [List.head?_map, Option.map_map]
      congr 1
      funext row
      exact Relabelling.width_row _ row
    rw [hexpected]
    simp only [Option.map_some, Relabelling.width_row]
    rfl

theorem docLines_retold :
    ((r.frame f).tokens .other).map Token.docLine =
      ((f.tokens .other).map Token.docLine).map r.docLine := by
  rw [tokens_retold, List.map_map, List.map_map]
  refine List.map_congr_left fun token htoken => ?_
  exact r.docLine_retell token (Frame.kind_of_mem_tokens hf htoken)

/-- Descriptions are looked into, and so they stay. -/
theorem toDescription_retold : (r.frame f).toDescription = f.toDescription := by
  have htexts (tokens : List Token) :
      tokens.map Token.text = (tokens.map Token.docLine).map DocLine.text := by
    rw [List.map_map]
    rfl
  rw [Frame.toDescription, Frame.toDescription, htexts, docLines_retold hf, List.map_map, htexts]
  rfl

theorem toStep_retold : (r.frame f).toStep = r.made r.step f.toStep := by
  rw [Frame.toStep, Frame.toStep, argument_retold]
  refine map_require_retold hf fun token htoken => ?_
  have htitle := Section.mk.inj (r.title_retell token (by rw [htoken]; rfl) "")
  rw [htitle.1, htitle.2.1, htitle.2.2.1]
  rfl

theorem toDocString_retold : (r.frame f).toDocString = r.made r.docString f.toDocString := by
  rw [Frame.toDocString, Frame.toDocString, docLines_retold hf]
  refine map_require_retold hf fun token htoken => ?_
  obtain ⟨hlocation, htext⟩ := r.opening_retell token htoken
  rw [hlocation, htext]
  rfl

theorem toDataTable_retold : (r.frame f).toDataTable = r.made r.dataTable f.toDataTable := by
  rw [Frame.toDataTable, Frame.toDataTable]
  exact r.map_eq_made (rows_retold hf) fun _ => rfl

theorem toBackground_retold : (r.frame f).toBackground = r.made r.background f.toBackground := by
  rw [Frame.toBackground, Frame.toBackground, steps_retold]
  exact r.map_eq_made (titled_retold hf rfl) fun _ => rfl

theorem toScenario_retold {kind : TokenKind} (hkind : kind.isTitle = true) (tags : List Tag) :
    (r.frame f).toScenario kind (tags.map r.tag) = r.made r.scenario (f.toScenario kind tags) := by
  rw [Frame.toScenario, Frame.toScenario, steps_retold]
  exact r.map_eq_made (titled_retold hf hkind) fun _ => rfl

theorem toOutline_retold (tags : List Tag) :
    (r.frame f).toOutline (tags.map r.tag) = r.made r.outline (f.toOutline tags) := by
  rw [Frame.toOutline, Frame.toOutline, examples_retold]
  exact r.map_eq_made (toScenario_retold hf rfl tags) fun _ => rfl

theorem toDefinition_retold : (r.frame f).toDefinition = r.made r.definition f.toDefinition := by
  have hscenario : (r.frame f).group? .scenario = (f.group? .scenario).map r.frame :=
    group?_retold rfl
  have houtline : (r.frame f).group? .outline = (f.group? .outline).map r.frame :=
    group?_retold rfl
  rw [Frame.toDefinition, Frame.toDefinition, tags_retold hf, hscenario, houtline]
  cases hfirst : f.group? .scenario with
  | some scenario =>
    exact r.map_eq_made (toScenario_retold (hf.of_group? hfirst) rfl f.tags) fun _ => rfl
  | none =>
    cases hsecond : f.group? .outline with
    | some outline =>
      exact r.map_eq_made (toOutline_retold (hf.of_group? hsecond) f.tags) fun _ => rfl
    | none => rfl

/-- The title is asked for first in both. -/
theorem toExamples_retold : (r.frame f).toExamples = r.made r.examples f.toExamples := by
  rw [Frame.toExamples, Frame.toExamples, titled_retold hf rfl, rows_retold hf, tags_retold hf]
  cases f.titled .examplesLine with
  | error fault => rfl
  | ok title => cases f.rows <;> rfl

omit hf in
theorem header_retold : (r.frame f).header = r.frame f.header := by
  have hgroup : (r.frame f).group? .featureHeader = (f.group? .featureHeader).map r.frame :=
    group?_retold rfl
  rw [Frame.header, Frame.header, hgroup]
  cases f.group? .featureHeader <;> rfl

theorem toFeature_retold (fallback : String) :
    (r.frame f).toFeature (r.language fallback) = r.made r.feature (f.toFeature fallback) := by
  rw [Frame.toFeature, Frame.toFeature, header_retold, description_retold, background?_retold,
    definitions_retold, tags_retold hf.header]
  refine map_require_retold hf.header fun token htoken => ?_
  rw [r.title_retell token (by rw [htoken]; rfl), r.language_retell token htoken]
  have hlanguage : (token.language.map r.language).getD (r.language fallback) =
      r.language (token.language.getD fallback) := by cases token.language <;> rfl
  rw [hlanguage]
  rfl

/-- **What a retold frame is closed to** is what the frame was closed to,
retold, and where it cannot be closed it fails for the same. -/
theorem close_retold (fallback : String) :
    (r.frame f).close (r.language fallback) = r.made r.child (f.close fallback) := by
  have hrule : (r.frame f).rule = r.rule f.rule := rfl
  rw [Frame.close, Frame.close, hrule]
  cases f.rule with
  | step =>
    exact r.map_eq_made (toStep_retold hf) fun _ => rfl
  | docString =>
    exact r.map_eq_made (toDocString_retold hf) fun _ => rfl
  | dataTable =>
    exact r.map_eq_made (toDataTable_retold hf) fun _ => rfl
  | background =>
    exact r.map_eq_made (toBackground_retold hf) fun _ => rfl
  | definition =>
    exact r.map_eq_made (toDefinition_retold hf) fun _ => rfl
  | examples =>
    exact r.map_eq_made (toExamples_retold hf) fun _ => rfl
  | feature =>
    exact r.map_eq_made (toFeature_retold hf fallback) fun _ => rfl
  | description =>
    exact congrArg (fun text => Except.ok (Child.description text)) (toDescription_retold hf)
  | root | featureHeader | scenario | outline | tags | custom _ => rfl

end

/-! ## What is delivered -/

variable {a : Assembly}

theorem assembly_file (key : Key) (child : Child) :
    r.assembly (a.file key child) = (r.assembly a).file (r.key key) (r.child child) := by
  obtain ⟨fallback, root, frames⟩ := a
  have hfile (f : Frame) : r.frame (f.file key child) =
      (r.frame f).file (r.key key) (r.child child) := by
    simp [frame, Frame.file, entries_eq_map]
  cases frames with
  | nil => exact congrArg (Assembly.mk _ · _) (hfile root)
  | cons inner outer => exact congrArg (fun f => Assembly.mk _ _ (f :: _)) (hfile inner)

/-- **A retold event does to a retold assembly what the event does**, and
is refused for the same. -/
theorem step_retold (h : a.Throughout Filed) (event : Event) :
    (r.assembly a).step (r.event event) =
      (r.assembly (a.step event).1, (a.step event).2.map r.error) := by
  obtain ⟨fallback, root, frames⟩ := a
  cases event with
  | leaf token =>
    refine Prod.ext ?_ rfl
    have hfile := assembly_file (r := r) (a := ⟨fallback, root, frames⟩) (.token token.kind)
      (.token token)
    refine Eq.trans ?_ hfile.symm
    change (r.assembly ⟨fallback, root, frames⟩).file (.token (r.retell token).kind) _ = _
    rw [r.kind_retell]
    rfl
  | enter rule => rfl
  | exit rule =>
    cases frames with
    | nil =>
      rw [Assembly.step_exit_of_no_frames rfl]
      exact Assembly.step_exit_of_no_frames rfl (r.rule rule)
    | cons inner outer =>
      by_cases hrule : inner.rule = rule
      · subst hrule
        have hinner : inner.Throughout Filed := h.frames inner List.mem_cons_self
        have hold := Assembly.step_exit ⟨fallback, root, outer⟩ inner
        have hnew := Assembly.step_exit (r.assembly ⟨fallback, root, outer⟩) (r.frame inner)
        have hclose : (r.frame inner).close (r.assembly ⟨fallback, root, outer⟩).fallback =
            r.made r.child (inner.close fallback) := close_retold hinner fallback
        rw [hclose] at hnew
        refine Eq.trans hnew ?_
        rw [hold]
        cases inner.close fallback with
        | ok child =>
          have hfile := assembly_file (r := r) (a := ⟨fallback, root, outer⟩) (.rule inner.rule)
            child
          exact Prod.ext hfile.symm rfl
        | error fault => cases fault <;> rfl
      · rw [Assembly.step_exit_of_ne rfl hrule]
        exact Assembly.step_exit_of_ne rfl (mt r.rule_inj.mp hrule)

/-- So does a whole run. -/
theorem run_retold (h : a.Throughout Filed) (events : List Event) :
    (r.assembly a).run (events.map r.event) =
      match a.run events with
      | .ok b => .ok (r.assembly b)
      | .error error => .error (r.error error) := by
  induction events generalizing a with
  | nil => rfl
  | cons event rest ih =>
    have hnext : (a.step event).1.Throughout Filed :=
      h.step (fun _ _ _ _ hcloses => filed_of_closes hcloses) fun token _ => .token token
    rw [List.map_cons, Assembly.run, Assembly.run, step_retold h]
    generalize a.step event = next at hnext ⊢
    obtain ⟨b, answer⟩ := next
    cases answer with
    | none => exact ih hnext
    | some error => rfl

theorem finish_retold : (r.assembly a).finish = a.finish.map r.feature :=
  first?_retold rfl fun child => by cases child <;> rfl

/-- **What is told in other words comes out in other words**, and in no
other way: the walk retold fails where the walk does, and for the same
reason, and otherwise gives its feature retold. -/
theorem assemble_retold (settings : Settings) (events : List Event) :
    assemble (r.settings settings) (events.map r.event) = r.outcome (assemble settings events) := by
  have hstart : (Assembly.start settings).Throughout Filed :=
    ⟨Frame.throughout_empty .root, List.forall_mem_nil _⟩
  have hrun := run_retold (r := r) hstart events
  change ((r.assembly (Assembly.start settings)).run (events.map r.event)).map Assembly.finish = _
  rw [hrun, assemble]
  cases (Assembly.start settings).run events with
  | error error => rfl
  | ok b => exact congrArg Except.ok finish_retold

end Retelling

/-! ## Relabelled lines -/

namespace Relabelling

variable (m : Relabelling)

/-- Relabelling each line retells the walk. -/
def retelling : Retelling where
  toRelabelling := m
  language := id
  name := id
  retell := m.token
  name_injective := Function.injective_id
  kind_retell _ := rfl
  title_retell t htitle description := by
    have hother : t.kind ≠ .other := by
      intro hkind
      rw [hkind] at htitle
      cases htitle
    simp [Token.titled, token, title, hother]
  language_retell t _ := by simp [token]
  opening_retell t hkind := ⟨rfl, by simp [token, hkind]⟩
  docLine_retell t hkind := by simp [Token.docLine, token, docLine, hkind]
  row_retell t _ := by simp [Token.row, token, row, cell, Token.locate, Location.atColumn, location]
  tags_retell t _ := by simp [Token.tags, token, tag, Token.locate, Location.atColumn, location]

theorem event_retelling : m.retelling.event = m.event := by
  funext event
  have hrule := congrFun (m.retelling.rule_of_name rfl)
  cases event with
  | leaf token => rfl
  | enter rule => exact congrArg Event.enter (hrule rule)
  | exit rule => exact congrArg Event.exit (hrule rule)

theorem outcome_retelling : m.retelling.outcome = m.outcome := by
  funext told
  cases told with
  | ok made => rfl
  | error error =>
    cases error with
    | unevenTable location => rfl
    | contract violation =>
      exact congrArg (fun v => Except.error (AssemblyError.contract v))
        (congrFun (m.retelling.violation_of_name rfl) violation)

end Relabelling

/-- **Places and copied texts are carried, never computed.** Whatever is
done to line numbers, columns, keywords, span texts and the texts of all
lines but plain ones, doing it to each line of a walk does it to what
comes of the walk, and nothing else: the place of an uneven table, or
every place, keyword, title, step, content type, tag and cell of the
feature. -/
theorem assemble_relabelled (m : Relabelling) (settings : Settings) (events : List Event) :
    assemble settings (events.map m.event) = m.outcome (assemble settings events) := by
  have hretold := m.retelling.assemble_retold settings events
  rwa [m.event_retelling, m.outcome_retelling] at hretold

end FeatureTree
