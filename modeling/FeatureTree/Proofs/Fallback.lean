import FeatureTree.Proofs.Localisation
import FeatureTree.Proofs.Retelling
/-!
# What the settings decide

The settings decide nothing but the language of a feature whose line
names none. Two runs over the same events, each under its own settings,
become the same run once every language is left out (`withoutLanguage`),
so they fail alike, tell nothing alike, or tell features that differ in
their language alone. Which language that is follows from the line that
the feature is made from (`IsTitleLine`).
-/

namespace FeatureTree

/-! ## Leaving languages out -/

/-- The walk retold without its languages. -/
def withoutLanguage : Retelling where
  toRelabelling := .unchanged
  language := fun _ => ""
  name := id
  retell t := { t with language := t.language.map fun _ => "" }
  name_injective := Function.injective_id
  kind_retell _ := rfl
  title_retell _ _ _ := rfl
  language_retell _ _ := rfl
  opening_retell _ _ := ⟨rfl, rfl⟩
  docLine_retell _ _ := rfl
  row_retell t _ := (congrFun Relabelling.row_unchanged t.row).symm
  tags_retell t _ := (List.map_id t.tags).symm

theorem feature_withoutLanguage (f : Feature) :
    withoutLanguage.feature f = { f with language := "" } :=
  congrArg (fun g : Feature => { g with language := "" }) (congrFun Relabelling.feature_unchanged f)

theorem error_withoutLanguage (error : AssemblyError) : withoutLanguage.error error = error := by
  cases error with
  | unevenTable location => rfl
  | contract violation =>
    exact congrArg AssemblyError.contract
      (congrFun (withoutLanguage.violation_of_name rfl) violation)

/-- Of the settings, a run looks at the language alone. -/
theorem assemble_of_language_eq {settings settings' : Settings}
    (h : settings.language = settings'.language) (events : List Event) :
    assemble settings events = assemble settings' events := by
  have hstart : Assembly.start settings = Assembly.start settings' := by
    rw [Assembly.start, Assembly.start, h]
  rw [assemble, assemble, hstart]

/-- **Without languages, all settings come to the same.** -/
theorem outcome_withoutLanguage (settings settings' : Settings) (events : List Event) :
    withoutLanguage.outcome (assemble settings events) =
      withoutLanguage.outcome (assemble settings' events) := by
  rw [← withoutLanguage.assemble_retold, ← withoutLanguage.assemble_retold]
  exact assemble_of_language_eq rfl _

/-! ## The line that decides -/

/-- **The line that the feature of a walk is made from**: the first feature
line in the first header of the first feature block outside all rules. -/
def IsTitleLine (events : List Event) (line : Token) : Prop :=
  ∃ before body, IsFirstOutermost .feature events before (Body.events body) ∧
    Body.line? .featureLine (Body.header body) = some line

variable {settings : Settings} {events before : List Event} {body : Body} {line : Token}
  {f : Feature}

/-- The first feature block outside all rules reads as the feature told. -/
theorem IsFirstOutermost.feature?_eq (hfirst : IsFirstOutermost .feature events before body.events)
    (h : assemble settings events = .ok (some f)) :
    Body.feature? settings.language body = some f := by
  have halone := hfirst.assemble_eq h
  have hevents : Body.events [.scope .feature body] =
      .enter .feature :: (body.events ++ [.exit .feature]) := by simp [Body.events, Block.events]
  rw [← hevents] at halone
  obtain ⟨-, hmade⟩ := assemble_events_eq_ok_iff.mp halone
  simpa using hmade

/-- Where a feature is told, there is the line it is made from. -/
theorem exists_isTitleLine (h : assemble settings events = .ok (some f)) :
    ∃ line, IsTitleLine events line := by
  obtain ⟨_, _, hblock⟩ := exists_isOutermost h
  obtain ⟨before, inside, hfirst⟩ := hblock.exists_first
  obtain ⟨-, body, -, rfl⟩ := hfirst.exists_bodies (errors_brackets_of_assemble h)
  obtain ⟨line, hline, -⟩ := Option.map_eq_some_iff.mp (hfirst.feature?_eq h)
  exact ⟨line, before, body, hfirst, hline⟩

/-- **What the feature takes from its line**: place, keyword and name, and
the language if the line has one. -/
theorem IsTitleLine.of_assemble (hline : IsTitleLine events line)
    (h : assemble settings events = .ok (some f)) :
    f.toSection = line.titled f.description ∧
      f.language = line.language.getD settings.language := by
  obtain ⟨before, body, hfirst, hread⟩ := hline
  have hmade := hfirst.feature?_eq h
  rw [Body.feature?, hread] at hmade
  obtain rfl := Option.some.inj hmade
  exact ⟨rfl, rfl⟩

/-! ## Two runs -/

/-- **What two runs over the same events come to under different
settings.** -/
inductive SameButLanguage (settings settings' : Settings) (events : List Event) :
    Outcome → Outcome → Prop where
  /-- Both fail, with the same error. -/
  | refused (error : AssemblyError) :
      SameButLanguage settings settings' events (.error error) (.error error)
  /-- Neither tells a feature. -/
  | nothing : SameButLanguage settings settings' events (.ok none) (.ok none)
  /-- Both tell a feature, made from the same line and the same but for the
  language. This is that of the line, even an empty one, and where the line
  has none, the language that each has in its settings. -/
  | told {line : Token} {f g : Feature} (hline : IsTitleLine events line)
      (hf : f.toSection = line.titled f.description) (hrest : g = { f with language := g.language })
      (hlanguage : f.language = line.language.getD settings.language)
      (hlanguage' : g.language = line.language.getD settings'.language) :
      SameButLanguage settings settings' events (.ok (some f)) (.ok (some g))

/-- Outcomes that are the same without languages differ in nothing else. -/
theorem eq_of_withoutLanguage {told told' : Outcome}
    (h : withoutLanguage.outcome told = withoutLanguage.outcome told') :
    (∃ error, told = .error error ∧ told' = .error error) ∨ (told = .ok none ∧ told' = .ok none) ∨
      ∃ f g, told = .ok (some f) ∧ told' = .ok (some g) ∧ g = { f with language := g.language } := by
  match told, told' with
  | .error error, .error error' =>
    have herror := Except.error.inj h
    rw [error_withoutLanguage, error_withoutLanguage] at herror
    exact .inl ⟨error, rfl, congrArg Except.error herror.symm⟩
  | .ok none, .ok none => exact .inr (.inl ⟨rfl, rfl⟩)
  | .ok (some f), .ok (some g) =>
    have hbare := Option.some.inj (Except.ok.inj h)
    rw [feature_withoutLanguage, feature_withoutLanguage] at hbare
    have hrest := congrArg (fun bare : Feature => { bare with language := g.language }) hbare.symm
    exact .inr (.inr ⟨f, g, rfl, rfl, hrest⟩)
  | .ok none, .ok (some _) | .ok (some _), .ok none => cases h

/-- **The settings decide the fallback language and nothing else.** Under
any two settings a sequence of events fails alike, tells nothing alike, or
tells features that differ in their language alone, and how much is logged
makes no difference at all. -/
theorem assemble_sameButLanguage (settings settings' : Settings) (events : List Event) :
    SameButLanguage settings settings' events (assemble settings events)
        (assemble settings' events) ∧
      ∀ severity, assemble (settings.setSeverity severity) events = assemble settings events := by
  refine ⟨?_, fun severity => assemble_of_language_eq rfl events⟩
  obtain ⟨error, hmade, hmade'⟩ | ⟨hmade, hmade'⟩ | ⟨f, g, hmade, hmade', hrest⟩ :=
    eq_of_withoutLanguage (outcome_withoutLanguage settings settings' events)
  · rw [hmade, hmade']
    exact .refused error
  · rw [hmade, hmade']
    exact .nothing
  · obtain ⟨line, hline⟩ := exists_isTitleLine hmade
    obtain ⟨htitle, hlanguage⟩ := hline.of_assemble hmade
    obtain ⟨-, hlanguage'⟩ := hline.of_assemble hmade'
    rw [hmade, hmade']
    exact .told hline htitle hrest hlanguage hlanguage'

end FeatureTree
