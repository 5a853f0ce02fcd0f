import FeatureTree.Proofs.Fallback
import FeatureTree.Proofs.Texts
/-!
# Settings changed in turn

Settings start from the defaults and are changed in turn. A change is
refused for the severity or the language it is given (`Refuses`), and then
it changes nothing, not even the field that it was given rightly.
Otherwise it writes some of the fields (`WritesSeverity`,
`WritesLanguage`). So each field holds what the last change that writes it
has written (`LastWritten`), whatever was refused in between, and the
language is always a trimmed text, which a feature without one falls back
to (`lastWriterWins`).
-/

namespace FeatureTree

/-! ## What a change is given -/

/-- A variable of the environment holds a text. One that is not set, or
whose bytes are not those of any text, holds none. -/
def Holds (value : Option ByteArray) (text : String) : Prop :=
  value = some text.toUTF8

/-- The text of a variable is the one it holds. -/
theorem text_eq_some_iff {value : Option ByteArray} {text : String} :
    Environment.text value = some text ↔ Holds value text := by
  cases value with
  | none => exact ⟨nofun, nofun⟩
  | some bytes =>
    rw [Holds, Option.some_inj]
    change String.fromUTF8? bytes = some text ↔ bytes = text.toUTF8
    rw [String.fromUTF8?]
    split
    · next hvalid =>
      constructor
      · intro htext
        rw [← Option.some.inj htext]
        rfl
      · rintro rfl
        rfl
    · next hvalid =>
      refine ⟨nofun, ?_⟩
      rintro rfl
      exact absurd text.isValidUTF8 hvalid

/-- A variable holds one text at most. -/
theorem Holds.unique {value : Option ByteArray} {text text' : String} (h : Holds value text)
    (h' : Holds value text') : text = text' :=
  Option.some.inj ((text_eq_some_iff.mpr h).symm.trans (text_eq_some_iff.mpr h'))

/-- A variable is read for the text it holds, or gives the default. -/
theorem readOr_cases {α : Type} (read : String → Except SettingError α) (default : α)
    (value : Option ByteArray) :
    (∃ text, Holds value text ∧
      Settings.readOr read default (Environment.text value) = read text) ∨
    (∀ text, ¬ Holds value text) ∧
      Settings.readOr read default (Environment.text value) = .ok default := by
  cases htext : Environment.text value with
  | some text => exact .inl ⟨text, text_eq_some_iff.mp htext, rfl⟩
  | none =>
    refine .inr ⟨fun text hholds => ?_, rfl⟩
    rw [text_eq_some_iff.mpr hholds] at htext
    cases htext

namespace Settings.Change

/-- The name of a severity that a change is given to read. -/
inductive NamesSeverity : Change → String → Prop where
  | environment {env : Environment} {name : String} (hname : Holds env.severity name) :
      NamesSeverity (.environment env) name

/-- The language that a change is given to read. -/
inductive GivesLanguage : Change → String → Prop where
  | environment {env : Environment} {given : String} (hgiven : Holds env.language given) :
      GivesLanguage (.environment env) given
  | override (severity : Option Severity) (given : String) :
      GivesLanguage (.override severity (some given)) given

/-- **What a change is refused for.** A severity comes before the
language. -/
inductive Refuses (c : Change) : SettingError → Prop where
  /-- No severity has the name. -/
  | severity {name : String} (hname : c.NamesSeverity name)
      (hunknown : Severity.named? name = none) : Refuses c (.unknownSeverity name)
  /-- The language is all white space. -/
  | language {given : String} (hnamed : ∀ name, c.NamesSeverity name → Severity.named? name ≠ none)
      (hgiven : c.GivesLanguage given) (hspace : ∀ ch ∈ given.toList, isWhiteSpace ch = true) :
      Refuses c .emptyLanguage

/-- A change that is not refused. -/
def Accepted (c : Change) : Prop :=
  ∀ error, ¬ c.Refuses error

/-- What it is given to read can all be read. -/
theorem accepted_of {c : Change}
    (hnamed : ∀ name, c.NamesSeverity name → Severity.named? name ≠ none)
    (hmarked : ∀ given, c.GivesLanguage given → ¬ ∀ ch ∈ given.toList, isWhiteSpace ch = true) :
    c.Accepted := by
  intro error hrefused
  cases hrefused with
  | severity hname hunknown => exact hnamed _ hname hunknown
  | language _ hgiven hspace => exact hmarked _ hgiven hspace

/-- **The severity that a change writes**, if it writes one. -/
inductive WritesSeverity : Change → Severity → Prop where
  | reset : WritesSeverity .reset .info
  /-- The one that the environment names. -/
  | named {env : Environment} {name : String} {s : Severity} (hname : Holds env.severity name)
      (hnamed : Severity.named? name = some s) : WritesSeverity (.environment env) s
  /-- The default, where the environment names none. -/
  | unset {env : Environment} (hunset : ∀ name, ¬ Holds env.severity name) :
      WritesSeverity (.environment env) .info
  | override (s : Severity) (language : Option String) :
      WritesSeverity (.override (some s) language) s
  | severity (s : Severity) : WritesSeverity (.severity s) s

/-- **The language that a change writes**, if it writes one. -/
inductive WritesLanguage : Change → String → Prop where
  | reset : WritesLanguage .reset "en"
  /-- The one it is given, trimmed. -/
  | given {c : Change} {given language : String} (hgiven : c.GivesLanguage given)
      (htrims : Trims given language) : WritesLanguage c language
  /-- The default, where the environment gives none. -/
  | unset {env : Environment} (hunset : ∀ given, ¬ Holds env.language given) :
      WritesLanguage (.environment env) "en"

/-! ## One change -/

variable {c : Change} {s : Settings}

theorem NamesSeverity.unique {name name' : String} (h : c.NamesSeverity name)
    (h' : c.NamesSeverity name') : name = name' := by
  cases h with
  | environment hname =>
    cases h' with
    | environment hname' => exact hname.unique hname'

theorem GivesLanguage.unique {given given' : String} (h : c.GivesLanguage given)
    (h' : c.GivesLanguage given') : given = given' := by
  cases h with
  | environment hgiven =>
    cases h' with
    | environment hgiven' => exact hgiven.unique hgiven'
  | override _ _ =>
    cases h' with
    | override _ _ => rfl

/-- A change is refused for one thing. -/
theorem Refuses.unique {error error' : SettingError} (h : c.Refuses error)
    (h' : c.Refuses error') : error = error' := by
  cases h with
  | severity hname hunknown =>
    cases h' with
    | severity hname' _ => rw [hname.unique hname']
    | language hnamed _ _ => exact absurd hunknown (hnamed _ hname)
  | language hnamed _ _ =>
    cases h' with
    | severity hname hunknown => exact absurd hunknown (hnamed _ hname)
    | language _ _ _ => rfl

/-- It writes one severity at most. -/
theorem WritesSeverity.unique {v v' : Severity} (h : c.WritesSeverity v)
    (h' : c.WritesSeverity v') : v = v' := by
  cases h with
  | reset | override _ _ | severity _ =>
    cases h'
    rfl
  | named hname hnamed =>
    cases h' with
    | named hname' hnamed' =>
      obtain rfl := hname.unique hname'
      exact Option.some.inj (hnamed.symm.trans hnamed')
    | unset hunset => exact absurd hname (hunset _)
  | unset hunset =>
    cases h' with
    | named hname _ => exact absurd hname (hunset _)
    | unset _ => rfl

/-- And one language. -/
theorem WritesLanguage.unique {v v' : String} (h : c.WritesLanguage v)
    (h' : c.WritesLanguage v') : v = v' := by
  cases h with
  | reset =>
    cases h' with
    | reset => rfl
    | given hgiven _ => cases hgiven
  | unset hunset =>
    cases h' with
    | unset _ => rfl
    | given hgiven _ =>
      cases hgiven with
      | environment hholds => exact absurd hholds (hunset _)
  | given hgiven htrims =>
    cases h' with
    | reset => cases hgiven
    | unset hunset =>
      cases hgiven with
      | environment hholds => exact absurd hholds (hunset _)
    | given hgiven' htrims' =>
      obtain rfl := hgiven.unique hgiven'
      exact htrims.trim_eq.symm.trans htrims'.trim_eq

/-- What is written is a trimmed text. -/
theorem WritesLanguage.isTrimmed {v : String} (h : c.WritesLanguage v) : IsTrimmed v := by
  cases h with
  | reset | unset _ => exact isTrimmed_en
  | given _ htrims => exact htrims.trimmed

/-- A field after a change: what the change writes, or what it was. -/
def Updates {α : Type _} (Writes : Change → α → Prop) (c : Change) (old new : α) : Prop :=
  Writes c new ∨ (∀ value, ¬ Writes c value) ∧ new = old

end Settings.Change

namespace Settings

open Change

/-- A language is refused for being all white space, and is trimmed
otherwise. -/
theorem readLanguage_cases (given : String) :
    (readLanguage given = .error .emptyLanguage ∧ ∀ c ∈ given.toList, isWhiteSpace c = true) ∨
      readLanguage given = .ok (trim given) ∧ Trims given (trim given) ∧
        ¬ ∀ c ∈ given.toList, isWhiteSpace c = true := by
  by_cases hempty : trim given = ""
  · left
    exact ⟨if_pos hempty, trim_eq_empty_iff.mp hempty⟩
  · right
    exact ⟨if_neg hempty, trims_trim hempty, fun hspace => hempty (trim_eq_empty_iff.mpr hspace)⟩

/-- What a host program gives is refused, or is what there is from then
on. -/
theorem override_cases (s : Settings) (severity : Option Severity) (language : Option String) :
    (∃ error, s.override severity language = .error error ∧
      (Change.override severity language).Refuses error) ∨
    ∃ s', s.override severity language = .ok s' ∧ (Change.override severity language).Accepted ∧
      Updates WritesSeverity (.override severity language) s.severity s'.severity ∧
      Updates WritesLanguage (.override severity language) s.language s'.language := by
  have hseverity : Updates WritesSeverity (.override severity language) s.severity
      (severity.getD s.severity) := by
    cases severity with
    | some v => exact .inl (.override v language)
    | none => exact .inr ⟨nofun, rfl⟩
  cases language with
  | none =>
    right
    have hkept : ∀ value, ¬ WritesLanguage (.override severity none) value := by
      intro value hwrites
      cases hwrites with
      | given hgiven _ => cases hgiven
    exact ⟨_, rfl, accepted_of nofun nofun, hseverity, .inr ⟨hkept, rfl⟩⟩
  | some given =>
    have hgiven : (Change.override severity (some given)).GivesLanguage given := .override _ _
    rcases readLanguage_cases given with ⟨hread, hspace⟩ | ⟨hread, htrims, hmarked⟩
    · left
      refine ⟨.emptyLanguage, ?_, .language nofun hgiven hspace⟩
      rw [override, readOr, hread]
      rfl
    · right
      refine ⟨{ severity := severity.getD s.severity, language := trim given }, ?_, ?_, hseverity,
        .inl (.given hgiven htrims)⟩
      · rw [override, readOr, hread]
        rfl
      · refine accepted_of nofun fun given' hgiven' => ?_
        rw [hgiven'.unique hgiven]
        exact hmarked

/-- The severity of the environment is unknown, or is written. -/
theorem readSeverity_cases (env : Environment) :
    (∃ name, (Change.environment env).NamesSeverity name ∧ Severity.named? name = none ∧
      readOr readSeverity .info (Environment.text env.severity) =
        .error (.unknownSeverity name)) ∨
    ∃ v, readOr readSeverity .info (Environment.text env.severity) = .ok v ∧
      WritesSeverity (.environment env) v ∧
      ∀ name, (Change.environment env).NamesSeverity name → Severity.named? name ≠ none := by
  rcases readOr_cases readSeverity .info env.severity with ⟨name, hholds, hread⟩ | ⟨hunset, hread⟩
  · have hname : (Change.environment env).NamesSeverity name := .environment hholds
    rw [hread, readSeverity]
    cases hnamed : Severity.named? name with
    | none => exact .inl ⟨name, hname, hnamed, rfl⟩
    | some v =>
      right
      refine ⟨v, rfl, .named hholds hnamed, fun name' hname' => ?_⟩
      rw [hname'.unique hname, hnamed]
      exact Option.some_ne_none v
  · right
    refine ⟨.info, hread, .unset hunset, fun name hname => ?_⟩
    cases hname with
    | environment hholds => exact absurd hholds (hunset name)

/-- The language of the environment is all white space, or is written. -/
theorem readLanguage_environment_cases (env : Environment) :
    (∃ given, (Change.environment env).GivesLanguage given ∧
      (∀ c ∈ given.toList, isWhiteSpace c = true) ∧
      readOr readLanguage "en" (Environment.text env.language) = .error .emptyLanguage) ∨
    ∃ v, readOr readLanguage "en" (Environment.text env.language) = .ok v ∧
      WritesLanguage (.environment env) v ∧
      ∀ given, (Change.environment env).GivesLanguage given →
        ¬ ∀ c ∈ given.toList, isWhiteSpace c = true := by
  rcases readOr_cases readLanguage "en" env.language with ⟨given, hholds, hread⟩ | ⟨hunset, hread⟩
  · have hgiven : (Change.environment env).GivesLanguage given := .environment hholds
    rw [hread]
    rcases readLanguage_cases given with ⟨hempty, hspace⟩ | ⟨htrimmed, htrims, hmarked⟩
    · exact .inl ⟨given, hgiven, hspace, hempty⟩
    · right
      refine ⟨trim given, htrimmed, .given hgiven htrims, fun given' hgiven' => ?_⟩
      rw [hgiven'.unique hgiven]
      exact hmarked
  · right
    refine ⟨"en", hread, .unset hunset, fun given hgiven => ?_⟩
    cases hgiven with
    | environment hholds => exact absurd hholds (hunset given)

/-- The environment is read for the severity, and then for the language. -/
theorem ofEnvironment_eq_bind (env : Environment) :
    ofEnvironment env =
      (readOr readSeverity .info (Environment.text env.severity)).bind fun severity =>
        (readOr readLanguage "en" (Environment.text env.language)).bind fun language =>
          .ok { severity, language } := rfl

/-- The environment is refused, or it writes both fields. -/
theorem environment_cases (env : Environment) :
    (∃ error, ofEnvironment env = .error error ∧ (Change.environment env).Refuses error) ∨
    ∃ s', ofEnvironment env = .ok s' ∧ (Change.environment env).Accepted ∧
      WritesSeverity (.environment env) s'.severity ∧
      WritesLanguage (.environment env) s'.language := by
  rw [ofEnvironment_eq_bind]
  rcases readSeverity_cases env with ⟨name, hname, hunknown, hread⟩ | ⟨v, hread, hwrites, hnamed⟩
  · -- The language is not looked at behind an unknown severity.
    left
    rw [hread]
    exact ⟨_, rfl, .severity hname hunknown⟩
  · rw [hread]
    rcases readLanguage_environment_cases env with
      ⟨given, hgiven, hspace, hread'⟩ | ⟨language, hread', hwrites', hmarked⟩
    · left
      rw [hread']
      exact ⟨_, rfl, .language hnamed hgiven hspace⟩
    · right
      rw [hread']
      exact ⟨_, rfl, accepted_of hnamed hmarked, hwrites, hwrites'⟩

/-- **One change** is refused for something, or is accepted and updates
either field by what it writes. -/
theorem change_cases (s : Settings) (c : Change) :
    (∃ error, s.change c = .error error ∧ c.Refuses error) ∨
    ∃ s', s.change c = .ok s' ∧ c.Accepted ∧
      Updates WritesSeverity c s.severity s'.severity ∧
      Updates WritesLanguage c s.language s'.language := by
  cases c with
  | reset =>
    right
    exact ⟨{}, rfl, accepted_of nofun nofun, .inl .reset, .inl .reset⟩
  | environment env =>
    rcases environment_cases env with hrefused | ⟨s', hmade, haccepted, hseverity, hlanguage⟩
    · exact .inl hrefused
    · exact .inr ⟨s', hmade, haccepted, .inl hseverity, .inl hlanguage⟩
  | override severity language => exact s.override_cases severity language
  | severity v =>
    right
    have hkept : ∀ value, ¬ WritesLanguage (.severity v) value := by
      intro value hwrites
      cases hwrites with
      | given hgiven _ => cases hgiven
    exact ⟨s.setSeverity v, rfl, accepted_of nofun nofun, .inl (.severity v), .inr ⟨hkept, rfl⟩⟩

/-- A change fails just where it is refused. -/
theorem change_eq_error_iff {s : Settings} {c : Change} {error : SettingError} :
    s.change c = .error error ↔ c.Refuses error := by
  rcases s.change_cases c with ⟨error', hmade, hrefused⟩ | ⟨s', hmade, haccepted, -⟩
  · rw [hmade]
    constructor
    · intro herror
      rw [← Except.error.inj herror]
      exact hrefused
    · intro hrefused'
      rw [hrefused.unique hrefused']
  · rw [hmade]
    exact ⟨nofun, fun hrefused => absurd hrefused (haccepted error)⟩

/-! ## A run of changes -/

/-- **The settings after some changes in turn**, from the defaults on. -/
def after (changes : List Change) : Settings :=
  changes.foldl adopt {}

/-- **The value that a field is left with**: what the last accepted change
that writes it has written, and `initial` where there is none. -/
inductive LastWritten {α : Type _} (Writes : Change → α → Prop) (initial : α)
    (changes : List Change) : α → Prop where
  | never (hnone : ∀ c ∈ changes, c.Accepted → ∀ value, ¬ Writes c value) :
      LastWritten Writes initial changes initial
  | last {before later : List Change} {c : Change} {value : α}
      (hchanges : changes = before ++ c :: later) (haccepted : c.Accepted)
      (hwrites : Writes c value)
      (hlater : ∀ c' ∈ later, c'.Accepted → ∀ value', ¬ Writes c' value') :
      LastWritten Writes initial changes value

namespace LastWritten

variable {α : Type _} {Writes : Change → α → Prop} {initial value value' : α}
  {changes : List Change} {c : Change}

/-- A change that does not write the field leaves it. -/
theorem concat_idle (h : LastWritten Writes initial changes value)
    (hidle : c.Accepted → ∀ value', ¬ Writes c value') :
    LastWritten Writes initial (changes ++ [c]) value := by
  have hmore {others : List Change}
      (hothers : ∀ c' ∈ others, c'.Accepted → ∀ value', ¬ Writes c' value') :
      ∀ c' ∈ others ++ [c], c'.Accepted → ∀ value', ¬ Writes c' value' := by
    intro c' hc'
    rcases List.mem_append.mp hc' with hmem | hmem
    · exact hothers c' hmem
    · rw [List.mem_singleton.mp hmem]
      exact hidle
  cases h with
  | never hnone => exact .never (hmore hnone)
  | @last before later d _ hchanges haccepted hwrites hlater =>
    have hparts : changes ++ [c] = before ++ d :: (later ++ [c]) := by
      rw [hchanges, List.append_assoc, List.cons_append]
    exact .last hparts haccepted hwrites (hmore hlater)

/-- An accepted change updates what the field is left with. -/
theorem concat (h : LastWritten Writes initial changes value) (haccepted : c.Accepted)
    (hupdates : Updates Writes c value value') :
    LastWritten Writes initial (changes ++ [c]) value' := by
  rcases hupdates with hwrites | ⟨hidle, rfl⟩
  · exact .last rfl haccepted hwrites (fun c' hc' => absurd hc' List.not_mem_nil)
  · exact h.concat_idle fun _ => hidle

/-- Behind the last change that writes the field, no other does. -/
theorem later_idle {before later before' later' : List Change} {c' : Change}
    (hsame : before ++ c :: later = before' ++ c' :: later')
    (hlater : ∀ d ∈ later, d.Accepted → ∀ value, ¬ Writes d value) (haccepted : c'.Accepted)
    (hwrites : Writes c' value) : before' <+: before := by
  rcases List.append_eq_append_iff.mp hsame with ⟨part, hpart, htail⟩ | ⟨part, hpart, -⟩
  · cases part with
    | nil => rw [hpart, List.append_nil]
    | cons d part =>
      -- Then `c'` would be one of the later changes.
      have hmem : c' ∈ later := by
        rw [(List.cons.inj htail).2]
        simp
      exact absurd hwrites (hlater c' hmem haccepted value)
  · exact ⟨part, hpart.symm⟩

/-- **A field is left with one value.** -/
theorem unique (h : LastWritten Writes initial changes value)
    (h' : LastWritten Writes initial changes value')
    (hwritten : ∀ c value value', Writes c value → Writes c value' → value = value') :
    value = value' := by
  cases h with
  | never hnone =>
    cases h' with
    | never _ => rfl
    | last hchanges haccepted hwrites _ =>
      refine absurd hwrites (hnone _ ?_ haccepted _)
      rw [hchanges]
      simp
  | @last before later c _ hchanges haccepted hwrites hlater =>
    cases h' with
    | never hnone =>
      refine absurd hwrites (hnone _ ?_ haccepted _)
      rw [hchanges]
      simp
    | @last before' later' c' _ hchanges' haccepted' hwrites' hlater' =>
      have hsame : before ++ c :: later = before' ++ c' :: later' := hchanges.symm.trans hchanges'
      have hlength : before.length ≤ before'.length :=
        (later_idle hsame.symm hlater' haccepted hwrites).length_le
      have hbefore : before' = before :=
        (later_idle hsame hlater haccepted' hwrites').eq_of_length_le hlength
      subst hbefore
      obtain ⟨rfl, -⟩ := List.cons.inj (List.append_cancel_left hsame)
      exact hwritten _ _ _ hwrites hwrites'

end LastWritten

theorem after_concat (changes : List Change) (c : Change) :
    after (changes ++ [c]) = (after changes).adopt c :=
  List.foldl_concat ..

/-- A refused change changes nothing. -/
theorem after_concat_of_refused {c : Change} {error : SettingError} (changes : List Change)
    (h : c.Refuses error) : after (changes ++ [c]) = after changes := by
  rw [after_concat, adopt, change_eq_error_iff.mpr h]

/-- **Both fields are left with what was written last**, in any run. -/
theorem lastWritten_after (changes : List Change) :
    LastWritten WritesSeverity .info changes (after changes).severity ∧
      LastWritten WritesLanguage "en" changes (after changes).language := by
  induction changes using List.reverseRecOn with
  | nil => exact ⟨.never (by simp), .never (by simp)⟩
  | append_singleton changes c ih =>
    rcases (after changes).change_cases c with
      ⟨error, hmade, hrefused⟩ | ⟨s', hmade, haccepted, hseverity, hlanguage⟩
    · rw [after_concat_of_refused changes hrefused]
      have hidle : ¬ c.Accepted := fun haccepted => haccepted error hrefused
      exact ⟨ih.1.concat_idle fun haccepted => absurd haccepted hidle,
        ih.2.concat_idle fun haccepted => absurd haccepted hidle⟩
    · rw [after_concat, adopt, hmade]
      exact ⟨ih.1.concat haccepted hseverity, ih.2.concat haccepted hlanguage⟩

/-- The language is a trimmed text at any time. -/
theorem isTrimmed_after (changes : List Change) : IsTrimmed (after changes).language := by
  have hwritten := (lastWritten_after changes).2
  generalize (after changes).language = language at hwritten
  cases hwritten with
  | never _ => exact WritesLanguage.reset.isTrimmed
  | last _ _ hwrites _ => exact hwrites.isTrimmed

/-- **What settings are after some changes in turn.** -/
structure LastWriterWins (changes : List Change) : Prop where
  /-- The next change fails for what it is refused for, and only then. -/
  refused (c : Change) (error : SettingError) :
    (after changes).change c = .error error ↔ c.Refuses error
  /-- It then changes nothing, also what it was given rightly. -/
  atomic {c : Change} {error : SettingError} (hrefused : c.Refuses error) :
    after (changes ++ [c]) = after changes
  /-- The severity is the one that was written last. -/
  severity (s : Severity) :
    LastWritten WritesSeverity .info changes s ↔ (after changes).severity = s
  /-- And so is the language. -/
  language (text : String) :
    LastWritten WritesLanguage "en" changes text ↔ (after changes).language = text
  /-- It is not empty, and has no white space at its ends. -/
  trimmed : IsTrimmed (after changes).language
  /-- Nor has the language of a feature told under these settings, where its
  line has none: it is the one of the settings. -/
  told {events : List Event} {f : Feature} {line : Token}
    (hmade : assemble (after changes) events = .ok (some f))
    (hline : IsTitleLine events line) (hnone : line.language = none) :
    f.language = (after changes).language ∧ IsTrimmed f.language

/-- **The last change that writes a field decides it**, whatever the
changes are and whichever of them are refused. -/
theorem lastWriterWins (changes : List Change) : LastWriterWins changes where
  refused _ _ := change_eq_error_iff
  atomic := after_concat_of_refused changes
  severity := by
    intro s
    have hlast := (lastWritten_after changes).1
    constructor
    · intro hwritten
      exact hlast.unique hwritten fun _ _ _ => WritesSeverity.unique
    · rintro rfl
      exact hlast
  language := by
    intro text
    have hlast := (lastWritten_after changes).2
    constructor
    · intro hwritten
      exact hlast.unique hwritten fun _ _ _ => WritesLanguage.unique
    · rintro rfl
      exact hlast
  trimmed := isTrimmed_after changes
  told := by
    intro events f line hmade hline hnone
    have hlanguage := (hline.of_assemble hmade).2
    rw [hnone, Option.getD_none] at hlanguage
    refine ⟨hlanguage, ?_⟩
    rw [hlanguage]
    exact isTrimmed_after changes

/-- The environment asks for debugging in French, with its language padded. -/
def paddedEnvironment : Environment :=
  { severity := some "Debug".toUTF8, language := some " fr ".toUTF8 }

/-- What a host program gives behind it is refused for its language, an em
space, and its severity is not taken either. So both fields are left with
what the environment asked for. -/
theorem lastWriterWins_paddedEnvironment :
    (Change.override (some .trace) (some "\u2003")).Refuses .emptyLanguage ∧
      after [.environment paddedEnvironment, .override (some .trace) (some "\u2003")] =
        { severity := .debug, language := "fr" } ∧
      LastWritten WritesLanguage "en"
        [.environment paddedEnvironment, .override (some .trace) (some "\u2003")] "fr" := by
  have hspace : ∀ c ∈ "\u2003".toList, isWhiteSpace c = true := by
    intro c hc
    rw [List.mem_singleton.mp hc]
    rfl
  have hrefused : (Change.override (some .trace) (some "\u2003")).Refuses .emptyLanguage :=
    .language nofun (.override _ _) hspace
  have hatomic := (lastWriterWins [.environment paddedEnvironment]).atomic hrefused
  have hafter : after [.environment paddedEnvironment] =
      { severity := .debug, language := "fr" } := rfl
  rw [hafter] at hatomic
  refine ⟨hrefused, hatomic, ?_⟩
  exact ((lastWriterWins _).language "fr").mpr (congrArg Settings.language hatomic)

end Settings

end FeatureTree
