import Mathlib
import FeatureTree.Settings
/-!
# Names of severities

A severity is named by one of six words, in capitals or small letters
(`severityWords`, `SameButCase`), and by nothing else. The name is lowered
before it is looked up, and lowering reaches beyond ASCII: it can make a
text longer and turn two foreign characters into letters. Still it makes
none of these words out of anything but that word. This follows from what
is documented of lowering (`Lowered`), so what becomes of all other
foreign characters makes no difference (`readByName`).
-/

namespace FeatureTree

/-! ## Words -/

/-- The words that name a severity. -/
def severityWords : List (String × Severity) :=
  [("trace", .trace), ("debug", .debug), ("info", .info), ("warn", .warn), ("warning", .warn),
    ("error", .error)]

/-- The letter itself, or its capital. -/
def IsCaseOf (c letter : Char) : Prop :=
  c = letter ∨ c = letter.toUpper

/-- **A text spells a word up to the case of ASCII letters**: it has each
letter of the word, or its capital, in its place. -/
def SameButCase (text word : String) : Prop :=
  List.Forall₂ IsCaseOf text.toList word.toList

/-- Severities are looked up by these words. -/
theorem lookup_names_iff {word : String} {s : Severity} :
    Severity.names.lookup word = some s ↔ (word, s) ∈ severityWords := by
  have hwords : ∀ entry ∈ Severity.names, entry ∈ severityWords := by decide
  have hnames : ∀ entry ∈ severityWords, Severity.names.lookup entry.1 = some entry.2 := by decide
  constructor
  · intro h
    obtain ⟨earlier, later, hsplit, -⟩ := List.lookup_eq_some_iff.mp h
    refine hwords _ ?_
    rw [hsplit]
    exact List.mem_append_right _ List.mem_cons_self
  · exact hnames _

/-! ## Lowering -/

/-- **What is documented of the lower case of a character.** Of the
characters outside ASCII two have a lower case that holds an ASCII letter,
the capital I with a dot and the Kelvin sign. -/
inductive LowersTo : Char → List Char → Prop where
  | ascii {c : Char} (hascii : c.toNat < 128) : LowersTo c [c.toLower]
  | dotted : LowersTo '\u0130' ['i', '\u0307']
  | kelvin : LowersTo '\u212A' ['k']
  /-- All others become some characters or other, none of them such a
  letter. -/
  | foreign {c first : Char} {rest : List Char} (hforeign : 128 ≤ c.toNat)
      (hletters : ∀ lowered ∈ first :: rest, lowered.isAlpha = false) :
      LowersTo c (first :: rest)

/-- A text in lower case, character by character. The same character need
not become the same everywhere. -/
def Lowered (text lowered : String) : Prop :=
  ∃ pieces, List.Forall₂ LowersTo text.toList pieces ∧ lowered.toList = pieces.flatten

/-- A character becomes a small letter just where it is a case of it. -/
theorem toLower_eq_iff {c letter : Char} (hletter : letter.isLower = true) :
    c.toLower = letter ↔ IsCaseOf c letter := by
  constructor
  · rintro rfl
    by_cases hupper : c.isUpper = true
    · right
      rw [Char.toUpper_toLower_eq_toUpper,
        Char.toUpper_eq_of_not_isLower (Char.not_isLower_of_isUpper hupper)]
    · left
      exact (Char.toLower_eq_of_not_isUpper hupper).symm
  · have hlower := Char.toLower_eq_of_not_isUpper (Char.not_isUpper_of_isLower hletter)
    rintro (rfl | rfl)
    · exact hlower
    · rw [Char.toLower_toUpper_eq_toLower, hlower]

/-- The cases of a letter are letters of ASCII. -/
theorem IsCaseOf.isAlpha {c letter : Char} (h : IsCaseOf c letter)
    (hletter : letter.isLower = true) : c.isAlpha = true := by
  have halpha : letter.isAlpha = true := by
    rw [Char.isAlpha, hletter, Bool.or_true]
  rcases h with rfl | rfl
  · exact halpha
  · rw [Char.isAlpha_toUpper_eq_isAlpha, halpha]

theorem isAlpha_of_forall₂ {text word : List Char} (h : List.Forall₂ IsCaseOf text word)
    (hword : ∀ letter ∈ word, letter.isLower = true) : ∀ c ∈ text, c.isAlpha = true := by
  induction h with
  | nil => exact List.forall_mem_nil _
  | cons hcase _ ih =>
    obtain ⟨hletter, hrest⟩ := List.forall_mem_cons.mp hword
    exact List.forall_mem_cons.mpr ⟨hcase.isAlpha hletter, ih hrest⟩

/-- Foreign characters are none. -/
theorem isAlpha_of_foreign {c : Char} (h : 128 ≤ c.toNat) : c.isAlpha = false := by
  rw [Bool.eq_false_iff]
  intro hletter
  simp only [Char.isAlpha, Char.isUpper, Char.isLower, Bool.or_eq_true, Bool.and_eq_true,
    decide_eq_true_eq, ge_iff_le, UInt32.le_iff_toNat_le, Char.toNat_val, ↓Char.isValue,
    Char.reduceVal, UInt32.reduceToNat] at hletter
  omega

/-- **Only what spells a word is lowered to it**, if there is no `k` in the
word. -/
theorem flatten_eq_iff {text word : List Char} {pieces : List (List Char)}
    (hlowers : List.Forall₂ LowersTo text pieces)
    (hword : ∀ letter ∈ word, letter.isLower = true ∧ letter ≠ 'k') :
    pieces.flatten = word ↔ List.Forall₂ IsCaseOf text word := by
  induction hlowers generalizing word with
  | nil => simp [eq_comm]
  | @cons c piece text pieces hpiece hlowers ih =>
    cases word with
    | nil =>
      have hne : piece ≠ [] := by cases hpiece <;> simp
      simp [hne]
    | cons letter word =>
      obtain ⟨⟨hletter, hk⟩, hrest⟩ := List.forall_mem_cons.mp hword
      rw [List.flatten_cons, List.forall₂_cons]
      -- A letter comes from ASCII: of the two foreign characters that hold one, the first leaves a
      -- dot behind it, and the other is a `k`.
      have hcase (hc : c.isAlpha = false) : ¬ IsCaseOf c letter := by
        intro h
        rw [h.isAlpha hletter] at hc
        cases hc
      cases hpiece with
      | ascii hascii =>
        rw [← ih hrest, ← toLower_eq_iff hletter]
        simp
      | dotted =>
        simp only [hcase rfl, false_and, iff_false]
        intro h
        have hdot : '\u0307' ∈ word := by
          rw [← (List.cons.inj h).2]
          exact List.mem_cons_self
        cases (hrest _ hdot).1
      | kelvin =>
        simp only [hcase rfl, false_and, iff_false]
        intro h
        exact hk (List.cons.inj h).1.symm
      | @foreign _ first rest hforeign hletters =>
        simp only [hcase (isAlpha_of_foreign hforeign), false_and, iff_false]
        intro h
        obtain ⟨rfl, -⟩ := List.cons.inj h
        have hnone := hletters first List.mem_cons_self
        rw [Char.isAlpha, hletter, Bool.or_true] at hnone
        cases hnone

/-- The library's lowering is one that is documented. -/
theorem lowered_lower (text : String) : Lowered text (lower text) := by
  refine ⟨text.toList.map lowerChar, ?_, ?_⟩
  · refine List.forall₂_map_right_iff.mpr (List.forall₂_same.mpr fun c _ => ?_)
    unfold lowerChar
    split
    · next hdotted =>
      rw [beq_iff_eq.mp hdotted]
      exact .dotted
    · split
      · next hkelvin =>
        rw [beq_iff_eq.mp hkelvin]
        exact .kelvin
      · by_cases hascii : c.toNat < 128
        · exact .ascii hascii
        · -- Any other foreign character is left as it stands.
          have hforeign : 128 ≤ c.toNat := Nat.le_of_not_lt hascii
          have hsame : c.toLower = c := by
            refine Char.toLower_eq_of_not_isUpper fun hupper => ?_
            have hnone := isAlpha_of_foreign hforeign
            rw [Char.isAlpha, hupper, Bool.true_or] at hnone
            cases hnone
          rw [hsame]
          exact .foreign hforeign (List.forall_mem_singleton.mpr (isAlpha_of_foreign hforeign))
  · rw [lower, String.toList_ofList, List.flatMap_def]

/-- The words consist of small letters, and have no `k`. -/
theorem letters_of_mem_severityWords {word : String} {s : Severity}
    (h : (word, s) ∈ severityWords) :
    ∀ letter ∈ word.toList, letter.isLower = true ∧ letter ≠ 'k' := by
  have hall : ∀ entry ∈ severityWords,
      (entry.1.toList.all fun letter => letter.isLower && letter != 'k') = true := by decide
  intro letter hletter
  have hboth := List.all_eq_true.mp (hall _ h) letter hletter
  rwa [Bool.and_eq_true, bne_iff_ne] at hboth

/-- **Whatever way a name is lowered, the severity looked up is that of the
word it spells.** -/
theorem lookup_iff_of_lowered {text lowered : String} (h : Lowered text lowered) {s : Severity} :
    Severity.names.lookup lowered = some s ↔
      ∃ word, (word, s) ∈ severityWords ∧ SameButCase text word := by
  obtain ⟨pieces, hpieces, hlowered⟩ := h
  rw [lookup_names_iff]
  constructor
  · intro hmem
    refine ⟨lowered, hmem, ?_⟩
    exact (flatten_eq_iff hpieces (letters_of_mem_severityWords hmem)).mp hlowered.symm
  · rintro ⟨word, hmem, hspells⟩
    have hword := (flatten_eq_iff hpieces (letters_of_mem_severityWords hmem)).mpr hspells
    rw [String.toList_inj.mp (hlowered.trans hword)]
    exact hmem

/-! ## Values -/

theorem named?_eq_some_iff {value : String} {s : Severity} :
    Severity.named? value = some s ↔ ∃ word, (word, s) ∈ severityWords ∧ SameButCase value word :=
  lookup_iff_of_lowered (lowered_lower value)

theorem readSeverity_eq_ok_iff {value : String} {s : Severity} :
    Settings.readSeverity value = .ok s ↔
      ∃ word, (word, s) ∈ severityWords ∧ SameButCase value word := by
  rw [← named?_eq_some_iff, Settings.readSeverity]
  cases Severity.named? value <;> simp

/-- The name of a severity is one of its words. -/
theorem readSeverity_name (s : Severity) : Settings.readSeverity s.name = .ok s := by
  have hword : (s.name, s) ∈ severityWords := by cases s <;> decide
  have hspells : SameButCase s.name s.name := List.forall₂_same.mpr fun c _ => .inl rfl
  exact readSeverity_eq_ok_iff.mpr ⟨s.name, hword, hspells⟩

/-- What is told of an unknown severity quotes it as it was given. -/
theorem exists_message_eq (given : String) :
    ∃ before after, (SettingError.unknownSeverity given).message = before ++ given ++ after := by
  have hmessage : (SettingError.unknownSeverity given).message =
      "invalid configuration: " ++ ("unknown log level '" ++ given ++
        "', expected one of: trace, debug, info, warn, error") := rfl
  rw [hmessage, ← String.append_assoc, ← String.append_assoc]
  exact ⟨_, _, rfl⟩

/-- **How a value is read for a severity.** -/
structure ReadByName (value : String) : Prop where
  /-- It is accepted just where it spells one of the words, and is the
  severity of that word. -/
  accepted {s : Severity} : Settings.readSeverity value = .ok s ↔
    ∃ word, (word, s) ∈ severityWords ∧ SameButCase value word
  /-- Then the name of the severity is read for the same one. -/
  again {s : Severity} (h : Settings.readSeverity value = .ok s) :
    Settings.readSeverity s.name = .ok s
  /-- Any other is refused, and quoted as it stands. -/
  refused (h : ∀ word ∈ severityWords, ¬ SameButCase value word.1) :
    ∃ error, Settings.readSeverity value = .error error ∧
      ∃ before after, error.message = before ++ value ++ after
  /-- So what is accepted is not empty, and holds letters of ASCII alone,
  without any space around them. -/
  letters {s : Severity} (h : Settings.readSeverity value = .ok s) :
    value ≠ "" ∧ ∀ c ∈ value.toList, c.isAlpha = true
  /-- It does not matter what lowering makes of other characters. -/
  lowered {lowered : String} (h : Lowered value lowered) :
    Severity.names.lookup lowered = Severity.named? value

/-- **A severity is read by its name alone.** -/
theorem readByName (value : String) : ReadByName value where
  accepted := readSeverity_eq_ok_iff
  again := by
    intro s _
    exact readSeverity_name s
  refused := by
    intro hnone
    have hunknown : Severity.named? value = none := by
      refine Option.eq_none_iff_forall_ne_some.mpr fun s hs => ?_
      obtain ⟨word, hmem, hspells⟩ := named?_eq_some_iff.mp hs
      exact hnone _ hmem hspells
    refine ⟨.unknownSeverity value, ?_, exists_message_eq value⟩
    rw [Settings.readSeverity, hunknown]
  letters := by
    intro s hs
    obtain ⟨word, hmem, hspells⟩ := readSeverity_eq_ok_iff.mp hs
    have hletters : ∀ letter ∈ word.toList, letter.isLower = true :=
      fun letter hletter => (letters_of_mem_severityWords hmem letter hletter).1
    refine ⟨?_, isAlpha_of_forall₂ hspells hletters⟩
    rintro rfl
    have hempty : word = "" := String.toList_eq_nil_iff.mp (List.forall₂_nil_left_iff.mp hspells)
    have hwords : ∀ entry ∈ severityWords, entry.1 ≠ "" := by decide
    exact hwords _ hmem hempty
  lowered := by
    intro lowered hlowered
    refine Option.ext fun s => ?_
    rw [named?_eq_some_iff, lookup_iff_of_lowered hlowered]

/-- A capital I with a dot makes no `i`. -/
example : Severity.named? "wArNing" = some .warn ∧ Severity.named? "\u0130nfo" = none := by decide

end FeatureTree
