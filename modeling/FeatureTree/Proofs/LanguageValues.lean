import Mathlib.Data.List.Basic
import FeatureTree.Proofs.Changes
/-!
# Values of the language

A value for the language is read for what stands between the white space
at its two ends, whichever way it is given (`language_change`). White
space is wider here than in descriptions, and is no single range of
characters (`whiteSpaces`). A value that holds anything else has one such
middle, which more white space around it does not change, and a value that
does not is refused (`readTrimmed`).
-/

namespace FeatureTree

/-! ## White space -/

/-- The characters that are white space, one by one. -/
def whiteSpaces : List Char :=
  ['\t', '\n', '\x0b', '\x0c', '\r', ' ', '\u0085', '\u00a0', '\u1680', '\u2000', '\u2001',
    '\u2002', '\u2003', '\u2004', '\u2005', '\u2006', '\u2007', '\u2008', '\u2009', '\u200a',
    '\u2028', '\u2029', '\u202f', '\u205f', '\u3000']

/-- **The ranges of white space hold these characters and no others.** -/
theorem isWhiteSpace_iff {c : Char} : isWhiteSpace c = true ↔ c ∈ whiteSpaces := by
  have hinj : Function.Injective Char.toNat := fun _ _ => Char.toNat_inj.mp
  have hnumbers : whiteSpaces.map Char.toNat =
      [0x9, 0xa, 0xb, 0xc, 0xd, 0x20, 0x85, 0xa0, 0x1680, 0x2000, 0x2001, 0x2002, 0x2003, 0x2004,
        0x2005, 0x2006, 0x2007, 0x2008, 0x2009, 0x200a, 0x2028, 0x2029, 0x202f, 0x205f,
        0x3000] := rfl
  rw [← List.mem_map_of_injective hinj, hnumbers]
  simp only [isWhiteSpace, whiteSpaceRanges, List.any_cons, List.any_nil, Bool.or_false,
    Bool.or_eq_true, Bool.and_eq_true, decide_eq_true_eq, List.mem_cons, List.not_mem_nil,
    or_false]
  omega

/-! ## Values -/

namespace Settings

variable {value language before after : String} {error : SettingError} {c : Change}

theorem readLanguage_eq_error_iff : readLanguage value = .error error ↔
    error = .emptyLanguage ∧ ∀ ch ∈ value.toList, isWhiteSpace ch = true := by
  rcases readLanguage_cases value with ⟨hread, hspace⟩ | ⟨hread, -, hmarked⟩
  · rw [hread, Except.error.injEq]
    exact ⟨fun herror => ⟨herror.symm, hspace⟩, fun h => h.1.symm⟩
  · rw [hread]
    exact ⟨nofun, fun h => absurd h.2 hmarked⟩

theorem readLanguage_eq_ok_iff : readLanguage value = .ok language ↔ Trims value language := by
  rw [readLanguage]
  constructor
  · intro hread
    split at hread
    · cases hread
    · next hne =>
      obtain rfl := Except.ok.inj hread
      exact trims_trim hne
  · intro htrims
    rw [htrims.trim_eq, if_neg htrims.trimmed.ne_empty]

/-- **White space around a value makes no difference.** -/
theorem readLanguage_padded (hbefore : ∀ ch ∈ before.toList, isWhiteSpace ch = true)
    (hafter : ∀ ch ∈ after.toList, isWhiteSpace ch = true) :
    readLanguage (before ++ value ++ after) = readLanguage value := by
  rcases readLanguage_cases value with ⟨hread, hspace⟩ | ⟨hread, htrims, -⟩
  · rw [hread, readLanguage_eq_error_iff]
    refine ⟨rfl, ?_⟩
    rw [String.toList_append, String.toList_append]
    exact List.forall_mem_append.mpr ⟨List.forall_mem_append.mpr ⟨hbefore, hspace⟩, hafter⟩
  · rw [hread, readLanguage_eq_ok_iff]
    exact htrims.padded hbefore hafter

/-- **Whichever way it is given**, by a variable or by a host program, a
value is read alike, unless a severity beside it is refused. -/
theorem language_change (s : Settings) (hgiven : c.GivesLanguage value)
    (hnamed : ∀ name, c.NamesSeverity name → Severity.named? name ≠ none) :
    (s.change c).map Settings.language = readLanguage value := by
  cases hgiven with
  | @environment env _ hholds =>
    rcases readSeverity_cases env with ⟨name, hname, hunknown, -⟩ | ⟨v, hread, -, -⟩
    · exact absurd hunknown (hnamed name hname)
    · have hchange : s.change (.environment env) = ofEnvironment env := rfl
      rw [hchange, ofEnvironment_eq_bind, hread, text_eq_some_iff.mpr hholds, readOr]
      cases readLanguage value <;> rfl
  | override severity _ =>
    have hchange : s.change (.override severity (some value)) =
        (readLanguage value).bind fun language =>
          .ok { severity := severity.getD s.severity, language } := rfl
    rw [hchange]
    cases readLanguage value <;> rfl

/-- **How a value is read for a language.** -/
structure ReadTrimmed (value : String) : Prop where
  /-- White space is these characters, and no others. -/
  spaces (ch : Char) : isWhiteSpace ch = true ↔ ch ∈ whiteSpaces
  /-- A value is refused just where it holds nothing else, the empty value
  among them. -/
  refused {error : SettingError} : readLanguage value = .error error ↔
    error = .emptyLanguage ∧ ∀ ch ∈ value.toList, isWhiteSpace ch = true
  /-- Otherwise there is one text that begins and ends with something else
  and has nothing but white space around it in the value. -/
  middle (hmarked : ∃ ch ∈ value.toList, isWhiteSpace ch = false) :
    ∃! language, Trims value language
  /-- That is the language, with all that stands in it. -/
  accepted {language : String} : readLanguage value = .ok language ↔ Trims value language
  /-- Read again it is the same. -/
  again {language : String} (h : readLanguage value = .ok language) :
    readLanguage language = .ok language
  /-- White space around the value makes no difference. -/
  padded {before after : String} (hbefore : ∀ ch ∈ before.toList, isWhiteSpace ch = true)
    (hafter : ∀ ch ∈ after.toList, isWhiteSpace ch = true) :
    readLanguage (before ++ value ++ after) = readLanguage value
  /-- And so it is read wherever settings are given it, by a variable or by
  a host program, if no severity beside it is refused. -/
  given (s : Settings) {c : Change} (hgiven : c.GivesLanguage value)
    (hnamed : ∀ name, c.NamesSeverity name → Severity.named? name ≠ none) :
    (s.change c).map Settings.language = readLanguage value

/-- **A language is read for its middle**, of any value. -/
theorem readTrimmed (value : String) : ReadTrimmed value where
  spaces _ := isWhiteSpace_iff
  refused := readLanguage_eq_error_iff
  middle := by
    rintro ⟨ch, hmem, hmark⟩
    rcases readLanguage_cases value with ⟨-, hspace⟩ | ⟨-, htrims, -⟩
    · rw [hspace ch hmem] at hmark
      cases hmark
    · exact ⟨_, htrims, fun language hlanguage => hlanguage.trim_eq.symm⟩
  accepted := readLanguage_eq_ok_iff
  again := by
    intro language hread
    have htrimmed := (readLanguage_eq_ok_iff.mp hread).trimmed
    exact readLanguage_eq_ok_iff.mpr htrimmed.trims
  padded := readLanguage_padded
  given s _ hgiven hnamed := s.language_change hgiven hnamed

/-- The two scans meet in a value of one letter, and stop at it. -/
example : readLanguage "\u2028\u00a0x\u3000" = .ok "x" := rfl

end Settings

end FeatureTree
