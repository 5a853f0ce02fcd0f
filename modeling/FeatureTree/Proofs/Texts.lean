import Mathlib.Data.List.DropRight
import FeatureTree.Text.Blank
import FeatureTree.Text.WhiteSpace
/-!
# Texts taken apart

Both a description and a language lose something at their end, and what
is left is a list cut in two (`IsCut`): the items kept are none or end in
one that fails a test, and those behind them pass it. There is one cut
only, and `dropTrailing` finds it. Lines that were joined are found again
by splitting at the line feeds (`splitLines`), and a trimmed text is what
stands between the white space at the two ends of another (`Trims`).
-/

namespace FeatureTree

variable {α : Type _}

/-! ## Cuts -/

/-- **A list cut in two**: the items kept are none or end in one that
fails `p`, and all items behind them pass. -/
structure IsCut (p : α → Prop) (items kept rest : List α) : Prop where
  whole : items = kept ++ rest
  ends : ∀ last ∈ kept.getLast?, ¬ p last
  passes : ∀ item ∈ rest, p item

namespace IsCut

variable {p : α → Prop} {items kept rest kept' rest' : List α}

/-- What one cut keeps begins what another keeps. -/
theorem kept_prefix (h : IsCut p items kept rest) (h' : IsCut p items kept' rest') :
    kept <+: kept' := by
  have hwhole : kept ++ rest = kept' ++ rest' := h.whole.symm.trans h'.whole
  rcases List.append_eq_append_iff.mp hwhole with ⟨more, hmore, -⟩ | ⟨more, hmore, hrest⟩
  · exact ⟨more, hmore.symm⟩
  · -- If `kept` went on behind `kept'`, its last item would be one of `rest'`, which pass.
    rcases List.eq_nil_or_concat' more with rfl | ⟨init, last, rfl⟩
    · exact ⟨[], by rw [hmore, List.append_nil, List.append_nil]⟩
    · have hlast : last ∈ kept.getLast? := by
        rw [hmore, ← List.append_assoc]
        exact List.getLast?_concat
      have hpasses : p last := h'.passes last (by rw [hrest]; simp)
      exact absurd hpasses (h.ends last hlast)

/-- **There is one cut only.** -/
theorem unique (h : IsCut p items kept rest) (h' : IsCut p items kept' rest') :
    kept = kept' ∧ rest = rest' := by
  have hlength : kept'.length ≤ kept.length := (h'.kept_prefix h).length_le
  have hkept : kept = kept' := (h.kept_prefix h').eq_of_length_le hlength
  subst hkept
  exact ⟨rfl, List.append_cancel_left (h.whole.symm.trans h'.whole)⟩

/-- What is kept is of the list. -/
theorem mem_of_mem_kept (h : IsCut p items kept rest) {item : α} (hitem : item ∈ kept) :
    item ∈ items := by
  rw [h.whole]
  exact List.mem_append_left _ hitem

/-- Items that pass make no difference behind a cut. -/
theorem append (h : IsCut p items kept rest) {more : List α} (hmore : ∀ item ∈ more, p item) :
    IsCut p (items ++ more) kept (rest ++ more) where
  whole := by rw [h.whole, List.append_assoc]
  ends := h.ends
  passes := by
    intro item hitem
    rcases List.mem_append.mp hitem with hrest | hmem
    · exact h.passes item hrest
    · exact hmore item hmem

/-- One that fails keeps everything before it. -/
theorem concat (items : List α) {last : α} (hlast : ¬ p last) :
    IsCut p (items ++ [last]) (items ++ [last]) [] where
  whole := (List.append_nil _).symm
  ends := by
    intro last' hlast'
    rw [List.getLast?_concat] at hlast'
    obtain rfl := Option.some.inj hlast'
    exact hlast
  passes _ hitem := (List.not_mem_nil hitem).elim

/-- What is kept has nothing more to lose. -/
theorem kept_self (h : IsCut p items kept rest) : IsCut p kept kept [] where
  whole := (List.append_nil kept).symm
  ends := h.ends
  passes _ hitem := (List.not_mem_nil hitem).elim

end IsCut

/-- Dropping what passes at the end is a cut. -/
theorem isCut_dropTrailing (p : α → Bool) (items : List α) :
    IsCut (p · = true) items (dropTrailing p items) (items.rtakeWhile p) where
  whole := List.rdropWhile_append_rtakeWhile.symm
  ends := by
    intro last hlast
    have hne : items.rdropWhile p ≠ [] := by
      intro hnil
      have hnone : (items.rdropWhile p).getLast? = none := by rw [hnil]; rfl
      exact absurd (hnone.symm.trans hlast) (by simp)
    have hend : (items.rdropWhile p).getLast hne = last :=
      Option.some.inj ((List.getLast?_eq_some_getLast hne).symm.trans hlast)
    rw [← hend]
    exact List.rdropWhile_last_not p items hne
  passes _ := List.mem_rtakeWhile_imp

/-- **What a cut keeps is what is left after dropping.** -/
theorem IsCut.dropTrailing_eq {p : α → Bool} {items kept rest : List α}
    (h : IsCut (p · = true) items kept rest) : dropTrailing p items = kept :=
  ((isCut_dropTrailing p items).unique h).1

/-! ## Lines -/

/-- The lines of a text: what stands before, between and behind its line
feeds. A text without any is one line, also the empty one. -/
def splitLines (text : String) : List String :=
  (text.toList.splitOn '\n').map String.ofList

/-- **Lines that were joined are found again**, where there are any and
none holds a line feed itself. -/
theorem splitLines_joinLines {lines : List String} (hne : lines ≠ [])
    (hfeed : ∀ line ∈ lines, '\n' ∉ line.toList) : splitLines (joinLines lines) = lines := by
  have hchars : (joinLines lines).toList = ['\n'].intercalate (lines.map String.toList) :=
    String.toList_intercalate
  have hsplit : ((joinLines lines).toList.splitOn '\n') = lines.map String.toList := by
    rw [hchars]
    exact List.splitOn_intercalate '\n' (List.forall_mem_map.mpr hfeed) (by simpa using hne)
  rw [splitLines, hsplit, List.map_map]
  exact (List.map_congr_left fun line _ => String.ofList_toList).trans (List.map_id lines)

/-! ## White space -/

/-- A text that has something in it, and white space at neither end. -/
structure IsTrimmed (text : String) : Prop where
  ne_empty : text ≠ ""
  first : ∀ c ∈ text.toList.head?, isWhiteSpace c = false
  last : ∀ c ∈ text.toList.getLast?, isWhiteSpace c = false

/-- The default language is trimmed. -/
theorem isTrimmed_en : IsTrimmed "en" where
  ne_empty := by decide
  first := by
    rintro c ⟨⟩
    decide
  last := by
    rintro c ⟨⟩
    decide

/-- **A text trimmed**: what stands between the white space at its two
ends, where there is anything. -/
structure Trims (text trimmed : String) : Prop where
  between : ∃ before after, text.toList = before ++ trimmed.toList ++ after ∧
    (∀ c ∈ before, isWhiteSpace c = true) ∧ ∀ c ∈ after, isWhiteSpace c = true
  trimmed : IsTrimmed trimmed

/-- Trimming leaves nothing just of white space. -/
theorem trim_eq_empty_iff {text : String} :
    trim text = "" ↔ ∀ c ∈ text.toList, isWhiteSpace c = true := by
  have hempty : trim text = "" ↔
      dropTrailing isWhiteSpace (text.toList.dropWhile isWhiteSpace) = [] := by
    rw [trim, String.ofList_eq_empty_iff]
  have hfirst : dropTrailing isWhiteSpace (text.toList.dropWhile isWhiteSpace) = [] ↔
      ∀ c ∈ text.toList.dropWhile isWhiteSpace, isWhiteSpace c = true :=
    List.rdropWhile_eq_nil_iff
  rw [hempty, hfirst]
  constructor
  · intro h
    -- The first character left would not be white space, so none is left.
    have hnil : text.toList.dropWhile isWhiteSpace = [] := by
      by_contra hne
      have hhead := List.head_dropWhile_not isWhiteSpace hne
      rw [h _ (List.head_mem hne)] at hhead
      cases hhead
    exact List.dropWhile_eq_nil_iff.mp hnil
  · intro h c hc
    exact h c ((List.dropWhile_suffix isWhiteSpace).subset hc)

/-- **Trimming trims**, where it leaves anything. -/
theorem trims_trim {text : String} (h : trim text ≠ "") : Trims text (trim text) := by
  have hcut := isCut_dropTrailing isWhiteSpace (text.toList.dropWhile isWhiteSpace)
  have hchars : (trim text).toList =
      dropTrailing isWhiteSpace (text.toList.dropWhile isWhiteSpace) := String.toList_ofList
  rw [← hchars] at hcut
  have hne : (trim text).toList ≠ [] := fun hnil => h (String.toList_eq_nil_iff.mp hnil)
  refine ⟨⟨text.toList.takeWhile isWhiteSpace, _, ?_, ?_, hcut.passes⟩, h, ?_, ?_⟩
  · rw [List.append_assoc, ← hcut.whole, List.takeWhile_append_dropWhile]
  · intro c hc
    exact List.mem_takeWhile_imp hc
  · -- The first character kept is the first that is not dropped in front.
    intro c hc
    have hhead : (text.toList.dropWhile isWhiteSpace).head? = some c := by
      rw [hcut.whole, List.head?_append_of_ne_nil _ hne]
      exact hc
    have hfirst := List.head?_dropWhile_not isWhiteSpace text.toList
    rw [hhead] at hfirst
    exact hfirst
  · intro c hc
    exact Bool.eq_false_iff.mpr (hcut.ends c hc)

/-- **What a text is trimmed to is determined**, and trimming finds it. -/
theorem Trims.trim_eq {text trimmed : String} (h : Trims text trimmed) : trim text = trimmed := by
  obtain ⟨⟨before, after, hwhole, hbefore, hafter⟩, htrimmed⟩ := h
  have hne : trimmed.toList ≠ [] := fun hnil => htrimmed.ne_empty (String.toList_eq_nil_iff.mp hnil)
  -- White space is dropped in front up to the first character of `trimmed`, which stays.
  have hfront : text.toList.dropWhile isWhiteSpace = trimmed.toList ++ after := by
    rw [hwhole, List.append_assoc, List.dropWhile_append_of_pos hbefore]
    obtain ⟨c, rest, hchars⟩ := List.exists_cons_of_ne_nil hne
    have hfirst : isWhiteSpace c = false := htrimmed.first c (by rw [hchars]; rfl)
    rw [hchars, List.cons_append, List.dropWhile_cons_of_neg (by rw [hfirst]; simp)]
  have hcut : IsCut (isWhiteSpace · = true) (trimmed.toList ++ after) trimmed.toList after := by
    refine ⟨rfl, ?_, hafter⟩
    intro c hc
    rw [htrimmed.last c hc]
    simp
  rw [trim, hfront, hcut.dropTrailing_eq, String.ofList_toList]

/-- More white space around a text does not change what it is trimmed to. -/
theorem Trims.padded {text trimmed before after : String} (h : Trims text trimmed)
    (hbefore : ∀ c ∈ before.toList, isWhiteSpace c = true)
    (hafter : ∀ c ∈ after.toList, isWhiteSpace c = true) :
    Trims (before ++ text ++ after) trimmed where
  between := by
    obtain ⟨front, back, hwhole, hfront, hback⟩ := h.between
    refine ⟨before.toList ++ front, back ++ after.toList, ?_,
      List.forall_mem_append.mpr ⟨hbefore, hfront⟩, List.forall_mem_append.mpr ⟨hback, hafter⟩⟩
    rw [String.toList_append, String.toList_append, hwhole]
    simp only [List.append_assoc]
  trimmed := h.trimmed

/-- A trimmed text is trimmed to itself. -/
theorem IsTrimmed.trims {text : String} (h : IsTrimmed text) : Trims text text where
  between :=
    ⟨[], [], by rw [List.nil_append, List.append_nil], List.forall_mem_nil _, List.forall_mem_nil _⟩
  trimmed := h

end FeatureTree
