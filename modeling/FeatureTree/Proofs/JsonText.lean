import FeatureTree.Proofs.JsonReader
import Mathlib.Data.List.Forall2
/-!
# The text of a JSON value

The text of a value is one of the spellings of its lexemes
(`spells_text`), so it is read back as the value (`read_text`), and no
character below the space stands in it (`printable_chars`).
-/

namespace FeatureTree

namespace Json

/-! ## A written value spells it -/

/-- A character is written in one of the ways there are. -/
theorem spellsChar_escapeChar (c : Char) : SpellsChar c (escapeChar c) := by
  unfold escapeChar
  split_ifs with hquote hbackslash hb hf hn hr ht hcontrol
  · rw [eq_of_beq hquote]
    exact .letter rfl
  · rw [eq_of_beq hbackslash]
    exact .letter rfl
  · rw [eq_of_beq hb]
    exact .letter rfl
  · rw [eq_of_beq hf]
    exact .letter rfl
  · rw [eq_of_beq hn]
    exact .letter rfl
  · rw [eq_of_beq hr]
    exact .letter rfl
  · rw [eq_of_beq ht]
    exact .letter rfl
  · refine .unit ?_
    generalize c.toNat = n at hcontrol
    interval_cases n <;> rfl
  · exact .plain (Nat.le_of_not_lt hcontrol) (fun h => hquote (beq_iff_eq.mpr h))
      fun h => hbackslash (beq_iff_eq.mpr h)

/-- Characters that spell some lexemes before everything that does not go
on with a digit. -/
def Writes (lexemes : List Lexeme) (cs : List Char) : Prop :=
  ∀ ⦃later : List Lexeme⦄ ⦃rest : List Char⦄, EndsNumber rest → Spells later rest →
    Spells (lexemes ++ later) (cs ++ rest)

theorem writes_quote (s : String) : Writes [.string s] (quote s) := by
  intro later rest _ h
  have hwritten : List.Forall₂ SpellsChar s.toList (s.toList.map escapeChar) :=
    List.forall₂_map_right_iff.mpr (List.forall₂_same.mpr fun c _ => spellsChar_escapeChar c)
  have hquote : quote s ++ rest = '"' :: ((s.toList.map escapeChar).flatten ++ '"' :: rest) := by
    simp [quote, List.flatMap_def]
  rw [hquote]
  exact .string hwritten h

theorem endsNumber_mark (m : Mark) (rest : List Char) : EndsNumber (m.char :: rest) := by
  rintro c hc
  obtain rfl := Option.some.inj hc
  cases m <;> rfl

/-- What is written one by one is so with commas between. -/
theorem Writes.intercalate {parts : List (List Lexeme)} {written : List (List Char)}
    (h : List.Forall₂ Writes parts written) :
    Writes (List.intercalate [.mark .comma] parts) (List.intercalate [','] written) := by
  induction h with
  | nil => exact fun _ _ _ h => h
  | cons hpart hparts ih =>
    cases hparts with
    | nil =>
      rw [List.intercalate_singleton, List.intercalate_singleton]
      exact hpart
    | cons _ _ =>
      intro later rest hends h
      have hcomma := hpart (endsNumber_mark .comma _) (.mark .comma (ih hends h))
      rw [List.intercalate_cons_cons, List.intercalate_cons_cons]
      simpa [Mark.char] using hcomma

/-- And so it is between two marks. -/
theorem Writes.enclose {lexemes : List Lexeme} {cs : List Char} (h : Writes lexemes cs)
    (first last : Mark) :
    Writes (.mark first :: (lexemes ++ [.mark last])) (first.char :: (cs ++ [last.char])) := by
  intro later rest _ hrest
  have hinside := h (endsNumber_mark last rest) (.mark last hrest)
  simpa using Spells.mark first hinside

mutual

/-- **A value is written by its characters.** -/
theorem writes_chars : (j : Json) → Writes j.lexemes j.chars
  | .number n => fun _ _ hends h => .number n hends h
  | .string s => writes_quote s
  | .array items => (Writes.intercalate (writes_items items)).enclose .openArray .closeArray
  | .object members =>
    (Writes.intercalate (writes_members members)).enclose .openObject .closeObject

theorem writes_items : (items : List Json) →
    List.Forall₂ Writes (itemLexemes items) (itemChars items)
  | [] => .nil
  | item :: rest => .cons item.writes_chars (writes_items rest)

theorem writes_members : (members : List (String × Json)) →
    List.Forall₂ Writes (memberLexemes members) (memberChars members)
  | [] => .nil
  | (name, value) :: rest => by
    refine .cons (fun later rest hends h => ?_) (writes_members rest)
    have hvalue := value.writes_chars hends h
    have hmember := writes_quote name (endsNumber_mark .colon _) (.mark .colon hvalue)
    simpa [Mark.char] using hmember

end

/-- **The text of a value spells it.** -/
theorem spells_text (j : Json) : Spells j.lexemes j.text.toList := by
  have h : Spells (j.lexemes ++ []) (j.chars ++ []) := j.writes_chars nofun .nil
  rwa [List.append_nil, List.append_nil, ← String.toList_ofList (l := j.chars)] at h

/-- **What is written is read back.** -/
theorem read_text (j : Json) : read j.text = some j :=
  read_of_spells j.spells_text

/-! ## What stands in a text -/

/-- No character below the space. -/
def Printable (cs : List Char) : Prop :=
  ∀ c ∈ cs, 0x20 ≤ c.toNat

instance : DecidablePred Printable :=
  List.decidableBAll fun c : Char => 0x20 ≤ c.toNat

theorem Printable.append {cs cs' : List Char} (h : Printable cs) (h' : Printable cs') :
    Printable (cs ++ cs') :=
  List.forall_mem_append.mpr ⟨h, h'⟩

theorem printable_mark (m : Mark) : Printable [m.char] := by
  cases m <;> decide

/-- With a mark between each two, printable parts are so as a whole. -/
theorem Printable.intercalate (m : Mark) : {parts : List (List Char)} →
    (∀ cs ∈ parts, Printable cs) → Printable (List.intercalate [m.char] parts)
  | [], _ => nofun
  | [cs], h => by
    rw [List.intercalate_singleton]
    exact h cs List.mem_cons_self
  | cs :: cs' :: parts, h => by
    obtain ⟨hcs, hparts⟩ := List.forall_mem_cons.mp h
    rw [List.intercalate_cons_cons]
    exact (hcs.append (printable_mark m)).append (Printable.intercalate m hparts)

theorem Printable.enclose {cs : List Char} (h : Printable cs) (first last : Mark) :
    Printable (first.char :: (cs ++ [last.char])) :=
  (printable_mark first).append (h.append (printable_mark last))

/-- A character is escaped by printable ones. -/
theorem printable_escapeChar (c : Char) : Printable (escapeChar c) := by
  unfold escapeChar
  split_ifs with hquote hbackslash hb hf hn hr ht hcontrol
  iterate 7 decide
  · generalize c.toNat = n at hcontrol
    interval_cases n <;> decide
  · rintro d hd
    rw [List.mem_singleton.mp hd]
    exact Nat.le_of_not_lt hcontrol

theorem printable_quote (s : String) : Printable (quote s) := by
  have hinside : Printable (s.toList.flatMap escapeChar) := fun d hd => by
    obtain ⟨c, -, hc⟩ := List.mem_flatMap.mp hd
    exact printable_escapeChar c d hc
  have hmark : Printable ['"'] := by decide
  exact hmark.append (hinside.append hmark)

theorem printable_toDigits (n : Nat) : Printable (Nat.toDigits 10 n) := by
  intro c hc
  have hrange := toNat_of_isDigit (Nat.isDigit_of_mem_toDigits (by decide) (by decide) hc)
  omega

mutual

/-- **The characters of a value are printable.** -/
theorem printable_chars : (j : Json) → Printable j.chars
  | .number n => printable_toDigits n
  | .string s => printable_quote s
  | .array items =>
    (Printable.intercalate .comma (printable_items items)).enclose .openArray .closeArray
  | .object members =>
    (Printable.intercalate .comma (printable_members members)).enclose .openObject .closeObject

theorem printable_items : (items : List Json) → ∀ cs ∈ itemChars items, Printable cs
  | [] => nofun
  | item :: rest => List.forall_mem_cons.mpr ⟨item.printable_chars, printable_items rest⟩

theorem printable_members : (members : List (String × Json)) →
    ∀ cs ∈ memberChars members, Printable cs
  | [] => nofun
  | (name, value) :: rest => by
    have hvalue := (printable_mark .colon).append value.printable_chars
    exact List.forall_mem_cons.mpr ⟨(printable_quote name).append hvalue, printable_members rest⟩

end

end Json

end FeatureTree
