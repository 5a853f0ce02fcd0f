import FeatureTree.Json.Basic
import Mathlib.Tactic.IntervalCases
/-!
# Reading JSON

Of JSON, the part that has natural numbers, strings, arrays and objects. A
value is a row of lexemes (`Json.lexemes`), and a text is JSON for it if
it spells them (`Json.Spells`): white space may stand anywhere between,
and a character of a string may be spelled in each of the ways that there
are. The reader goes through the text character by character
(`Scan.step`), and through the lexemes one by one (`Parse.step`).
`read_of_spells` says that it reads every spelling of every value, so a
text spells one value at most.
-/

namespace FeatureTree

namespace Json

/-! ## Lexemes -/

/-- A character that holds a value together. -/
inductive Mark where
  | openArray
  | closeArray
  | openObject
  | closeObject
  | comma
  | colon
  deriving DecidableEq

/-- A mark as it is written. -/
def Mark.char : Mark → Char
  | .openArray => '['
  | .closeArray => ']'
  | .openObject => '{'
  | .closeObject => '}'
  | .comma => ','
  | .colon => ':'

/-- The marks, each under its character. -/
def marks : List (Char × Mark) :=
  [.openArray, .closeArray, .openObject, .closeObject, .comma, .colon].map fun m => (m.char, m)

/-- A mark, a number or a string. -/
inductive Lexeme where
  | mark (mark : Mark)
  | number (value : Nat)
  | string (text : String)

mutual

/-- The lexemes of a value. -/
def lexemes : Json → List Lexeme
  | .number n => [.number n]
  | .string s => [.string s]
  | .array items =>
    .mark .openArray :: (List.intercalate [.mark .comma] (itemLexemes items) ++ [.mark .closeArray])
  | .object members =>
    .mark .openObject ::
      (List.intercalate [.mark .comma] (memberLexemes members) ++ [.mark .closeObject])

/-- The lexemes of each item of an array. -/
def itemLexemes : List Json → List (List Lexeme)
  | [] => []
  | item :: rest => item.lexemes :: itemLexemes rest

/-- The lexemes of each member of an object. -/
def memberLexemes : List (String × Json) → List (List Lexeme)
  | [] => []
  | (name, value) :: rest =>
    (.string name :: .mark .colon :: value.lexemes) :: memberLexemes rest

end

/-! ## Spellings -/

/-- The white space between lexemes. -/
def isBlank (c : Char) : Bool :=
  c == ' ' || c == '\t' || c == '\n' || c == '\r'

/-- The letters that a backslash may stand before, and what they stand for
then. -/
def escapes : List (Char × Char) :=
  [('"', '"'), ('\\', '\\'), ('/', '/'), ('b', '\x08'), ('f', '\x0c'), ('n', '\n'), ('r', '\r'),
    ('t', '\t')]

/-- The hexadecimal digits, and what they are worth. -/
def hexDigits : List (Char × Nat) :=
  "0123456789abcdef".toList.zipIdx ++ "ABCDEF".toList.zipIdx 10

/-- The number that hexadecimal digits write. -/
def unit? (digits : List Char) : Option Nat :=
  (digits.mapM fun c => hexDigits.lookup c).map
    (List.foldl (fun unit digit => 16 * unit + digit) 0)

/-- **The ways to write a character of a string**: as it is, with a letter
behind a backslash, or by its number, in two surrogates where that has more
than four digits. -/
inductive SpellsChar (c : Char) : List Char → Prop where
  | plain (hprintable : 0x20 ≤ c.toNat) (hquote : c ≠ '"') (hbackslash : c ≠ '\\') :
      SpellsChar c [c]
  | letter {letter : Char} (hletter : escapes.lookup letter = some c) :
      SpellsChar c ['\\', letter]
  | unit {x₁ x₂ x₃ x₄ : Char} (hunit : unit? [x₁, x₂, x₃, x₄] = some c.toNat) :
      SpellsChar c ['\\', 'u', x₁, x₂, x₃, x₄]
  | pair {x₁ x₂ x₃ x₄ y₁ y₂ y₃ y₄ : Char} (hwide : 0x10000 ≤ c.toNat)
      (hhigh : unit? [x₁, x₂, x₃, x₄] = some (0xD800 + (c.toNat - 0x10000) / 0x400))
      (hlow : unit? [y₁, y₂, y₃, y₄] = some (0xDC00 + (c.toNat - 0x10000) % 0x400)) :
      SpellsChar c ['\\', 'u', x₁, x₂, x₃, x₄, '\\', 'u', y₁, y₂, y₃, y₄]

/-- Text that does not go on with a digit. -/
def EndsNumber (rest : List Char) : Prop :=
  ∀ c ∈ rest.head?, c.isDigit = false

/-- **A text that spells some lexemes**, one after the other with white
space anywhere between. A number has no leading zero, and ends where its
digits do. -/
inductive Spells : List Lexeme → List Char → Prop where
  | nil : Spells [] []
  | blank {c : Char} {lexemes : List Lexeme} {rest : List Char} (hblank : isBlank c = true)
      (hrest : Spells lexemes rest) : Spells lexemes (c :: rest)
  | mark {lexemes : List Lexeme} {rest : List Char} (m : Mark) (hrest : Spells lexemes rest) :
      Spells (.mark m :: lexemes) (m.char :: rest)
  | number {lexemes : List Lexeme} {rest : List Char} (n : Nat) (hends : EndsNumber rest)
      (hrest : Spells lexemes rest) : Spells (.number n :: lexemes) (Nat.toDigits 10 n ++ rest)
  | string {lexemes : List Lexeme} {rest : List Char} {s : String} {written : List (List Char)}
      (hwritten : List.Forall₂ SpellsChar s.toList written) (hrest : Spells lexemes rest) :
      Spells (.string s :: lexemes) ('"' :: (written.flatten ++ '"' :: rest))

theorem toNat_of_isDigit {c : Char} (h : c.isDigit = true) : 48 ≤ c.toNat ∧ c.toNat ≤ 57 := by
  simpa [Char.isDigit, UInt32.le_iff_toNat_le] using h

/-! ## From characters to lexemes -/

/-- Where in a lexeme a reader is. -/
inductive Scan where
  /-- Between lexemes. -/
  | between
  /-- In a number, with what its digits are worth so far. -/
  | number (value : Nat)
  /-- In a string, behind some characters of it and perhaps the first of
  two surrogates. -/
  | string (done : List Char) (high : Option Nat)
  /-- Behind a backslash in a string. -/
  | escape (done : List Char) (high : Option Nat)
  /-- Behind some of the four digits of a number in a string. -/
  | hex (done : List Char) (high : Option Nat) (digits : List Char)

namespace Scan

/-- Where a character leads between lexemes, and the lexeme that it is. -/
def start (c : Char) : Option (Scan × List Lexeme) :=
  if isBlank c then some (.between, [])
  else if c = '"' then some (.string [] none, [])
  else if c.isDigit then some (.number (c.toNat - 48), [])
  else (marks.lookup c).map fun m => (.between, [.mark m])

/-- Where a number leads in a string: a surrogate stands for nothing
alone, and a pair of them for a character of more than four digits. -/
def unit (done : List Char) (high : Option Nat) (u : Nat) : Option Scan :=
  match high with
  | none =>
    if u < 0xD800 ∨ 0xDFFF < u then some (.string (done ++ [Char.ofNat u]) none)
    else if u < 0xDC00 then some (.string done (some u))
    else none
  | some high =>
    if 0xDC00 ≤ u ∧ u ≤ 0xDFFF then
      some (.string (done ++ [Char.ofNat (0x10000 + (high - 0xD800) * 0x400 + (u - 0xDC00))]) none)
    else none

/-- Where a character leads, and the lexemes that end with it. -/
def step : Scan → Char → Option (Scan × List Lexeme)
  | between, c => start c
  | number n, c =>
    if c.isDigit then
      -- A number that starts with a zero is that zero.
      if n = 0 then none else some (.number (10 * n + (c.toNat - 48)), [])
    else (start c).map fun (next, ended) => (next, .number n :: ended)
  | string done high, c =>
    if c = '\\' then some (.escape done high, [])
    else if high.isSome then none
    else if c = '"' then some (.between, [.string (String.ofList done)])
    else if c.toNat < 0x20 then none
    else some (.string (done ++ [c]) none, [])
  | escape done high, c =>
    if c = 'u' then some (.hex done high [], [])
    else if high.isSome then none
    else (escapes.lookup c).map fun meant => (.string (done ++ [meant]) none, [])
  | hex done high digits, c =>
    if digits.length < 3 then some (.hex done high (digits ++ [c]), [])
    else ((unit? (digits ++ [c])).bind (unit done high)).map fun next => (next, [])

/-- The lexeme that ends with the text, unless that ends too early. -/
def finish : Scan → Option (List Lexeme)
  | between => some []
  | number n => some [.number n]
  | string .. | escape .. | hex .. => none

/-- The lexemes of a text. -/
def scan (s : Scan) : List Char → Option (List Lexeme)
  | [] => s.finish
  | c :: rest =>
    match s.step c with
    | some (next, ended) => (next.scan rest).map (ended ++ ·)
    | none => none

variable {s next : Scan} {c : Char} {rest : List Char} {done : List Char}

theorem scan_cons {ended : List Lexeme} (h : s.step c = some (next, ended)) :
    s.scan (c :: rest) = (next.scan rest).map (ended ++ ·) := by
  rw [scan, h]

/-- Within a lexeme, a character leads on. -/
theorem scan_cons_of_nil (h : s.step c = some (next, [])) :
    s.scan (c :: rest) = next.scan rest := by
  rw [scan_cons h]
  exact Option.map_id'

/-- A backslash, `u` and four digits lead where their number does. -/
theorem scan_unit {high : Option Nat} {x₁ x₂ x₃ x₄ : Char} {u : Nat}
    (hunit : unit? [x₁, x₂, x₃, x₄] = some u) (hnext : unit done high u = some next) :
    (string done high).scan ('\\' :: 'u' :: x₁ :: x₂ :: x₃ :: x₄ :: rest) = next.scan rest := by
  have hlast : (hex done high [x₁, x₂, x₃]).step x₄ = some (next, []) := by
    simp [step, hunit, hnext]
  calc (string done high).scan ('\\' :: 'u' :: x₁ :: x₂ :: x₃ :: x₄ :: rest)
      = (escape done high).scan ('u' :: x₁ :: x₂ :: x₃ :: x₄ :: rest) :=
        scan_cons_of_nil (by simp [step])
    _ = (hex done high []).scan (x₁ :: x₂ :: x₃ :: x₄ :: rest) :=
        scan_cons_of_nil (by simp [step])
    _ = (hex done high [x₁]).scan (x₂ :: x₃ :: x₄ :: rest) := scan_cons_of_nil (by simp [step])
    _ = (hex done high [x₁, x₂]).scan (x₃ :: x₄ :: rest) := scan_cons_of_nil (by simp [step])
    _ = (hex done high [x₁, x₂, x₃]).scan (x₄ :: rest) := scan_cons_of_nil (by simp [step])
    _ = next.scan rest := scan_cons_of_nil hlast

/-- The number of a character is no surrogate. -/
theorem toNat_valid (c : Char) : c.toNat < 0xD800 ∨ 0xDFFF < c.toNat ∧ c.toNat < 0x110000 :=
  c.valid

/-- **A character of a string is read however it is spelled.** -/
theorem scan_char {spelled : List Char} (h : SpellsChar c spelled) :
    (string done none).scan (spelled ++ rest) = (string (done ++ [c]) none).scan rest := by
  have hvalid := toNat_valid c
  cases h with
  | plain hprintable hquote hbackslash =>
    have hlow : ¬ c.toNat < 0x20 := by omega
    exact scan_cons_of_nil (by simp [step, hbackslash, hquote, hlow])
  | @letter letter hletter =>
    have hu : letter ≠ 'u' := by
      rintro rfl
      cases hletter
    calc (string done none).scan ('\\' :: letter :: rest)
        = (escape done none).scan (letter :: rest) := scan_cons_of_nil (by simp [step])
      _ = (string (done ++ [c]) none).scan rest :=
          scan_cons_of_nil (by simp [step, hu, hletter])
  | unit hunit =>
    have hscalar : c.toNat < 0xD800 ∨ 0xDFFF < c.toNat := by omega
    refine scan_unit hunit ?_
    rw [unit, if_pos hscalar, Char.ofNat_toNat]
  | pair hwide hhigh hlow =>
    have hmeant : 0x10000 + (0xD800 + (c.toNat - 0x10000) / 0x400 - 0xD800) * 0x400 +
        (0xDC00 + (c.toNat - 0x10000) % 0x400 - 0xDC00) = c.toNat := by omega
    have hfirst : unit done none (0xD800 + (c.toNat - 0x10000) / 0x400) =
        some (.string done (some (0xD800 + (c.toNat - 0x10000) / 0x400))) := by
      rw [unit, if_neg (by omega), if_pos (by omega)]
    refine (scan_unit hhigh hfirst).trans (scan_unit hlow ?_)
    rw [unit, if_pos (by omega), hmeant, Char.ofNat_toNat]

theorem scan_chars {cs : List Char} {written : List (List Char)}
    (h : List.Forall₂ SpellsChar cs written) :
    (string done none).scan (written.flatten ++ rest) =
      (string (done ++ cs) none).scan rest := by
  induction h generalizing done with
  | nil => rw [List.append_nil, List.flatten_nil, List.nil_append]
  | cons hchar _ ih =>
    rw [List.flatten_cons, List.append_assoc, scan_char hchar, ih, List.append_assoc,
      List.singleton_append]

/-- So is a whole string. -/
theorem scan_string {text : String} {written : List (List Char)}
    (h : List.Forall₂ SpellsChar text.toList written) :
    between.scan ('"' :: (written.flatten ++ '"' :: rest)) =
      (between.scan rest).map (.string text :: ·) := by
  have hopen : between.step '"' = some (string [] none, []) := rfl
  have hclose : (string text.toList none).step '"' = some (between, [.string text]) := by
    simp [step]
  rw [scan_cons_of_nil hopen, scan_chars h, List.nil_append, scan_cons hclose]
  rfl

theorem start_digitChar {d : Nat} (h : d < 10) :
    start (Nat.digitChar d) = some (.number d, []) := by
  interval_cases d <;> rfl

/-- **The digits of a number are read as it.** -/
theorem scan_toDigits (n : Nat) :
    between.scan (Nat.toDigits 10 n ++ rest) = (number n).scan rest := by
  induction n using Nat.strongRecOn generalizing rest with
  | ind n ih =>
    by_cases hn : n < 10
    · rw [Nat.toDigits_of_lt_base hn]
      exact scan_cons_of_nil (start_digitChar hn)
    -- The last digit is read behind the number that the others write.
    have hdigit : n % 10 < 10 := by omega
    have hsplit : Nat.toDigits 10 n = Nat.toDigits 10 (n / 10) ++ [Nat.digitChar (n % 10)] := by
      rw [← Nat.toDigits_of_lt_base hdigit,
        Nat.toDigits_append_toDigits (by decide) (by omega) hdigit, Nat.div_add_mod]
    have hlast : (number (n / 10)).step (Nat.digitChar (n % 10)) = some (number n, []) := by
      have hisDigit : (Nat.digitChar (n % 10)).isDigit = true := by
        generalize n % 10 = d at hdigit
        interval_cases d <;> rfl
      have hvalue : 10 * (n / 10) + ((Nat.digitChar (n % 10)).toNat - 48) = n := by
        rw [Nat.toNat_digitChar_of_lt_ten hdigit]
        omega
      rw [step, if_pos hisDigit, if_neg (by omega), hvalue]
    rw [hsplit, List.append_assoc, ih (n / 10) (by omega)]
    exact scan_cons_of_nil hlast

/-- It ends where its digits do. -/
theorem scan_number {n : Nat} (h : EndsNumber rest) :
    (number n).scan rest = (between.scan rest).map (.number n :: ·) := by
  cases rest with
  | nil => rfl
  | cons c rest =>
    have hc : c.isDigit = false := h c rfl
    rw [scan, scan, step, step, hc]
    cases start c with
    | none => rfl
    | some reply =>
      obtain ⟨next, ended⟩ := reply
      simp [Function.comp_def]

/-- **Every spelling of some lexemes is read as them.** -/
theorem scan_of_spells {lexemes : List Lexeme} {cs : List Char} (h : Spells lexemes cs) :
    between.scan cs = some lexemes := by
  induction h with
  | nil => rfl
  | @blank c _ _ hblank _ ih =>
    have hskip : between.step c = some (between, []) := by rw [step, start, if_pos hblank]
    rw [scan_cons_of_nil hskip, ih]
  | mark m _ ih =>
    have hmark : between.step m.char = some (between, [.mark m]) := by cases m <;> rfl
    rw [scan_cons hmark, ih]
    rfl
  | number n hends _ ih => rw [scan_toDigits, scan_number hends, ih]; rfl
  | string hwritten _ ih => rw [scan_string hwritten, ih]; rfl

end Scan

/-! ## From lexemes to values -/

/-- An array or an object that has not ended: the items before the next
value, or the members before it and its name. -/
inductive Begun where
  | array (items : List Json)
  | object (members : List (String × Json)) (name : String)

/-- Where among lexemes a reader is, with what it is inside of, the
innermost first. -/
inductive Parse where
  /-- Before a value, or at the end of an array that has just been
  opened. -/
  | beforeValue (outer : List Begun)
  /-- Before a name and behind some members, or at the end of an object
  that has just been opened. -/
  | beforeName (members : List (String × Json)) (outer : List Begun)
  /-- Between a name and its colon. -/
  | beforeColon (members : List (String × Json)) (name : String) (outer : List Begun)
  /-- Behind a value. -/
  | behind (value : Json) (outer : List Begun)

namespace Parse

/-- Where a lexeme leads. -/
def step : Parse → Lexeme → Option Parse
  | .beforeValue outer, .number n => some (.behind (.number n) outer)
  | .beforeValue outer, .string s => some (.behind (.string s) outer)
  | .beforeValue outer, .mark .openArray => some (.beforeValue (.array [] :: outer))
  | .beforeValue outer, .mark .openObject => some (.beforeName [] outer)
  | .beforeValue (.array [] :: outer), .mark .closeArray => some (.behind (.array []) outer)
  | .beforeName [] outer, .mark .closeObject => some (.behind (.object []) outer)
  | .beforeName members outer, .string name => some (.beforeColon members name outer)
  | .beforeColon members name outer, .mark .colon =>
    some (.beforeValue (.object members name :: outer))
  | .behind value (.array items :: outer), .mark .comma =>
    some (.beforeValue (.array (items ++ [value]) :: outer))
  | .behind value (.array items :: outer), .mark .closeArray =>
    some (.behind (.array (items ++ [value])) outer)
  | .behind value (.object members name :: outer), .mark .comma =>
    some (.beforeName (members ++ [(name, value)]) outer)
  | .behind value (.object members name :: outer), .mark .closeObject =>
    some (.behind (.object (members ++ [(name, value)])) outer)
  | _, _ => none

/-- Where some lexemes lead. -/
def run (p : Parse) (lexemes : List Lexeme) : Option Parse :=
  lexemes.foldlM step p

theorem run_append (p : Parse) (lexemes later : List Lexeme) :
    p.run (lexemes ++ later) = (p.run lexemes).bind (·.run later) :=
  List.foldlM_append

theorem run_cons (p : Parse) (lexeme : Lexeme) (later : List Lexeme) :
    p.run (lexeme :: later) = (p.step lexeme).bind (·.run later) :=
  List.foldlM_cons

/-- A name is waited for behind any members. -/
theorem step_name (members : List (String × Json)) (outer : List Begun) (name : String) :
    step (.beforeName members outer) (.string name) = some (.beforeColon members name outer) := by
  cases members <;> rfl

mutual

/-- **The lexemes of a value lead behind it.** -/
theorem run_lexemes (outer : List Begun) : (j : Json) →
    run (.beforeValue outer) j.lexemes = some (.behind j outer)
  | .number _ => rfl
  | .string _ => rfl
  | .array [] => rfl
  | .array (item :: items) => run_items [] outer (item :: items) (List.cons_ne_nil item items)
  | .object [] => rfl
  | .object (member :: members) =>
    run_members [] outer (member :: members) (List.cons_ne_nil member members)

/-- The items of an array, behind some others, lead to its end. -/
theorem run_items (done : List Json) (outer : List Begun) : (items : List Json) → items ≠ [] →
    run (.beforeValue (.array done :: outer))
        (List.intercalate [.mark .comma] (itemLexemes items) ++ [.mark .closeArray]) =
      some (.behind (.array (done ++ items)) outer)
  | [], h => absurd rfl h
  | [item], _ => by
    rw [itemLexemes, itemLexemes, List.intercalate_singleton, run_append, run_lexemes]
    rfl
  | item :: next :: later, _ => by
    have hlater := run_items (done ++ [item]) outer (next :: later) (List.cons_ne_nil next later)
    rw [List.append_assoc, List.singleton_append] at hlater
    rw [itemLexemes, itemLexemes, List.intercalate_cons_cons, List.append_assoc, List.append_assoc,
      run_append, run_lexemes]
    exact hlater

/-- So do the members of an object. -/
theorem run_members (done : List (String × Json)) (outer : List Begun) :
    (members : List (String × Json)) → members ≠ [] →
    run (.beforeName done outer)
        (List.intercalate [.mark .comma] (memberLexemes members) ++ [.mark .closeObject]) =
      some (.behind (.object (done ++ members)) outer)
  | [], h => absurd rfl h
  | [(name, value)], _ => by
    have hvalue := run_lexemes (.object done name :: outer) value
    rw [memberLexemes, memberLexemes, List.intercalate_singleton, run_append, run_cons, step_name,
      Option.bind_some, run_cons]
    change ((run (.beforeValue (.object done name :: outer)) value.lexemes).bind _) = _
    rw [hvalue]
    rfl
  | (name, value) :: next :: later, _ => by
    have hvalue := run_lexemes (.object done name :: outer) value
    have hlater := run_members (done ++ [(name, value)]) outer (next :: later)
      (List.cons_ne_nil next later)
    rw [List.append_assoc, List.singleton_append] at hlater
    rw [memberLexemes, memberLexemes, List.intercalate_cons_cons, List.append_assoc,
      List.append_assoc, run_append, run_cons, step_name, Option.bind_some, run_cons]
    change ((run (.beforeValue (.object done name :: outer)) value.lexemes).bind _) = _
    rw [hvalue]
    exact hlater

end

end Parse

/-- The value that some lexemes are of. -/
def parse (lexemes : List Lexeme) : Option Json :=
  match Parse.run (.beforeValue []) lexemes with
  | some (.behind value []) => some value
  | _ => none

/-- **The value that a text is JSON for.** -/
def read (text : String) : Option Json :=
  (Scan.between.scan text.toList).bind parse

/-- **A text is read as the value whose lexemes it spells.** -/
theorem read_of_spells {j : Json} {text : String} (h : Spells j.lexemes text.toList) :
    read text = some j := by
  rw [read, Scan.scan_of_spells h, Option.bind_some, parse, Parse.run_lexemes]

/-- White space is skipped, and every way to write a character is read. -/
example : read " [ \"\\u00E9\\ud83d\\ude00\", 10 ] " =
    some (.array [.string "é😀", .number 10]) := by
  rfl

/-- A number has no leading zero, a string no bare surrogate, and nothing
follows a comma but an item. -/
example : read "[01]" = none ∧ read "\"\\ud83d\"" = none ∧ read "[1,]" = none := by
  exact ⟨rfl, rfl, rfl⟩

end Json

end FeatureTree
