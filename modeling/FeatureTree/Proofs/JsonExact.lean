import FeatureTree.Proofs.JsonReader
import Mathlib.Data.List.Forall2
/-!
# What is read as JSON

The reader takes no text that is not JSON. The characters since the last
lexeme are known of a scan (`Scan.Pending`), and the lexemes taken so far of
a parse (`Parse.taken`), each after every step; so a text is read as a
value only where it spells it (`read_eq_some_iff`).
-/

namespace FeatureTree

namespace Json

/-! ## Characters -/

theorem mem_of_lookup {α : Type _} {entries : List (Char × α)} {c : Char} {value : α}
    (h : entries.lookup c = some value) : (c, value) ∈ entries := by
  obtain ⟨before, later, rfl, -⟩ := List.lookup_eq_some_iff.mp h
  exact List.mem_append_right before List.mem_cons_self

theorem char_of_lookup_marks {c : Char} {m : Mark} (h : marks.lookup c = some m) :
    m.char = c := by
  obtain ⟨m', -, hm'⟩ := List.mem_map.mp (mem_of_lookup h)
  obtain ⟨rfl, rfl⟩ := Prod.mk.inj hm'
  rfl

/-- A digit writes what it is worth. -/
theorem toDigits_digit {c : Char} (h : c.isDigit = true) :
    Nat.toDigits 10 (c.toNat - 48) = [c] := by
  have hrange := toNat_of_isDigit h
  have hdigit : c.toNat - 48 < 10 := by omega
  have hchar : Nat.digitChar (c.toNat - 48) = c := by
    apply Char.toNat_inj.mp
    rw [Nat.toNat_digitChar_of_lt_ten hdigit]
    omega
  rw [Nat.toDigits_of_lt_base hdigit, hchar]

theorem lt_of_lookup_hexDigits {c : Char} {digit : Nat} (h : hexDigits.lookup c = some digit) :
    digit < 16 := by
  have hall : ∀ entry ∈ hexDigits, entry.2 < 16 := by decide
  exact hall _ (mem_of_lookup h)

/-- Four digits write a number below that of a character with five. -/
theorem lt_of_unit? {x₁ x₂ x₃ x₄ : Char} {u : Nat} (h : unit? [x₁, x₂, x₃, x₄] = some u) :
    u < 0x10000 := by
  simp only [unit?, List.mapM_cons, List.mapM_nil, Option.map_eq_some_iff,
    Option.bind_eq_bind, Option.bind_eq_some_iff, Option.pure_def, Option.some.injEq] at h
  obtain ⟨_, ⟨d₁, h₁, _, ⟨d₂, h₂, _, ⟨d₃, h₃, _, ⟨d₄, h₄, _, rfl, rfl⟩, rfl⟩, rfl⟩, rfl⟩, rfl⟩ := h
  have := lt_of_lookup_hexDigits h₁
  have := lt_of_lookup_hexDigits h₂
  have := lt_of_lookup_hexDigits h₃
  have := lt_of_lookup_hexDigits h₄
  simp only [List.foldl_cons, List.foldl_nil]
  omega

theorem toNat_ofNat {n : Nat} (h : n < 0xD800 ∨ 0xDFFF < n ∧ n < 0x110000) :
    (Char.ofNat n).toNat = n := by
  have hvalid : n.isValidChar := h
  rw [Char.ofNat, dif_pos hvalid]
  rfl

/-! ## What a scan has pending -/

/-- The first of two surrogates, if there is one, as it is spelled. -/
inductive Half : Option Nat → List Char → Prop where
  | none : Half none []
  | high {x₁ x₂ x₃ x₄ : Char} {u : Nat} (hunit : unit? [x₁, x₂, x₃, x₄] = some u)
      (hfirst : 0xD800 ≤ u) (hlast : u < 0xDC00) : Half (some u) ['\\', 'u', x₁, x₂, x₃, x₄]

namespace Scan

/-- The characters that have led somewhere since the last lexeme. -/
inductive Pending : Scan → List Char → Prop where
  | between : Pending .between []
  | number (n : Nat) : Pending (.number n) (Nat.toDigits 10 n)
  | string {done : List Char} {high : Option Nat} {written : List (List Char)} {half : List Char}
      (hdone : List.Forall₂ SpellsChar done written) (hhalf : Half high half) :
      Pending (.string done high) ('"' :: (written.flatten ++ half))
  | escape {done : List Char} {high : Option Nat} {cs : List Char}
      (h : Pending (.string done high) cs) : Pending (.escape done high) (cs ++ ['\\'])
  | hex {done : List Char} {high : Option Nat} {cs digits : List Char}
      (h : Pending (.string done high) cs) (hdigits : digits.length ≤ 3) :
      Pending (.hex done high digits) (cs ++ '\\' :: 'u' :: digits)

/-- Characters that are accounted for by some lexemes and what is pending
behind them. -/
def Covers (reply : Scan × List Lexeme) (cs : List Char) : Prop :=
  ∃ pending, Pending reply.1 pending ∧ ∀ ⦃later : List Lexeme⦄ ⦃rest : List Char⦄,
    Spells later (pending ++ rest) → Spells (reply.2 ++ later) (cs ++ rest)

variable {s next : Scan} {c : Char} {cs : List Char} {done : List Char} {high : Option Nat}
  {reply : Scan × List Lexeme}

/-- What is pending is accounted for. -/
theorem Pending.covers (h : Pending s cs) : Covers (s, []) cs :=
  ⟨cs, h, fun _ _ hspells => hspells⟩

/-- A string is pending behind one more of its characters. -/
theorem Pending.push {spelled : List Char} (h : Pending (.string done none) cs)
    (hchar : SpellsChar c spelled) : Pending (.string (done ++ [c]) none) (cs ++ spelled) := by
  cases h with
  | @string _ _ written _ hdone hhalf =>
    cases hhalf
    have hwritten : List.Forall₂ SpellsChar (done ++ [c]) (written ++ [spelled]) :=
      List.rel_append hdone (.cons hchar .nil)
    simpa using Pending.string hwritten .none

/-- It ends at a quotation mark. -/
theorem Pending.close (h : Pending (.string done none) cs) :
    Covers (.between, [.string (String.ofList done)]) (cs ++ ['"']) := by
  cases h with
  | @string _ _ written _ hdone hhalf =>
    cases hhalf
    refine ⟨[], .between, fun later rest hspells => ?_⟩
    have hchars : List.Forall₂ SpellsChar (String.ofList done).toList written := by
      rwa [String.toList_ofList]
    simpa using Spells.string hchars hspells

/-- **A number in a string** is a character, or half of one. -/
theorem Pending.unit {x₁ x₂ x₃ x₄ : Char} {u : Nat} (h : Pending (.string done high) cs)
    (hunit : unit? [x₁, x₂, x₃, x₄] = some u) (hnext : Scan.unit done high u = some next) :
    Pending next (cs ++ ['\\', 'u', x₁, x₂, x₃, x₄]) := by
  have hu := lt_of_unit? hunit
  cases high with
  | none =>
    rw [Scan.unit] at hnext
    split_ifs at hnext with hscalar hfirst
    · obtain rfl := Option.some.inj hnext
      refine h.push (.unit ?_)
      rwa [toNat_ofNat (by omega)]
    · obtain rfl := Option.some.inj hnext
      cases h with
      | string hdone hhalf =>
        cases hhalf
        simpa using Pending.string hdone (.high hunit (by omega) hfirst)
  | some u' =>
    rw [Scan.unit] at hnext
    split_ifs at hnext with hlow
    obtain rfl := Option.some.inj hnext
    cases h with
    | @string _ _ written half hdone hhalf =>
      cases hhalf with
      | high hunit' hfirst hlast =>
        -- The two of them are the one way to write their character.
        generalize hm : 0x10000 + (u' - 0xD800) * 0x400 + (u - 0xDC00) = m
        have hmeant : (Char.ofNat m).toNat = m := toNat_ofNat (by omega)
        have hwide : 0x10000 ≤ (Char.ofNat m).toNat := by omega
        have hu' : u' = 0xD800 + ((Char.ofNat m).toNat - 0x10000) / 0x400 := by omega
        have hu : u = 0xDC00 + ((Char.ofNat m).toNat - 0x10000) % 0x400 := by omega
        have hpair := SpellsChar.pair hwide (hu' ▸ hunit') (hu ▸ hunit)
        simpa using (Pending.string hdone .none).push hpair

/-- Between lexemes, a character starts one, or is one. -/
theorem covers_start (h : start c = some reply) : Covers reply [c] := by
  rw [start] at h
  split_ifs at h with hblank hquote hdigit
  · obtain rfl := Option.some.inj h
    exact ⟨[], .between, fun _ _ hspells => .blank hblank hspells⟩
  · obtain rfl := Option.some.inj h
    subst hquote
    exact (Pending.string .nil .none).covers
  · obtain rfl := Option.some.inj h
    rw [← toDigits_digit hdigit]
    exact (Pending.number _).covers
  · obtain ⟨m, hm, rfl⟩ := Option.map_eq_some_iff.mp h
    rw [← char_of_lookup_marks hm]
    exact ⟨[], .between, fun _ _ hspells => .mark m hspells⟩

/-- **After every step, all characters are accounted for.** -/
theorem Pending.step (hpending : Pending s cs) (h : s.step c = some reply) :
    Covers reply (cs ++ [c]) := by
  cases s with
  | between =>
    cases hpending
    exact covers_start h
  | number n =>
    cases hpending
    rw [Scan.step] at h
    split_ifs at h with hdigit hzero
    · obtain rfl := Option.some.inj h
      have hrange := toNat_of_isDigit hdigit
      rw [← toDigits_digit hdigit,
        Nat.toDigits_append_toDigits (by decide) (Nat.pos_of_ne_zero hzero) (by omega)]
      exact (Pending.number _).covers
    · obtain ⟨⟨next, ended⟩, hstart, rfl⟩ := Option.map_eq_some_iff.mp h
      obtain ⟨pending, hpending, hspells⟩ := covers_start hstart
      refine ⟨pending, hpending, fun later rest hrest => ?_⟩
      have hends : EndsNumber (c :: rest) := by
        rintro d hd
        obtain rfl := Option.some.inj hd
        exact Bool.eq_false_iff.mpr hdigit
      simpa using Spells.number n hends (hspells hrest)
  | string done high =>
    rw [Scan.step] at h
    split_ifs at h with hbackslash hhigh hquote hcontrol
    · obtain rfl := Option.some.inj h
      subst hbackslash
      exact hpending.escape.covers
    · obtain rfl := Option.some.inj h
      subst hquote
      obtain rfl := Option.not_isSome_iff_eq_none.mp hhigh
      exact hpending.close
    · obtain rfl := Option.some.inj h
      obtain rfl := Option.not_isSome_iff_eq_none.mp hhigh
      exact (hpending.push (.plain (by omega) hquote hbackslash)).covers
  | escape done high =>
    cases hpending with
    | escape hpending =>
      rw [Scan.step] at h
      rw [List.append_assoc]
      split_ifs at h with hu hhigh
      · obtain rfl := Option.some.inj h
        subst hu
        have hdigits : ([] : List Char).length ≤ 3 := Nat.zero_le 3
        exact (Pending.hex hpending hdigits).covers
      · obtain ⟨meant, hmeant, rfl⟩ := Option.map_eq_some_iff.mp h
        obtain rfl := Option.not_isSome_iff_eq_none.mp hhigh
        exact (hpending.push (.letter hmeant)).covers
  | hex done high digits =>
    cases hpending with
    | hex hpending hdigits =>
      rw [Scan.step] at h
      rw [List.append_assoc]
      split_ifs at h with hmore
      · obtain rfl := Option.some.inj h
        refine (Pending.hex hpending ?_).covers
        rw [List.length_append]
        exact hmore
      · obtain ⟨next, hlast, rfl⟩ := Option.map_eq_some_iff.mp h
        obtain ⟨u, hunit, hnext⟩ := Option.bind_eq_some_iff.mp hlast
        obtain ⟨x₁, x₂, x₃, rfl⟩ := List.length_eq_three.mp (by omega : digits.length = 3)
        exact (hpending.unit hunit hnext).covers

/-- What is pending at the end of a text is its last lexeme. -/
theorem Pending.finish {lexemes : List Lexeme} (hpending : Pending s cs)
    (h : s.finish = some lexemes) : Spells lexemes cs := by
  cases hpending with
  | between =>
    obtain rfl := Option.some.inj h
    exact .nil
  | number n =>
    obtain rfl := Option.some.inj h
    have hends : EndsNumber [] := fun _ hc => absurd hc (by simp)
    simpa using Spells.number n hends .nil
  | string | escape | hex => cases h

/-- **What is scanned is spelled.** -/
theorem spells_of_scan {rest : List Char} {lexemes : List Lexeme} (hpending : Pending s cs)
    (h : s.scan rest = some lexemes) : Spells lexemes (cs ++ rest) := by
  induction rest generalizing s cs lexemes with
  | nil =>
    rw [List.append_nil]
    exact hpending.finish h
  | cons c rest ih =>
    rw [scan] at h
    split at h
    next next ended hstep =>
      obtain ⟨later, hlater, rfl⟩ := Option.map_eq_some_iff.mp h
      obtain ⟨pending, hpending, hspells⟩ := hpending.step hstep
      have hall := hspells (ih hpending hlater)
      rwa [List.append_assoc] at hall
    next => cases h

end Scan

/-! ## What a parse has taken -/

/-- Parts with a comma behind each. -/
def separated (parts : List (List Lexeme)) : List Lexeme :=
  parts.flatMap (· ++ [.mark .comma])

@[simp] theorem separated_nil : separated [] = [] := rfl

@[simp] theorem separated_snoc (parts : List (List Lexeme)) (last : List Lexeme) :
    separated (parts ++ [last]) = separated parts ++ (last ++ [.mark .comma]) := by
  simp [separated]

/-- With a comma between each two, there is none behind the last. -/
theorem intercalate_snoc (parts : List (List Lexeme)) (last : List Lexeme) :
    List.intercalate [.mark .comma] (parts ++ [last]) = separated parts ++ last := by
  induction parts with
  | nil => exact List.intercalate_singleton
  | cons part parts ih =>
    cases parts with
    | nil => simp [separated]
    | cons next later =>
      rw [List.cons_append, List.cons_append, List.intercalate_cons_cons, ← List.cons_append, ih]
      simp [separated]

theorem itemLexemes_eq_map : (items : List Json) → itemLexemes items = items.map lexemes
  | [] => rfl
  | item :: rest => by rw [itemLexemes, itemLexemes_eq_map rest, List.map_cons]

/-- The lexemes of an array, its last item apart. -/
@[simp] theorem lexemes_array_snoc (items : List Json) (last : Json) :
    (array (items ++ [last])).lexemes = .mark .openArray ::
      (separated (items.map lexemes) ++ (last.lexemes ++ [.mark .closeArray])) := by
  rw [lexemes, itemLexemes_eq_map, List.map_append, List.map_singleton, intercalate_snoc,
    List.append_assoc]

/-- The lexemes of a member of an object. -/
def memberOf (member : String × Json) : List Lexeme :=
  .string member.1 :: .mark .colon :: member.2.lexemes

theorem memberLexemes_eq_map : (members : List (String × Json)) →
    memberLexemes members = members.map memberOf
  | [] => rfl
  | (name, value) :: rest => by
    rw [memberLexemes, memberLexemes_eq_map rest, List.map_cons, memberOf]

/-- The lexemes of an object, its last member apart. -/
@[simp] theorem lexemes_object_snoc (members : List (String × Json)) (name : String)
    (last : Json) :
    (object (members ++ [(name, last)])).lexemes = .mark .openObject ::
      (separated (members.map memberOf) ++
        (.string name :: .mark .colon :: (last.lexemes ++ [.mark .closeObject]))) := by
  rw [lexemes, memberLexemes_eq_map, List.map_append, List.map_singleton, intercalate_snoc,
    List.append_assoc]
  rfl

/-- The lexemes that have been taken of an array or an object. -/
def Begun.taken : Begun → List Lexeme
  | .array items => .mark .openArray :: separated (items.map lexemes)
  | .object members name =>
    .mark .openObject :: (separated (members.map memberOf) ++ [.string name, .mark .colon])

/-- Those of all that has begun, the outermost first. -/
def outerTaken : List Begun → List Lexeme
  | [] => []
  | inner :: outer => outerTaken outer ++ inner.taken

namespace Parse

/-- **The lexemes that have led somewhere.** -/
def taken : Parse → List Lexeme
  | .beforeValue outer => outerTaken outer
  | .beforeName members outer =>
    outerTaken outer ++ .mark .openObject :: separated (members.map memberOf)
  | .beforeColon members name outer =>
    outerTaken outer ++ .mark .openObject :: (separated (members.map memberOf) ++ [.string name])
  | .behind value outer => outerTaken outer ++ value.lexemes

/-- **Every step takes its lexeme.** -/
theorem taken_of_step {p q : Parse} {lexeme : Lexeme} (h : p.step lexeme = some q) :
    q.taken = p.taken ++ [lexeme] := by
  unfold step at h
  split at h <;> cases h
  all_goals simp only [taken, outerTaken, Begun.taken, lexemes_array_snoc, lexemes_object_snoc]
  all_goals simp [memberOf, lexemes, itemLexemes, memberLexemes]

/-- So does every run. -/
theorem taken_of_run {p q : Parse} {lexemes : List Lexeme} (h : p.run lexemes = some q) :
    q.taken = p.taken ++ lexemes := by
  induction lexemes generalizing p with
  | nil =>
    obtain rfl := Option.some.inj h
    exact (List.append_nil p.taken).symm
  | cons lexeme later ih =>
    rw [run_cons] at h
    obtain ⟨next, hstep, hlater⟩ := Option.bind_eq_some_iff.mp h
    rw [ih hlater, taken_of_step hstep, List.append_assoc, List.singleton_append]

end Parse

/-- Some lexemes are parsed as the value that they are of, and as no
other. -/
theorem parse_eq_some_iff {lexemes : List Lexeme} {j : Json} :
    parse lexemes = some j ↔ lexemes = j.lexemes := by
  constructor
  · intro h
    rw [parse] at h
    split at h
    next value hrun =>
      obtain rfl := Option.some.inj h
      exact (Parse.taken_of_run hrun).symm
    next => cases h
  · rintro rfl
    rw [parse, Parse.run_lexemes]

/-- **A text is read as a value exactly where it spells the lexemes of
it.** -/
theorem read_eq_some_iff {text : String} {j : Json} :
    read text = some j ↔ Spells j.lexemes text.toList := by
  constructor
  · intro h
    obtain ⟨lexemes, hscan, hparse⟩ := Option.bind_eq_some_iff.mp h
    obtain rfl := parse_eq_some_iff.mp hparse
    exact Scan.spells_of_scan .between hscan
  · exact read_of_spells

end Json

end FeatureTree
