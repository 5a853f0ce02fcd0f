import Mathlib.Computability.RegularExpressions
import FeatureTree.Proofs.Block
/-!
# The productions of the grammar

What the grammar allows inside each rule, as a pattern of keys in their
order (`Rule.production`). Lines that carry no content may stand
anywhere, and are left out before a body is held against its pattern
(`Body.content`). A document is one feature whose rules all follow their
productions (`Body.IsDocument`).
-/

namespace FeatureTree

/-- The kinds of line that may stand anywhere and tell nothing. -/
def TokenKind.isNoise : TokenKind → Bool
  | .endOfFile | .empty | .comment | .language => true
  | _ => false

/-- A line that tells nothing. -/
def Block.isNoise : Block → Bool
  | .leaf token => token.kind.isNoise
  | .scope _ _ => false

/-- The blocks of a body without the lines that tell nothing. -/
def Body.content (body : Body) : Body :=
  body.filter fun block => !block.isNoise

/-- A pattern of keys. -/
abbrev Pattern := RegularExpression Key

namespace Pattern

/-- One line of a kind. -/
def line (kind : TokenKind) : Pattern :=
  .char (.token kind)

/-- One block of a rule. -/
def block (rule : Rule) : Pattern :=
  .char (.rule rule)

/-- What a pattern matches, or nothing. -/
def maybe (pattern : Pattern) : Pattern :=
  1 + pattern

/-- Any number of lines of a kind. -/
def lines (kind : TokenKind) : Pattern :=
  (line kind).star

/-- Any number of blocks of a rule. -/
def blocks (rule : Rule) : Pattern :=
  (block rule).star

/-- The keys that a pattern names. -/
def keys : Pattern → List Key
  | .zero | .epsilon => []
  | .char key => [key]
  | .plus p q | .comp p q => keys p ++ keys q
  | .star p => keys p

/-- A word is made of keys that its pattern names. -/
theorem mem_keys_of_matches {p : Pattern} {word : List Key} (h : word ∈ p.matches') :
    ∀ key ∈ word, key ∈ p.keys := by
  induction p generalizing word with
  | zero => exact h.elim
  | epsilon =>
    rw [Set.mem_singleton_iff.mp h]
    exact fun key hkey => (List.not_mem_nil hkey).elim
  | char key =>
    rw [Set.mem_singleton_iff.mp h]
    exact fun key' hkey' => hkey'
  | plus p q ihp ihq =>
    rintro key hkey
    rcases h with hp | hq
    · exact List.mem_append_left _ (ihp hp key hkey)
    · exact List.mem_append_right _ (ihq hq key hkey)
  | comp p q ihp ihq =>
    obtain ⟨front, hfront, back, hback, rfl⟩ := Language.mem_mul.mp h
    rintro key hkey
    rcases List.mem_append.mp hkey with hkey | hkey
    · exact List.mem_append_left _ (ihp hfront key hkey)
    · exact List.mem_append_right _ (ihq hback key hkey)
  | star p ih =>
    obtain ⟨words, rfl, hwords⟩ := Language.mem_kstar.mp h
    rintro key hkey
    obtain ⟨word, hword, hkey⟩ := List.mem_flatten.mp hkey
    exact ih (hwords word hword) key hkey

end Pattern

open Pattern in
/-- **The productions.** Outside all rules stands one feature; a custom
rule has no production. -/
def Rule.production : Rule → Pattern
  | .root => block .feature
  | .feature => block .featureHeader * maybe (block .background) * blocks .definition
  | .featureHeader => maybe (block .tags) * line .featureLine * maybe (block .description)
  | .background => line .backgroundLine * maybe (block .description) * blocks .step
  | .definition => maybe (block .tags) * (block .scenario + block .outline)
  | .scenario => line .scenarioLine * maybe (block .description) * blocks .step
  | .outline =>
    line .outlineLine * maybe (block .description) * blocks .step * blocks .examples
  | .examples =>
    maybe (block .tags) * line .examplesLine * maybe (block .description) * lines .tableRow
  | .step => line .stepLine * maybe (block .dataTable + block .docString)
  | .dataTable => lines .tableRow
  | .docString =>
    line .docStringSeparator * lines .other * maybe (line .docStringSeparator)
  | .tags => lines .tagLine
  | .description => lines .other
  | .custom _ => 0

/-- The keys of some blocks are a word of a pattern. -/
def Body.Matches (pattern : Pattern) (body : Body) : Prop :=
  body.map Block.key ∈ pattern.matches'

instance (pattern : Pattern) (body : Body) : Decidable (body.Matches pattern) :=
  inferInstanceAs (Decidable (_ ∈ pattern.matches'))

mutual

/-- A block in which every rule follows its production. -/
def Block.Grammatical : Block → Prop
  | .leaf _ => True
  | .scope rule body => (Body.content body).Matches rule.production ∧ Body.Grammatical body

/-- A body in which every rule follows its production. -/
def Body.Grammatical : Body → Prop
  | [] => True
  | block :: rest => block.Grammatical ∧ Body.Grammatical rest

end

mutual

/-- Whether a block follows the grammar can be computed. -/
def Block.decGrammatical : (block : Block) → Decidable block.Grammatical
  | .leaf _ => .isTrue trivial
  | .scope rule body =>
    @instDecidableAnd ((Body.content body).Matches rule.production) (Body.Grammatical body)
      inferInstance (Body.decGrammatical body)

/-- Whether a body follows the grammar can be computed. -/
def Body.decGrammatical : (body : Body) → Decidable (Body.Grammatical body)
  | [] => .isTrue trivial
  | block :: rest =>
    @instDecidableAnd block.Grammatical (Body.Grammatical rest) block.decGrammatical
      (Body.decGrammatical rest)

end

instance : DecidablePred Body.Grammatical :=
  Body.decGrammatical

/-- **A document**: one feature, and every rule follows its production. -/
def Body.IsDocument (body : Body) : Prop :=
  body.content.Matches Rule.root.production ∧ body.Grammatical

instance : DecidablePred Body.IsDocument := fun body =>
  inferInstanceAs (Decidable (body.content.Matches Rule.root.production ∧ body.Grammatical))

namespace Body

variable {body : Body} {kind : TokenKind} {rule : Rule} {p q : Pattern}

/-! ## What is left out -/

/-- A reading of lines that tell something misses nothing. -/
theorem leaves_content (h : kind.isNoise = false) :
    leaves kind body.content = leaves kind body := by
  rw [leaves, content, List.filterMap_filter]
  congr 1
  funext block
  cases block with
  | scope rule inside => rfl
  | leaf token =>
    by_cases hk : token.kind = kind
    · simp [Block.isNoise, hk, h]
    · simp [hk]

/-- Nor does a reading of rules. -/
theorem bodies_content : bodies rule body.content = bodies rule body := by
  rw [bodies, content, List.filterMap_filter]
  congr 1
  funext block
  cases block with
  | scope rule' inside => rfl
  | leaf token => simp

theorem leaves_of_content {shape : Body} (hnoise : kind.isNoise = false)
    (h : body.content = shape) : leaves kind body = leaves kind shape := by
  rw [← leaves_content hnoise, h]

theorem bodies_of_content {shape : Body} (h : body.content = shape) :
    bodies rule body = bodies rule shape := by
  rw [← bodies_content, h]

/-- The rules inside a grammatical body follow their productions. -/
theorem Grammatical.of_mem_bodies {inside : Body} (h : body.Grammatical)
    (hmem : inside ∈ bodies rule body) : (Block.scope rule inside).Grammatical := by
  induction body with
  | nil => cases hmem
  | cons block rest ih =>
    cases block with
    | leaf token => exact ih h.2 hmem
    | scope rule' inside' =>
      rw [bodies_scope] at hmem
      by_cases hr : rule' = rule
      · rw [if_pos hr] at hmem
        rcases List.mem_cons.mp hmem with rfl | hrest
        · exact hr ▸ h.1
        · exact ih h.2 hrest
      · rw [if_neg hr] at hmem
        exact ih h.2 hmem

/-- So does the one block of a rule, where there is one. -/
theorem Grammatical.of_bodies_eq {inside : Body} (h : body.Grammatical)
    (hbodies : bodies rule body = [inside]) : (Block.scope rule inside).Grammatical :=
  h.of_mem_bodies (hbodies ▸ List.mem_singleton_self inside)

/-- What stands in a rule and tells something, its production names. -/
theorem key_mem_production {block : Block} (h : (Block.scope rule body).Grammatical)
    (hmem : block ∈ body) (hnoise : block.isNoise = false) : block.key ∈ rule.production.keys := by
  have hcontent : block ∈ body.content :=
    List.mem_filter.mpr ⟨hmem, by rw [hnoise]; rfl⟩
  exact Pattern.mem_keys_of_matches h.1 _ (List.mem_map_of_mem hcontent)

/-! ## Words of a pattern -/

theorem matches_mul :
    body.Matches (p * q) ↔
      ∃ front back, body = front ++ back ∧ front.Matches p ∧ back.Matches q := by
  rw [Matches, RegularExpression.matches'_mul, Language.mem_mul]
  constructor
  · rintro ⟨u, hu, v, hv, huv⟩
    obtain ⟨front, back, rfl, rfl, rfl⟩ := List.map_eq_append_iff.mp huv.symm
    exact ⟨front, back, rfl, hu, hv⟩
  · rintro ⟨front, back, rfl, hp, hq⟩
    exact ⟨_, hp, _, hq, List.map_append.symm⟩

theorem matches_add : body.Matches (p + q) ↔ body.Matches p ∨ body.Matches q :=
  Iff.rfl

theorem matches_maybe : body.Matches (Pattern.maybe p) ↔ body = [] ∨ body.Matches p := by
  rw [Pattern.maybe, matches_add]
  exact or_congr_left List.map_eq_nil_iff

theorem matches_line :
    body.Matches (Pattern.line kind) ↔ ∃ token, token.kind = kind ∧ body = [.leaf token] := by
  constructor
  · intro h
    obtain ⟨block, rfl, hkey⟩ := List.map_eq_singleton_iff.mp (Set.mem_singleton_iff.mp h)
    cases block with
    | leaf token => exact ⟨token, Key.token.inj hkey, rfl⟩
    | scope rule inside => cases hkey
  · rintro ⟨token, rfl, rfl⟩
    exact Set.mem_singleton _

theorem matches_block :
    body.Matches (Pattern.block rule) ↔ ∃ inside, body = [.scope rule inside] := by
  constructor
  · intro h
    obtain ⟨block, rfl, hkey⟩ := List.map_eq_singleton_iff.mp (Set.mem_singleton_iff.mp h)
    cases block with
    | leaf token => cases hkey
    | scope rule' inside => exact ⟨inside, by rw [Key.rule.inj hkey]⟩
  · rintro ⟨inside, rfl⟩
    exact Set.mem_singleton _

/-- Every block of a repetition is a word of what is repeated. -/
theorem matches_star_char {key : Key} :
    body.Matches (RegularExpression.char key).star ↔ ∀ block ∈ body, block.key = key := by
  rw [Matches, RegularExpression.matches'_star, Language.mem_kstar]
  constructor
  · rintro ⟨words, hwords, hmem⟩ block hblock
    obtain ⟨word, hword, hkey⟩ :=
      List.mem_flatten.mp (hwords ▸ List.mem_map_of_mem (f := Block.key) hblock)
    have hsingle : word = [key] := hmem word hword
    exact List.mem_singleton.mp (hsingle ▸ hkey)
  · intro h
    -- Each block is a word by itself.
    refine ⟨body.map fun _ => [key], ?_, ?_⟩
    · induction body with
      | nil => rfl
      | cons block rest ih =>
        have hrest := ih fun b hb => h b (List.mem_cons_of_mem _ hb)
        rw [List.map_cons, h block List.mem_cons_self, hrest]
        rfl
    · rintro word hword
      obtain ⟨-, -, rfl⟩ := List.mem_map.mp hword
      exact Set.mem_singleton _

theorem matches_lines :
    body.Matches (Pattern.lines kind) ↔
      ∃ tokens : List Token, (∀ token ∈ tokens, token.kind = kind) ∧ body = tokens.map .leaf := by
  rw [Pattern.lines, Pattern.line, matches_star_char]
  constructor
  · intro h
    induction body with
    | nil => exact ⟨[], by simp, rfl⟩
    | cons block rest ih =>
      obtain ⟨tokens, hkind, rfl⟩ := ih fun b hb => h b (List.mem_cons_of_mem _ hb)
      have hkey := h block List.mem_cons_self
      cases block with
      | scope rule inside => cases hkey
      | leaf token =>
        exact ⟨token :: tokens, List.forall_mem_cons.mpr ⟨Key.token.inj hkey, hkind⟩, rfl⟩
  · rintro ⟨tokens, hkind, rfl⟩ block hblock
    obtain ⟨token, htoken, rfl⟩ := List.mem_map.mp hblock
    exact congrArg Key.token (hkind token htoken)

theorem matches_blocks :
    body.Matches (Pattern.blocks rule) ↔
      ∃ insides : List Body, body = insides.map (.scope rule) := by
  rw [Pattern.blocks, Pattern.block, matches_star_char]
  constructor
  · intro h
    induction body with
    | nil => exact ⟨[], rfl⟩
    | cons block rest ih =>
      obtain ⟨insides, rfl⟩ := ih fun b hb => h b (List.mem_cons_of_mem _ hb)
      have hkey := h block List.mem_cons_self
      cases block with
      | leaf token => cases hkey
      | scope rule' inside => exact ⟨inside :: insides, by rw [← Key.rule.inj hkey]; rfl⟩
  · rintro ⟨insides, rfl⟩ block hblock
    obtain ⟨inside, -, rfl⟩ := List.mem_map.mp hblock
    rfl

theorem matches_maybe_block :
    body.Matches (Pattern.maybe (Pattern.block rule)) ↔
      ∃ inside : Option Body, body = inside.toList.map (.scope rule) := by
  rw [matches_maybe, matches_block]
  constructor
  · rintro (rfl | ⟨inside, rfl⟩)
    · exact ⟨none, rfl⟩
    · exact ⟨some inside, rfl⟩
  · rintro ⟨_ | inside, rfl⟩
    · exact Or.inl rfl
    · exact Or.inr ⟨inside, rfl⟩

/-! ## What the productions make of a body

The blocks that each rule holds, in their order. An option stands for a
block that may be missing, a list for a repetition. -/

theorem of_matches_feature (h : body.Matches Rule.feature.production) :
    ∃ (header : Body) (background : Option Body) (definitions : List Body),
      body = .scope .featureHeader header ::
        (background.toList.map (.scope .background) ++ definitions.map (.scope .definition)) := by
  simp only [Rule.production, matches_mul, matches_block, matches_maybe_block, matches_blocks] at h
  obtain ⟨_, _, rfl, ⟨_, _, rfl, ⟨header, rfl⟩, background, rfl⟩, definitions, rfl⟩ := h
  exact ⟨header, background, definitions, by simp⟩

theorem of_matches_featureHeader (h : body.Matches Rule.featureHeader.production) :
    ∃ (tags : Option Body) (line : Token) (description : Option Body), line.kind = .featureLine ∧
      body = tags.toList.map (.scope .tags) ++
        .leaf line :: description.toList.map (.scope .description) := by
  simp only [Rule.production, matches_mul, matches_line, matches_maybe_block] at h
  obtain ⟨_, _, rfl, ⟨_, _, rfl, ⟨tags, rfl⟩, line, hline, rfl⟩, description, rfl⟩ := h
  exact ⟨tags, line, description, hline, by simp⟩

/-- A background, a scenario, and an outline before its examples. -/
theorem of_matches_steps
    (h : body.Matches
      (Pattern.line kind * Pattern.maybe (Pattern.block .description) * Pattern.blocks .step)) :
    ∃ (line : Token) (description : Option Body) (steps : List Body), line.kind = kind ∧
      body = .leaf line ::
        (description.toList.map (.scope .description) ++ steps.map (.scope .step)) := by
  simp only [matches_mul, matches_line, matches_maybe_block, matches_blocks] at h
  obtain ⟨_, _, rfl, ⟨_, _, rfl, ⟨line, hline, rfl⟩, description, rfl⟩, steps, rfl⟩ := h
  exact ⟨line, description, steps, hline, by simp⟩

theorem of_matches_definition (h : body.Matches Rule.definition.production) :
    ∃ (tags : Option Body) (inside : Body),
      body = tags.toList.map (.scope .tags) ++ [.scope .scenario inside] ∨
      body = tags.toList.map (.scope .tags) ++ [.scope .outline inside] := by
  simp only [Rule.production, matches_mul, matches_add, matches_block, matches_maybe_block] at h
  obtain ⟨_, _, rfl, ⟨tags, rfl⟩, ⟨inside, rfl⟩ | ⟨inside, rfl⟩⟩ := h
  · exact ⟨tags, inside, Or.inl rfl⟩
  · exact ⟨tags, inside, Or.inr rfl⟩

theorem of_matches_outline (h : body.Matches Rule.outline.production) :
    ∃ (line : Token) (description : Option Body) (steps examples : List Body),
      line.kind = .outlineLine ∧
      body = .leaf line :: (description.toList.map (.scope .description) ++
        steps.map (.scope .step)) ++ examples.map (.scope .examples) := by
  obtain ⟨front, back, rfl, hfront, hback⟩ := matches_mul.mp h
  obtain ⟨line, description, steps, hline, rfl⟩ := of_matches_steps hfront
  obtain ⟨examples, rfl⟩ := matches_blocks.mp hback
  exact ⟨line, description, steps, examples, hline, rfl⟩

theorem of_matches_examples (h : body.Matches Rule.examples.production) :
    ∃ (tags : Option Body) (line : Token) (description : Option Body) (rows : List Token),
      line.kind = .examplesLine ∧ (∀ row ∈ rows, row.kind = .tableRow) ∧
      body = tags.toList.map (.scope .tags) ++
        .leaf line :: (description.toList.map (.scope .description) ++ rows.map .leaf) := by
  simp only [Rule.production, matches_mul, matches_line, matches_maybe_block, matches_lines] at h
  obtain ⟨_, _, rfl, ⟨_, _, rfl, ⟨_, _, rfl, ⟨tags, rfl⟩, line, hline, rfl⟩, description, rfl⟩,
    rows, hrows, rfl⟩ := h
  exact ⟨tags, line, description, rows, hline, hrows, by simp⟩

theorem of_matches_step (h : body.Matches Rule.step.production) :
    ∃ line : Token, line.kind = .stepLine ∧
      (body = [.leaf line] ∨ ∃ inside, body = [.leaf line, .scope .dataTable inside] ∨
        body = [.leaf line, .scope .docString inside]) := by
  simp only [Rule.production, matches_mul, matches_line, matches_maybe, matches_add,
    matches_block] at h
  obtain ⟨_, _, rfl, ⟨line, hline, rfl⟩, rfl | ⟨inside, rfl⟩ | ⟨inside, rfl⟩⟩ := h
  · exact ⟨line, hline, Or.inl rfl⟩
  · exact ⟨line, hline, Or.inr ⟨inside, Or.inl rfl⟩⟩
  · exact ⟨line, hline, Or.inr ⟨inside, Or.inr rfl⟩⟩

theorem of_matches_docString (h : body.Matches Rule.docString.production) :
    ∃ (opening : Token) (lines : List Token) (closing : Option Token),
      opening.kind = .docStringSeparator ∧ (∀ line ∈ lines, line.kind = .other) ∧
      (∀ line ∈ closing, line.kind = .docStringSeparator) ∧
      body = .leaf opening :: (lines.map .leaf ++ closing.toList.map .leaf) := by
  simp only [Rule.production, matches_mul, matches_line, matches_maybe, matches_lines] at h
  obtain ⟨_, _, rfl, ⟨_, _, rfl, ⟨opening, hopening, rfl⟩, lines, hlines, rfl⟩, hclosing⟩ := h
  obtain rfl | ⟨closing, hkind, rfl⟩ := hclosing
  · exact ⟨opening, lines, none, hopening, hlines, by simp, by simp⟩
  · exact ⟨opening, lines, some closing, hopening, hlines, by simpa using hkind, by simp⟩

end Body

end FeatureTree
