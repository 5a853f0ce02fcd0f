import FeatureTree.Grammar.Event
/-!
# Blocks

A well-nested walk over a document is a sequence of blocks: a line, or a
rule entered and exited around a sequence of blocks of its own. A body is
such a sequence. What stands directly in a body is read by kind or by
rule, in the order of the walk (`Body.leaves`, `Body.bodies`).
-/

namespace FeatureTree

/-- A line, or a rule with all that stands between its two ends. -/
inductive Block where
  | leaf (token : Token)
  | scope (rule : Rule) (body : List Block)

/-- The blocks inside a rule, or outside all rules, in order. -/
abbrev Body := List Block

/-- What a block is filed under once it has ended. -/
def Block.key : Block → Key
  | .leaf token => .token token.kind
  | .scope rule _ => .rule rule

mutual

/-- The events of a block. -/
def Block.events : Block → List Event
  | .leaf token => [.leaf token]
  | .scope rule body => .enter rule :: (Body.events body ++ [.exit rule])

/-- The events of a body, block after block. -/
def Body.events : Body → List Event
  | [] => []
  | block :: rest => block.events ++ Body.events rest

end

namespace Body

/-- The lines of one kind that stand directly in a body. -/
def leaves (kind : TokenKind) (body : Body) : List Token :=
  body.filterMap fun
    | .leaf token => if token.kind = kind then some token else none
    | .scope _ _ => none

/-- The insides of the blocks of one rule that stand directly in a
body. -/
def bodies (rule : Rule) (body : Body) : List Body :=
  body.filterMap fun
    | .leaf _ => none
    | .scope rule' inside => if rule' = rule then some inside else none

variable {kind : TokenKind} {rule : Rule} {body rest : Body}

@[simp] theorem leaves_nil : leaves kind [] = [] := rfl

@[simp] theorem leaves_leaf {token : Token} :
    leaves kind (.leaf token :: rest) =
      if token.kind = kind then token :: leaves kind rest else leaves kind rest := by
  by_cases h : token.kind = kind <;> simp [leaves, h]

@[simp] theorem leaves_scope {inside : Body} :
    leaves kind (.scope rule inside :: rest) = leaves kind rest := rfl

@[simp] theorem leaves_append : leaves kind (body ++ rest) = leaves kind body ++ leaves kind rest :=
  List.filterMap_append

theorem mem_leaves {token : Token} :
    token ∈ leaves kind body ↔ .leaf token ∈ body ∧ token.kind = kind := by
  rw [leaves, List.mem_filterMap]
  constructor
  · rintro ⟨block, hmem, hread⟩
    cases block with
    | scope rule inside => cases hread
    | leaf token' =>
      by_cases hkind : token'.kind = kind
      · obtain rfl : token' = token := by simpa [hkind] using hread
        exact ⟨hmem, hkind⟩
      · simp [hkind] at hread
  · rintro ⟨hmem, hkind⟩
    exact ⟨_, hmem, if_pos hkind⟩

@[simp] theorem bodies_nil : bodies rule [] = [] := rfl

@[simp] theorem bodies_leaf {token : Token} :
    bodies rule (.leaf token :: rest) = bodies rule rest := rfl

@[simp] theorem bodies_scope {rule' : Rule} {inside : Body} :
    bodies rule (.scope rule' inside :: rest) =
      if rule' = rule then inside :: bodies rule rest else bodies rule rest := by
  by_cases h : rule' = rule <;> simp [bodies, h]

@[simp] theorem bodies_append :
    bodies rule (body ++ rest) = bodies rule body ++ bodies rule rest :=
  List.filterMap_append

@[simp] theorem leaves_map_scope {insides : List Body} :
    leaves kind (insides.map (.scope rule)) = [] := by
  induction insides with
  | nil => rfl
  | cons inside insides ih => exact ih

@[simp] theorem bodies_map_leaf {tokens : List Token} :
    bodies rule (tokens.map .leaf) = [] := by
  induction tokens with
  | nil => rfl
  | cons token tokens ih => exact ih

@[simp] theorem bodies_map_scope {rule' : Rule} {insides : List Body} :
    bodies rule (insides.map (.scope rule')) = if rule' = rule then insides else [] := by
  induction insides with
  | nil => simp
  | cons inside insides ih => by_cases h : rule' = rule <;> simp_all

theorem mem_bodies {inside : Body} : inside ∈ bodies rule body ↔ .scope rule inside ∈ body := by
  rw [bodies, List.mem_filterMap]
  constructor
  · rintro ⟨block, hmem, hread⟩
    cases block with
    | leaf token => cases hread
    | scope rule' inside' =>
      by_cases hrule : rule' = rule
      · obtain rfl : inside' = inside := by simpa [hrule] using hread
        exact hrule ▸ hmem
      · simp [hrule] at hread
  · intro hmem
    exact ⟨_, hmem, if_pos rfl⟩

theorem bodies_eq_nil_iff : bodies rule body = [] ↔ ∀ inside, .scope rule inside ∉ body := by
  rw [List.eq_nil_iff_forall_not_mem]
  exact forall_congr' fun inside => not_congr mem_bodies

/-- Lines of one kind are read as that kind, and all of them. -/
theorem leaves_map_leaf {tokens : List Token} (h : ∀ token ∈ tokens, token.kind = kind) :
    leaves kind (tokens.map .leaf) = tokens := by
  induction tokens with
  | nil => rfl
  | cons token tokens ih =>
    have htail := ih fun t ht => h t (List.mem_cons_of_mem _ ht)
    rw [List.map_cons, leaves_leaf, if_pos (h token List.mem_cons_self), htail]

/-- They are not read as another. -/
theorem leaves_map_leaf_of_ne {kind' : TokenKind} {tokens : List Token}
    (h : ∀ token ∈ tokens, token.kind = kind') (hne : kind' ≠ kind) :
    leaves kind (tokens.map .leaf) = [] := by
  induction tokens with
  | nil => rfl
  | cons token tokens ih =>
    have htoken : token.kind ≠ kind := by rw [h token List.mem_cons_self]; exact hne
    rw [List.map_cons, leaves_leaf, if_neg htoken]
    exact ih fun t ht => h t (List.mem_cons_of_mem _ ht)

/-- The events of two bodies in a row. -/
@[simp] theorem events_append : events (body ++ rest) = events body ++ events rest := by
  induction body with
  | nil => rfl
  | cons block body ih => simp only [List.cons_append, events, ih, List.append_assoc]

/-- Two bodies with an exit behind them are the same where their events
are: the first exit that nothing in the body opened ends it. -/
theorem eq_of_events_append : {body body' : Body} → {rule rule' : Rule} →
    {later later' : List Event} →
    body.events ++ .exit rule :: later = body'.events ++ .exit rule' :: later' →
    body = body' ∧ rule = rule' ∧ later = later'
  | [], [], _, _, _, _, h => by
    obtain ⟨hexit, hlater⟩ := List.cons.inj h
    exact ⟨rfl, Event.exit.inj hexit, hlater⟩
  | [], block :: _, _, _, _, _, h => by cases block <;> cases h
  | block :: _, [], _, _, _, _, h => by cases block <;> cases h
  | .leaf token :: rest, .leaf token' :: rest', _, _, _, _, h => by
    simp only [events, Block.events, List.cons_append, List.nil_append] at h
    obtain ⟨htoken, htail⟩ := List.cons.inj h
    obtain ⟨rfl, hexits⟩ := eq_of_events_append htail
    exact ⟨congrArg (.leaf · :: rest) (Event.leaf.inj htoken), hexits⟩
  | .leaf _ :: _, .scope _ _ :: _, _, _, _, _, h => by cases h
  | .scope _ _ :: _, .leaf _ :: _, _, _, _, _, h => by cases h
  | .scope rule inside :: rest, .scope rule' inside' :: rest', _, _, _, _, h => by
    simp only [events, Block.events, List.cons_append, List.append_assoc, List.nil_append] at h
    obtain ⟨-, hinside⟩ := List.cons.inj h
    obtain ⟨rfl, rfl, hrest⟩ := eq_of_events_append hinside
    obtain ⟨rfl, hexits⟩ := eq_of_events_append hrest
    exact ⟨rfl, hexits⟩

/-- **A walk is that of one body.** -/
theorem events_injective : Function.Injective events := by
  intro body body' h
  have hexit : body.events ++ [.exit .root] = body'.events ++ [.exit .root] :=
    congrArg (· ++ [.exit .root]) h
  exact (eq_of_events_append hexit).1

end Body

end FeatureTree
