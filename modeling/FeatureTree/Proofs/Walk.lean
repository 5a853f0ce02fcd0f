import FeatureTree.Proofs.Block
import FeatureTree.Proofs.Purge
/-!
# Walks that stop short

The events of a body open and close only what is their own, so behind
them the same rules are open as before (`returns_events`). The other way
round, events that break no bracket are a walk that stops short
(`exists_unfinished`): the blocks outside all rules, and for each rule
that is still open its entering and the blocks inside it so far.
-/

namespace FeatureTree

/-! ## Bodies keep to themselves -/

/-- **The rules open behind `before` stay open all through `inside`**, and
are those open at its end. -/
structure Returns (before inside : List Event) : Prop where
  stays : ∀ part, part <+: inside → openedBy before <:+ openedBy (before ++ part)
  back : openedBy (before ++ inside) = openedBy before

instance {before inside : List Event} : Decidable (Returns before inside) :=
  decidable_of_iff ((∀ part ∈ inside.inits, openedBy before <:+ openedBy (before ++ part)) ∧
      openedBy (before ++ inside) = openedBy before)
    ⟨fun h => ⟨fun part hpart => h.1 part ((List.mem_inits part inside).mpr hpart), h.2⟩,
      fun h => ⟨fun part hpart => h.stays part ((List.mem_inits part inside).mp hpart), h.back⟩⟩

namespace Returns

variable {before inside later : List Event} {rule : Rule}

theorem nil (before : List Event) : Returns before [] where
  stays part hpart := by
    rw [List.prefix_nil.mp hpart, List.append_nil]
  back := by rw [List.append_nil]

/-- What returns twice in a row returns. -/
theorem append (h : Returns before inside) (hlater : Returns (before ++ inside) later) :
    Returns before (inside ++ later) where
  stays part hpart := by
    obtain hfirst | ⟨rest, rfl⟩ :=
      List.prefix_or_prefix_of_prefix hpart (List.prefix_append inside later)
    · exact h.stays part hfirst
    · have hrest := hlater.stays rest ((List.prefix_append_right_inj inside).mp hpart)
      rwa [h.back, List.append_assoc] at hrest
  back := by rw [← List.append_assoc, hlater.back, h.back]

/-- A line opens and closes nothing. -/
theorem leaf (before : List Event) (token : Token) : Returns before [.leaf token] := by
  have hback : openedBy (before ++ [.leaf token]) = openedBy before :=
    openedBy_concat before (.leaf token)
  refine ⟨fun part hpart => ?_, hback⟩
  cases part with
  | nil => rw [List.append_nil]
  | cons event part =>
    obtain ⟨rfl, htail⟩ := List.cons_prefix_cons.mp hpart
    rw [List.prefix_nil.mp htail, hback]

/-- An entering and its exit, with what returns in between. -/
theorem scope (h : Returns (before ++ [.enter rule]) inside) :
    Returns before (.enter rule :: (inside ++ [.exit rule])) := by
  have hback : openedBy (before ++ .enter rule :: (inside ++ [.exit rule])) = openedBy before := by
    have hinside := h.back.trans (openedBy_enter before rule)
    have hexit := openedBy_concat (before ++ [.enter rule] ++ inside) (.exit rule)
    rw [hinside, Brackets.deliver_exit_self rfl] at hexit
    simpa using hexit
  refine ⟨fun part hpart => ?_, hback⟩
  cases part with
  | nil => rw [List.append_nil]
  | cons event part =>
    obtain ⟨rfl, htail⟩ := List.cons_prefix_cons.mp hpart
    obtain rfl | hinside := List.prefix_concat_iff.mp htail
    · rw [hback]
    · have hstays := h.stays part hinside
      rw [openedBy_enter, List.append_assoc] at hstays
      exact (List.suffix_cons rule _).trans hstays

end Returns

mutual

theorem Block.returns_events (before : List Event) : (block : Block) →
    Returns before block.events
  | .leaf token => .leaf before token
  | .scope rule body => (Body.returns_events (before ++ [.enter rule]) body).scope

/-- **The events of a body leave open what was open before.** -/
theorem Body.returns_events (before : List Event) : (body : Body) → Returns before body.events
  | [] => .nil before
  | block :: rest => (block.returns_events before).append (Body.returns_events _ rest)

end

/-- So a rule with a body in it is a stretch. -/
theorem Body.isStretch_events (before : List Event) (rule : Rule) (body : Body) :
    IsStretch before rule body.events := by
  have hreturns := body.returns_events (before ++ [.enter rule])
  refine ⟨fun part hpart => ?_, ?_⟩
  · have hstays := hreturns.stays part hpart
    rwa [openedBy_enter, List.append_assoc] at hstays
  · have hback := hreturns.back
    rwa [openedBy_enter, List.append_assoc] at hback

/-! ## Open rules and their bodies -/

/-- A walk that stops short: the blocks outside all rules, and the open
rules, the innermost first, with the blocks inside each. -/
def unfinished (outermost : Body) : List (Rule × Body) → List Event
  | [] => outermost.events
  | (rule, body) :: outer => unfinished outermost outer ++ .enter rule :: body.events

/-- A walk that stops short goes on with one more block in its innermost
body. -/
theorem exists_unfinished_append (outermost : Body) (opened : List (Rule × Body))
    (block : Block) :
    ∃ outermost' opened', unfinished outermost opened ++ block.events =
      unfinished outermost' opened' ∧ opened'.map Prod.fst = opened.map Prod.fst := by
  cases opened with
  | nil => exact ⟨outermost ++ [block], [], by simp [unfinished, Body.events], rfl⟩
  | cons inner outer =>
    obtain ⟨rule, body⟩ := inner
    exact ⟨outermost, (rule, body ++ [block]) :: outer, by simp [unfinished, Body.events], rfl⟩

/-- **Events that break no bracket are a walk that stops short**, with the
rules open that are on the stack. -/
theorem exists_unfinished {events : List Event}
    (hnone : Receiver.errors ({} : Brackets) events = []) :
    ∃ outermost opened, events = unfinished outermost opened ∧
      openedBy events = opened.map Prod.fst := by
  induction events using List.reverseRecOn with
  | nil => exact ⟨[], [], rfl, rfl⟩
  | append_singleton events event ih =>
    rw [Receiver.errors_append, List.append_eq_nil_iff] at hnone
    obtain ⟨hevents, hlast⟩ := hnone
    obtain ⟨outermost, opened, rfl, hopened⟩ := ih hevents
    rw [openedBy_concat, hopened]
    have hstack : Receiver.after ({} : Brackets) (unfinished outermost opened) =
        { opened := opened.map Prod.fst } := congrArg Brackets.mk hopened
    rw [hstack] at hlast
    cases event with
    | leaf token =>
      obtain ⟨outermost', opened', hevents, hsame⟩ :=
        exists_unfinished_append outermost opened (.leaf token)
      exact ⟨outermost', opened', hevents, hsame.symm⟩
    | enter rule => exact ⟨outermost, (rule, []) :: opened, rfl, rfl⟩
    | exit rule =>
      cases opened with
      | nil =>
        rw [Receiver.errors_cons, List.map_nil, Brackets.deliver_exit_nil rfl] at hlast
        cases hlast
      | cons inner outer =>
        obtain ⟨rule', body⟩ := inner
        by_cases hrule : rule' = rule
        · subst hrule
          -- The innermost rule is exited, and is a block of the body around it from now on.
          obtain ⟨outermost', opened', hevents, hsame⟩ :=
            exists_unfinished_append outermost outer (.scope rule' body)
          refine ⟨outermost', opened', ?_, ?_⟩
          · rw [← hevents]
            simp [unfinished, Block.events]
          · rw [hsame, List.map_cons, Brackets.deliver_exit_self rfl]
        · rw [Receiver.errors_cons, List.map_cons, Brackets.deliver_exit_of_ne rfl hrule] at hlast
          cases hlast

end FeatureTree
