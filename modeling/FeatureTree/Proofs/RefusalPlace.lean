import Mathlib.Data.List.Forall2
import FeatureTree.Proofs.Evaluation
/-!
# Where a walk is refused

The events of a body are refused, if at all, at one place, whatever was
taken in before them (`Body.exists_refusedAt`): what is inside a rule is
judged by what is inside it alone. So where blocks stand for others, one by
one, of the same length and refused at the same place, the bodies are
refused at the same place too (`Body.failAlike`).
-/

namespace FeatureTree

/-! ## Places -/

/-- **Events that are refused at a place**, whatever was taken in before:
those before it are accepted, and the one there is refused with the
error. -/
def RefusedAt (events : List Event) (place : Nat) (error : AssemblyError) : Prop :=
  ∃ before event after, events = before ++ event :: after ∧ before.length = place ∧
    ∀ a : Assembly, ∃ b, a.run before = .ok b ∧ (b.step event).2 = some error

/-- Events that are all accepted, whatever was taken in before. -/
def Unrefused (events : List Event) : Prop :=
  ∀ a : Assembly, ∃ b, a.run events = .ok b

variable {events later : List Event} {place : Nat} {error : AssemblyError}

theorem Unrefused.append (h : Unrefused events) (hlater : Unrefused later) :
    Unrefused (events ++ later) := by
  intro a
  obtain ⟨b, hb⟩ := h a
  obtain ⟨c, hc⟩ := hlater b
  exact ⟨c, by rw [Assembly.run_append, hb]; exact hc⟩

theorem unrefused_enter (rule : Rule) : Unrefused [.enter rule] :=
  fun a => ⟨a.enter rule, rfl⟩

namespace RefusedAt

/-- The place is one of the events. -/
theorem lt_length (h : RefusedAt events place error) : place < events.length := by
  obtain ⟨before, event, after, rfl, rfl, -⟩ := h
  simp

/-- What follows the place makes no difference. -/
theorem append (h : RefusedAt events place error) (later : List Event) :
    RefusedAt (events ++ later) place error := by
  obtain ⟨before, event, after, rfl, hplace, hrefused⟩ := h
  exact ⟨before, event, after ++ later, by simp, hplace, hrefused⟩

/-- What is accepted in front of the events moves it. -/
theorem prepend (h : RefusedAt later place error) (hevents : Unrefused events) :
    RefusedAt (events ++ later) (events.length + place) error := by
  obtain ⟨before, event, after, rfl, rfl, hrefused⟩ := h
  refine ⟨events ++ before, event, after, by simp, by simp, fun a => ?_⟩
  obtain ⟨b, hb⟩ := hevents a
  obtain ⟨c, hc, herror⟩ := hrefused b
  exact ⟨c, by rw [Assembly.run_append, hb]; exact hc, herror⟩

/-- Inside a rule it is one further on. -/
theorem inside (h : RefusedAt events place error) (rule : Rule) :
    RefusedAt (.enter rule :: (events ++ [.exit rule])) (place + 1) error := by
  have hinside := (h.append [.exit rule]).prepend (unrefused_enter rule)
  rwa [List.length_singleton, Nat.add_comm] at hinside

end RefusedAt

/-! ## Blocks and bodies -/

/-- A body is accepted where nothing in it is refused. -/
theorem Body.unrefused_iff {body : Body} : Unrefused body.events ↔ error? body = none := by
  have hrun (a : Assembly) := a.run_body [] body
  simp only [List.append_nil] at hrun
  constructor
  · intro h
    obtain ⟨b, hb⟩ := h (Assembly.start {})
    cases herror : error? body with
    | none => rfl
    | some error =>
      rw [hrun, herror] at hb
      cases hb
  · intro haccepted a
    exact ⟨_, by rw [hrun, haccepted]; rfl⟩

theorem Block.unrefused {block : Block} (haccepted : block.error? = none) :
    Unrefused block.events := by
  intro a
  obtain ⟨child, hchild⟩ := block.exists_child? haccepted a.fallback
  exact ⟨_, a.run_accepted haccepted hchild⟩

/-- **A rule is refused at its own exit** for what its body is refused
for. -/
theorem Body.refusedAt_exit {rule : Rule} {body : Body} (haccepted : error? body = none)
    (hrefusal : refusal? rule body = some error) :
    RefusedAt (Block.scope rule body).events (body.events.length + 1) error := by
  refine ⟨.enter rule :: body.events, .exit rule, [], by simp [Block.events], by simp, fun a => ?_⟩
  have hbody := (a.enter rule).run_body [] body
  have hframe : (a.enter rule).fileAll (Body.children a.fallback body) =
      { a with frames := Body.frame a.fallback rule body :: a.frames } :=
    Assembly.fileAll_frames a (Frame.empty rule) a.frames _
  rw [List.append_nil, haccepted] at hbody
  refine ⟨{ a with frames := Body.frame a.fallback rule body :: a.frames }, ?_, ?_⟩
  · exact hbody.trans (congrArg Except.ok hframe)
  · have hstep := a.step_exit (Body.frame a.fallback rule body)
    have hclose := Body.agrees_close a.fallback body rule
    rw [show (Body.frame a.fallback rule body).rule = rule from rfl] at hstep
    rw [hstep]
    cases hmade : (Body.frame a.fallback rule body).close a.fallback with
    | error fault =>
      rw [hmade] at hclose
      exact hclose.symm.trans hrefusal
    | ok child =>
      rw [hmade] at hclose
      rw [hclose.1] at hrefusal
      cases hrefusal

mutual

/-- A block that is refused is refused at one place, -/
theorem Block.exists_refusedAt : (block : Block) → block.error? = some error →
    ∃ place, RefusedAt block.events place error
  | .leaf _, h => by cases h
  | .scope rule body, h => by
    rw [Block.error?] at h
    rcases Option.or_eq_some_iff.mp h with hbody | ⟨haccepted, hrefusal⟩
    · obtain ⟨place, hplace⟩ := Body.exists_refusedAt body hbody
      exact ⟨place + 1, hplace.inside rule⟩
    · exact ⟨_, Body.refusedAt_exit haccepted hrefusal⟩

/-- **and so is a body.** -/
theorem Body.exists_refusedAt : (body : Body) → body.error? = some error →
    ∃ place, RefusedAt body.events place error
  | [], h => by cases h
  | block :: rest, h => by
    rw [Body.error?] at h
    rcases Option.or_eq_some_iff.mp h with hblock | ⟨haccepted, hrest⟩
    · obtain ⟨place, hplace⟩ := block.exists_refusedAt hblock
      exact ⟨place, hplace.append (Body.events rest)⟩
    · obtain ⟨place, hplace⟩ := Body.exists_refusedAt rest hrest
      exact ⟨_, hplace.prepend (Block.unrefused haccepted)⟩

end

/-! ## Walks that fail alike -/

/-- **Two walks of one length that are refused at the same place with the
same error**, or not at all. -/
structure FailAlike (events events' : List Event) : Prop where
  length : events.length = events'.length
  refused : (Unrefused events ∧ Unrefused events') ∨
    ∃ place error, RefusedAt events place error ∧ RefusedAt events' place error

namespace FailAlike

variable {events' later' : List Event}

theorem append (h : FailAlike events events') (hlater : FailAlike later later') :
    FailAlike (events ++ later) (events' ++ later') where
  length := by rw [List.length_append, List.length_append, h.length, hlater.length]
  refused := by
    rcases h.refused with ⟨hevents, hevents'⟩ | ⟨place, error, hplace, hplace'⟩
    · rcases hlater.refused with ⟨hrest, hrest'⟩ | ⟨place, error, hplace, hplace'⟩
      · exact .inl ⟨hevents.append hrest, hevents'.append hrest'⟩
      · have hmoved := hplace'.prepend hevents'
        rw [← h.length] at hmoved
        exact .inr ⟨_, error, hplace.prepend hevents, hmoved⟩
    · exact .inr ⟨place, error, hplace.append later, hplace'.append later'⟩

end FailAlike

/-- A block fails as it does itself. -/
theorem Block.failAlike_refl (block : Block) : FailAlike block.events block.events where
  length := rfl
  refused := by
    cases herror : block.error? with
    | none => exact .inl ⟨Block.unrefused herror, Block.unrefused herror⟩
    | some error =>
      obtain ⟨place, hplace⟩ := block.exists_refusedAt herror
      exact .inr ⟨place, error, hplace, hplace⟩

/-- Lines fail alike, whatever they are. -/
theorem Block.failAlike_leaf (token token' : Token) :
    FailAlike (Block.leaf token).events (Block.leaf token').events where
  length := rfl
  refused := .inl ⟨Block.unrefused rfl, Block.unrefused rfl⟩

/-- **Bodies fail alike where their blocks do**, one by one. -/
theorem Body.failAlike {body body' : Body}
    (h : List.Forall₂ (fun block block' => FailAlike block.events block'.events) body body') :
    FailAlike body.events body'.events := by
  induction h with
  | nil => exact ⟨rfl, .inl ⟨fun a => ⟨a, rfl⟩, fun a => ⟨a, rfl⟩⟩⟩
  | cons hblock _ ih => exact hblock.append ih

/-- Rules that make no part of a document fail as their bodies do. -/
theorem Block.failAlike_scope {rule rule' : Rule} {body body' : Body}
    (hrule : ∀ body, Body.refusal? rule body = none)
    (hrule' : ∀ body, Body.refusal? rule' body = none)
    (h : FailAlike body.events body'.events) :
    FailAlike (Block.scope rule body).events (Block.scope rule' body').events where
  length := by simp [Block.events, h.length]
  refused := by
    rcases h.refused with ⟨hbody, hbody'⟩ | ⟨place, error, hplace, hplace'⟩
    · have haccepted := error?_scope (Body.unrefused_iff.mp hbody) (hrule body)
      have haccepted' := error?_scope (Body.unrefused_iff.mp hbody') (hrule' body')
      exact .inl ⟨Block.unrefused haccepted, Block.unrefused haccepted'⟩
    · exact .inr ⟨place + 1, error, hplace.inside rule, hplace'.inside rule'⟩

end FeatureTree
