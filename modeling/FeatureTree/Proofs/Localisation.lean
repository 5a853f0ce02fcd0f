import FeatureTree.Proofs.Alike
import FeatureTree.Proofs.Evaluation
import FeatureTree.Proofs.Walk
/-!
# Where the feature comes from

A run that meets no error gives the feature of the first block outside
all rules that tells one, and that feature is what the block gives by
itself (`assemble_localised`). The walk need not come to an end: rules
that are still open at its end contribute nothing, and neither does what
stands before the block, behind it, or in other rules.
-/

namespace FeatureTree

/-! ## Blocks outside all rules -/

/-- **A block of `rule` outside all rules**, in any walk: its rule is
entered behind `before`, where none is open, stays open all through
`inside`, and is then exited. -/
structure IsOutermost (rule : Rule) (events before inside : List Event) : Prop where
  split : ∃ after, events = before ++ .enter rule :: (inside ++ .exit rule :: after)
  outside : openedBy before = []
  stretch : IsStretch before rule inside

/-- The first of them. -/
structure IsFirstOutermost (rule : Rule) (events before inside : List Event) : Prop
    extends IsOutermost rule events before inside where
  first : ∀ before' inside', IsOutermost rule events before' inside' →
    before.length ≤ before'.length

section

variable {settings : Settings} {events later before inside : List Event} {rule : Rule}
  {made : Option Feature} {outermost : Body} {opened : List (Rule × Body)}

/-- A block between two bodies is one, whatever follows. -/
theorem Body.isOutermost_events (earlier inside : Body) (rule : Rule) (after : List Event) :
    IsOutermost rule (earlier.events ++ .enter rule :: (inside.events ++ .exit rule :: after))
      earlier.events inside.events where
  split := ⟨after, rfl⟩
  outside := (earlier.returns_events []).back
  stretch := inside.isStretch_events earlier.events rule

/-- **Where no bracket is broken, what comes before such a block is a
body**, and so is its inside. -/
theorem IsOutermost.exists_bodies (h : IsOutermost rule events before inside)
    (hnone : Receiver.errors ({} : Brackets) events = []) :
    ∃ earlier body : Body, before = earlier.events ∧ inside = body.events := by
  obtain ⟨after, rfl⟩ := h.split
  have hsplit : before ++ .enter rule :: (inside ++ .exit rule :: after) =
      (before ++ .enter rule :: inside) ++ .exit rule :: after := by simp
  rw [hsplit, Receiver.errors_append, List.append_eq_nil_iff] at hnone
  -- Up to the exit this is a walk that stops short, with the rule of the block alone open.
  obtain ⟨earlier, opened, hevents, hopened⟩ := exists_unfinished hnone.1
  rw [h.stretch.innermost, h.outside] at hopened
  obtain ⟨⟨rule', body⟩, rfl, rfl⟩ := List.map_eq_singleton_iff.mp hopened.symm
  have hbefore := h.stretch.unique (body.isStretch_events earlier.events rule') hevents
  subst hbefore
  exact ⟨earlier, body, rfl, (List.cons.inj (List.append_cancel_left hevents)).2⟩

/-! ## Runs that go on -/

/-- A run without an error breaks no bracket. -/
theorem errors_brackets_of_assemble (h : assemble settings events = .ok made) :
    Receiver.errors ({} : Brackets) events = [] := by
  have herrors := (Assembly.start settings).errors_brackets events
  rwa [(assemble_eq_ok_iff.mp h).1] at herrors

/-- The first feature outside all rules stays the first. -/
theorem Assembly.finish_deliverAll {a : Assembly} {f : Feature} (hf : a.finish = some f)
    (events : List Event) : (a.deliverAll events).finish = some f := by
  obtain ⟨-, more, hmore⟩ := a.root_deliverAll events
  have hfinish (a : Assembly) : a.finish =
      (picked (.rule .feature) Child.feature? a.root.children).head? := rfl
  rw [hfinish] at hf
  rw [hfinish, ← hmore, picked_append, List.head?_append, hf]
  rfl

/-- **What is told first is told in the end**, if the run goes on without
an error. -/
theorem assemble_of_append (h : assemble settings (events ++ later) = .ok made) :
    ∃ told, assemble settings events = .ok told ∧ ∀ f, told = some f → made = some f := by
  obtain ⟨hnone, rfl⟩ := assemble_eq_ok_iff.mp h
  rw [Receiver.errors_append, List.append_eq_nil_iff] at hnone
  refine ⟨_, assemble_eq_ok_iff.mpr ⟨hnone.1, rfl⟩, fun f hf => ?_⟩
  rw [reached_append]
  exact Assembly.finish_deliverAll hf later

/-! ## Rules that stay open -/

/-- A walk that stops short begins with the blocks outside all rules. -/
theorem exists_unfinished_eq (outermost : Body) (opened : List (Rule × Body)) :
    ∃ rest, unfinished outermost opened = outermost.events ++ rest := by
  induction opened with
  | nil => exact ⟨[], (List.append_nil _).symm⟩
  | cons inner outer ih =>
    obtain ⟨rest, hrest⟩ := ih
    refine ⟨rest ++ .enter inner.1 :: inner.2.events, ?_⟩
    rw [unfinished, hrest, List.append_assoc]

/-- A run without an error meets none in its first part. -/
theorem Assembly.run_append_eq_ok {start a : Assembly}
    (h : start.run (events ++ later) = .ok a) :
    ∃ b, start.run events = .ok b ∧ b.run later = .ok a := by
  rw [run_append] at h
  cases hrun : start.run events with
  | error error =>
    rw [hrun] at h
    cases h
  | ok b =>
    rw [hrun] at h
    exact ⟨b, rfl, h⟩

/-- The blocks of the innermost open rule are filed in its frame. -/
theorem Assembly.run_unfinished_cons {start a : Assembly} {rule : Rule} {body : Body}
    (h : start.run (unfinished outermost ((rule, body) :: opened)) = .ok a) :
    ∃ b, start.run (unfinished outermost opened) = .ok b ∧ body.error? = none ∧
      a = { b with frames := Body.frame b.fallback rule body :: b.frames } := by
  obtain ⟨b, hopened, hinside⟩ := run_append_eq_ok h
  change (b.enter rule).run body.events = .ok a at hinside
  obtain ⟨hbody, rfl⟩ := run_body_eq_ok_iff.mp hinside
  exact ⟨b, hopened, hbody,
    fileAll_frames b (Frame.empty rule) b.frames (body.children b.fallback)⟩

/-- Rules that stay open leave the root as the blocks outside them left
it. -/
theorem Assembly.run_unfinished {start a : Assembly}
    (h : start.run (unfinished outermost opened) = .ok a) :
    ∃ b, start.run outermost.events = .ok b ∧ a.root = b.root := by
  induction opened generalizing a with
  | nil => exact ⟨a, h, rfl⟩
  | cons inner outer ih =>
    obtain ⟨b, hb, -, rfl⟩ := run_unfinished_cons h
    obtain ⟨c, hc, hroot⟩ := ih hb
    exact ⟨c, hc, hroot⟩

/-- **Rules that stay open contribute nothing.** -/
theorem assemble_of_unfinished (h : assemble settings (unfinished outermost opened) = .ok made) :
    assemble settings outermost.events = .ok made := by
  obtain ⟨a, hrun, rfl⟩ := assemble_eq_ok_iff_run.mp h
  obtain ⟨b, hb, hroot⟩ := Assembly.run_unfinished hrun
  refine assemble_eq_ok_iff_run.mpr ⟨b, hb, ?_⟩
  rw [Assembly.finish, ← hroot]
  rfl

/-! ## The feature of a block -/

/-- A feature block that is accepted tells a feature. -/
theorem Body.exists_feature? {body : Body} (herror : (Block.scope .feature body).error? = none)
    (fallback : String) : ∃ f, feature? fallback body = some f := by
  obtain ⟨child, hchild⟩ := Block.exists_child? herror fallback
  obtain ⟨f, hf, -⟩ := Option.map_eq_some_iff.mp hchild
  exact ⟨f, hf⟩

/-- Of the feature blocks up to one outside all rules, the first that
tells a feature decides. -/
theorem IsOutermost.told (hblock : IsOutermost .feature events before inside)
    (h : assemble settings events = .ok made) :
    ∃ earlier body : Body, before = earlier.events ∧ inside = body.events ∧
      (Block.scope .feature body).error? = none ∧
      ∀ f, ((Body.bodies .feature earlier ++ [body]).filterMap
        (Body.feature? settings.language)).head? = some f → made = some f := by
  obtain ⟨earlier, body, rfl, rfl⟩ := hblock.exists_bodies (errors_brackets_of_assemble h)
  obtain ⟨after, rfl⟩ := hblock.split
  have hevents : earlier.events ++ .enter .feature :: (body.events ++ .exit .feature :: after) =
      Body.events (earlier ++ [.scope .feature body]) ++ after := by
    simp [Body.events, Block.events]
  rw [hevents] at h
  obtain ⟨told, htold, hkept⟩ := assemble_of_append h
  obtain ⟨herror, rfl⟩ := assemble_events_eq_ok_iff.mp htold
  rw [Body.error?_append, Option.or_eq_none_iff] at herror
  have hbodies : Body.bodies .feature (earlier ++ [.scope .feature body]) =
      Body.bodies .feature earlier ++ [body] := by simp
  rw [hbodies] at hkept
  exact ⟨earlier, body, rfl, rfl, by simpa [Body.error?] using herror.2, hkept⟩

/-- **A feature block outside all rules makes the run tell one.** -/
theorem IsOutermost.isSome (hblock : IsOutermost .feature events before inside)
    (h : assemble settings events = .ok made) : made.isSome := by
  obtain ⟨earlier, body, -, -, herror, htold⟩ := hblock.told h
  obtain ⟨f, hf⟩ := Body.exists_feature? herror settings.language
  cases hfirst : ((Body.bodies .feature earlier ++ [body]).filterMap
      (Body.feature? settings.language)).head? with
  | some first => rw [htold first hfirst]; rfl
  | none => simp [hf] at hfirst

/-- A rule that stands directly in a body has its events among those of the
body. -/
theorem Body.exists_events_eq {inside body : Body} (h : .scope rule inside ∈ body) :
    ∃ earlier later : Body, body.events =
      earlier.events ++ .enter rule :: (inside.events ++ .exit rule :: later.events) := by
  obtain ⟨earlier, later, rfl⟩ := List.append_of_mem h
  exact ⟨earlier, later, by simp [events, Block.events]⟩

/-- Where a feature is told, there is such a block. -/
theorem exists_isOutermost {f : Feature} (h : assemble settings events = .ok (some f)) :
    ∃ before inside, IsOutermost .feature events before inside := by
  obtain ⟨outermost, opened, rfl, -⟩ := exists_unfinished (errors_brackets_of_assemble h)
  obtain ⟨-, hfirst⟩ := assemble_events_eq_ok_iff.mp (assemble_of_unfinished h)
  obtain ⟨body, hbody, -⟩ := List.mem_filterMap.mp (List.mem_of_head? hfirst)
  obtain ⟨earlier, later, hevents⟩ := Body.exists_events_eq (Body.mem_bodies.mp hbody)
  obtain ⟨rest, hrest⟩ := exists_unfinished_eq outermost opened
  have hblock := Body.isOutermost_events earlier body .feature (later.events ++ rest)
  refine ⟨earlier.events, body.events, ?_⟩
  rw [hrest, hevents]
  simpa using hblock

/-- Before the first one there is no other. -/
theorem IsFirstOutermost.bodies_eq_nil {earlier body : Body}
    (hblock : IsFirstOutermost rule events earlier.events body.events) :
    Body.bodies rule earlier = [] := by
  -- Another block of the rule in front of it would be an earlier one.
  refine Body.bodies_eq_nil_iff.mpr fun (body' : Body) hbody' => ?_
  obtain ⟨front, back, hearlier⟩ := Body.exists_events_eq hbody'
  obtain ⟨after, rfl⟩ := hblock.split
  have hfront := Body.isOutermost_events front body' rule
    (back.events ++ .enter rule :: (body.events ++ .exit rule :: after))
  have hlength := hblock.first front.events body'.events (by simpa [hearlier] using hfront)
  simp only [hearlier, List.length_append, List.length_cons] at hlength
  omega

/-- **The first one tells by itself what the run tells.** -/
theorem IsFirstOutermost.assemble_eq (hblock : IsFirstOutermost .feature events before inside)
    (h : assemble settings events = .ok made) :
    assemble settings (.enter .feature :: (inside ++ [.exit .feature])) = .ok made := by
  obtain ⟨earlier, body, rfl, rfl, herror, htold⟩ := hblock.toIsOutermost.told h
  obtain ⟨f, hf⟩ := Body.exists_feature? herror settings.language
  have hnone := hblock.bodies_eq_nil
  have hmade : made = some f := htold f (by rw [hnone]; simp [hf])
  have hevents : Body.events [.scope .feature body] =
      .enter .feature :: (body.events ++ [.exit .feature]) := by simp [Body.events, Block.events]
  rw [← hevents, hmade]
  exact assemble_events_eq_ok_iff.mpr ⟨Body.error?_singleton herror, by simp [hf]⟩

end

/-- Where there is such a block, there is a first one. -/
theorem IsOutermost.exists_first {rule : Rule} {events before inside : List Event}
    (hblock : IsOutermost rule events before inside) :
    ∃ before inside, IsFirstOutermost rule events before inside := by
  by_cases hfirst : ∀ before' inside', IsOutermost rule events before' inside' →
      before.length ≤ before'.length
  · exact ⟨before, inside, hblock, hfirst⟩
  · push Not at hfirst
    obtain ⟨before', inside', hblock', hlength⟩ := hfirst
    exact hblock'.exists_first
termination_by before.length

/-- **Only the first feature block outside all rules counts.** A run
without an error tells a feature just where there is such a block, and
tells what the first of them tells by itself: lines outside rules, other
rules there, features inside other rules, later features and rules that
are still open at the end contribute nothing. -/
theorem assemble_localised {settings : Settings} {events : List Event} {made : Option Feature}
    (h : assemble settings events = .ok made) :
    (made.isSome ↔ ∃ before inside, IsOutermost .feature events before inside) ∧
      ∀ f, made = some f ↔ ∃ before inside, IsFirstOutermost .feature events before inside ∧
        assemble settings (.enter .feature :: (inside ++ [.exit .feature])) = .ok (some f) := by
  refine ⟨⟨fun hsome => ?_, ?_⟩, fun f => ⟨?_, ?_⟩⟩
  · obtain ⟨f, rfl⟩ := Option.isSome_iff_exists.mp hsome
    exact exists_isOutermost h
  · rintro ⟨before, inside, hblock⟩
    exact hblock.isSome h
  · rintro rfl
    obtain ⟨before, inside, hblock⟩ := exists_isOutermost h
    obtain ⟨before, inside, hfirst⟩ := hblock.exists_first
    exact ⟨before, inside, hfirst, hfirst.assemble_eq h⟩
  · rintro ⟨before, inside, hfirst, halone⟩
    exact Except.ok.inj ((hfirst.assemble_eq h).symm.trans halone)

/-- The events of a feature with a title and nothing else. -/
def titleOnly (line : Nat) (name : String) : List Event :=
  [.enter .feature, .enter .featureHeader,
    .leaf { kind := .featureLine, location := ⟨line, 1⟩, keyword := "Feature", text := name },
    .exit .featureHeader, .exit .feature]

/-- The feature they tell. -/
def titleFeature (line : Nat) (name : String) : Feature :=
  { location := ⟨line, 1⟩, keyword := "Feature", name, description := "", tags := []
    language := "en", background := none, definitions := [] }

/-- Four features: one inside another rule, two outside all rules, and one
inside a rule that stays open. -/
def fourFeatures : List Event :=
  .leaf { kind := .stepLine, location := ⟨1, 1⟩, text := "a" } :: .enter (.custom "Note") ::
    (titleOnly 2 "Aside" ++ .exit (.custom "Note") :: (titleOnly 3 "Sums" ++ titleOnly 4 "Terms" ++
      .enter .background :: titleOnly 5 "Rest"))

/-- The first that stands outside all rules is told, and it is told by
itself. -/
theorem assemble_fourFeatures :
    assemble {} fourFeatures = .ok (some (titleFeature 3 "Sums")) ∧
      ∃ before inside, IsFirstOutermost .feature fourFeatures before inside ∧
        assemble {} (.enter .feature :: (inside ++ [.exit .feature])) =
          .ok (some (titleFeature 3 "Sums")) := by
  have htold : assemble {} fourFeatures = .ok (some (titleFeature 3 "Sums")) := rfl
  obtain ⟨-, hfirst⟩ := assemble_localised htold
  exact ⟨htold, (hfirst _).mp rfl⟩

end FeatureTree
