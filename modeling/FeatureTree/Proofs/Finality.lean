import FeatureTree.Proofs.Localisation
/-!
# What is told stays told

A run tells its feature at one exit: the first accepted exit of the
feature rule that leaves no rule open (`FirstTells`). Before it there is
no feature, and from it on no event changes the one there is, whether it
is accepted or refused. An error is as final: a run that has failed fails
in the same way however it goes on. `Final` says all this of one run, and
`final` that it holds of every run.
-/

namespace FeatureTree

namespace Assembly

/-- **The exit of the feature rule tells a feature** here: it is accepted,
and takes the number of open rules from one to none. -/
structure Tells (a : Assembly) : Prop where
  accepted : (a.step (.exit .feature)).2 = none
  depth_before : a.depth = 1
  depth_after : (a.step (.exit .feature)).1.depth = 0

variable {a : Assembly}

/-- A child filed outside all rules under the key of a feature is the
feature left at the end, if there is none before it; no other child makes
a difference. -/
theorem finish_file (a : Assembly) (key : Key) (child : Child) :
    (a.file key child).finish =
      a.finish.or (if a.frames = [] ∧ key = .rule .feature then child.feature? else none) := by
  rw [file]
  cases hframes : a.frames with
  | cons frame outer => simp [finish]
  | nil =>
    simp only [finish, Frame.first?, Frame.collect_file, List.head?_append, true_and]
    by_cases hkey : key = .rule .feature
    · simp [if_pos hkey]
    · simp [if_neg hkey]

/-- The frame of a feature is closed to a feature. -/
theorem isSome_feature?_of_close {fallback : String} {frame : Frame} {child : Child}
    (hrule : frame.rule = .feature) (hclose : frame.close fallback = .ok child) :
    child.feature?.isSome := by
  cases Frame.closes_of_close hclose with
  | feature _ _ => rfl
  | group hgroup =>
    rw [hrule] at hgroup
    cases hgroup
  | step hother _ | docString hother _ | dataTable hother _ | background hother _
  | definition hother _ | examples hother _ | description hother =>
    rw [hrule] at hother
    cases hother

/-- **What one event can do to the feature**: there is one after it just
where there was one before, or where the event tells it. -/
theorem isSome_finish_step (a : Assembly) (event : Event) :
    (a.step event).1.finish.isSome ↔ a.finish.isSome ∨ event = .exit .feature ∧ a.Tells := by
  cases event with
  | leaf token =>
    have hfinish : (a.step (.leaf token)).1.finish = a.finish :=
      (finish_file a (.token token.kind) (.token token)).trans (by simp)
    simp [hfinish]
  | enter rule =>
    have hfinish : (a.step (.enter rule)).1.finish = a.finish := rfl
    simp [hfinish]
  | exit rule =>
    have houtcome := exit_step a rule
    have htells : Event.exit rule = .exit .feature ∧ a.Tells ↔ rule = .feature ∧
        (a.step (.exit rule)).2 = none ∧ a.depth = 1 ∧ (a.step (.exit rule)).1.depth = 0 := by
      constructor
      · rintro ⟨hexit, h⟩
        obtain rfl := Event.exit.inj hexit
        exact ⟨rfl, h.accepted, h.depth_before, h.depth_after⟩
      · rintro ⟨rfl, haccepted, hbefore, hafter⟩
        exact ⟨rfl, haccepted, hbefore, hafter⟩
    rw [htells]
    generalize a.step (.exit rule) = outcome at houtcome ⊢
    cases houtcome with
    | atRoot _ | crossed _ _ => simp
    | @lost _ outer _ _ _ _ =>
      have hfinish : ({ a with frames := outer } : Assembly).finish = a.finish := rfl
      simp [hfinish]
    | @closed frame outer child hframes hrule hclose =>
      rw [finish_file, depth_file]
      have hfinish : ({ a with frames := outer } : Assembly).finish = a.finish := rfl
      have hdepth : a.depth = outer.length + 1 := by rw [depth, hframes]; rfl
      have houter : ({ a with frames := outer } : Assembly).depth = outer.length := rfl
      rw [hfinish, hdepth, houter, Option.isSome_or, Bool.or_eq_true]
      refine or_congr_right ?_
      by_cases htold : outer = [] ∧ rule = .feature
      · obtain ⟨rfl, rfl⟩ := htold
        simp [isSome_feature?_of_close hrule hclose]
      · have hkey : ¬ (outer = [] ∧ Key.rule rule = .rule .feature) := by simpa using htold
        rw [if_neg hkey]
        simp only [Option.isSome_none, Bool.false_eq_true, false_iff]
        rintro ⟨hfeature, -, -, hnone⟩
        exact htold ⟨List.length_eq_zero_iff.mp hnone, hfeature⟩

end Assembly

variable {settings : Settings} {events later : List Event}

/-- The exit of the feature rule tells a feature behind these events, and
no exit among them did. -/
structure FirstTells (settings : Settings) (events : List Event) : Prop where
  tells : (reached settings events).Tells
  first : ∀ earlier, earlier ++ [.exit .feature] <+: events → ¬ (reached settings earlier).Tells

/-- There is a feature where an exit on the way told one. -/
theorem isSome_finish_reached_iff (settings : Settings) (events : List Event) :
    (reached settings events).finish.isSome ↔
      ∃ before, before ++ [.exit .feature] <+: events ∧ (reached settings before).Tells := by
  induction events using List.reverseRecOn with
  | nil =>
    constructor
    · intro hsome
      cases hsome
    · rintro ⟨before, hprefix, -⟩
      simp at hprefix
  | append_singleton events event ih =>
    rw [reached_concat, Assembly.isSome_finish_step, ih]
    constructor
    · rintro (⟨before, hprefix, htells⟩ | ⟨rfl, htells⟩)
      · exact ⟨before, hprefix.trans (List.prefix_append _ _), htells⟩
      · exact ⟨events, List.prefix_refl _, htells⟩
    · rintro ⟨before, hprefix, htells⟩
      obtain heq | hearlier := List.prefix_concat_iff.mp hprefix
      · obtain ⟨rfl, hevent⟩ := List.append_inj' heq rfl
        exact .inr ⟨(List.cons.inj hevent).1.symm, htells⟩
      · exact .inl ⟨before, hearlier, htells⟩

/-- What a run has come to, and will not come to anything else. -/
structure Final (settings : Settings) (events : List Event) : Prop where
  /-- The next event brings the feature just where it is the first exit to
  tell one. -/
  turns (event : Event) :
    (reached settings events).feature? = none ∧
        (reached settings (events ++ [event])).feature?.isSome ↔
      event = .exit .feature ∧ FirstTells settings events
  /-- The feature that there is stays, whatever is delivered. -/
  kept (f : Feature) (h : (reached settings events).feature? = some f) (later : List Event) :
    (reached settings (events ++ later)).feature? = some f
  /-- It is the one that the run would leave behind if it ended here. -/
  left : (reached settings events).feature? = (reached settings events).finish
  /-- A run that has failed goes on failing in the same way. -/
  error_kept (error : AssemblyError) (h : assemble settings events = .error error)
    (later : List Event) : assemble settings (events ++ later) = .error error
  /-- A run that has told a feature tells this one in the end, or fails. -/
  feature_kept (f : Feature) (h : assemble settings events = .ok (some f)) (later : List Event) :
    assemble settings (events ++ later) = .ok (some f) ∨
      ∃ error, assemble settings (events ++ later) = .error error

/-- A failed run stays failed. -/
theorem assemble_append_of_error {error : AssemblyError}
    (h : assemble settings events = .error error) (later : List Event) :
    assemble settings (events ++ later) = .error error := by
  rw [assemble] at h ⊢
  rw [Assembly.run_append]
  cases hrun : (Assembly.start settings).run events with
  | ok a =>
    rw [hrun] at h
    cases h
  | error error' =>
    rw [hrun] at h
    exact h

/-- **Every run is final in what it has come to.** -/
theorem final (settings : Settings) (events : List Event) : Final settings events where
  turns event := by
    rw [Assembly.feature?_eq_finish, Assembly.feature?_eq_finish, reached_concat,
      Assembly.isSome_finish_step, ← Option.not_isSome_iff_eq_none]
    constructor
    · rintro ⟨hnone, hsome | ⟨rfl, htells⟩⟩
      · exact absurd hsome hnone
      · refine ⟨rfl, htells, fun earlier hprefix hearlier => hnone ?_⟩
        exact (isSome_finish_reached_iff settings events).mpr ⟨earlier, hprefix, hearlier⟩
    · rintro ⟨rfl, htells, hfirst⟩
      refine ⟨fun hsome => ?_, .inr ⟨rfl, htells⟩⟩
      obtain ⟨earlier, hprefix, hearlier⟩ := (isSome_finish_reached_iff settings events).mp hsome
      exact hfirst earlier hprefix hearlier
  kept f h later := by
    rw [Assembly.feature?_eq_finish] at h ⊢
    rw [reached_append]
    exact Assembly.finish_deliverAll h later
  left := Assembly.feature?_eq_finish _
  error_kept error h later := assemble_append_of_error h later
  feature_kept f h later := by
    cases hmade : assemble settings (events ++ later) with
    | error error => exact .inr ⟨error, rfl⟩
    | ok made =>
      obtain ⟨told, htold, hkept⟩ := assemble_of_append hmade
      obtain rfl : some f = told := Except.ok.inj (h.symm.trans htold)
      exact .inl (congrArg Except.ok (hkept f rfl))

/-- A feature that is refused for its title, then one inside another rule,
then two outside all rules and a stray exit. -/
def lateFeatures : List Event :=
  .enter .feature :: .exit .feature :: .enter .tags ::
    (titleOnly 2 "Aside" ++ .exit .tags :: (titleOnly 3 "Sums" ++ titleOnly 4 "Terms" ++
      [.exit .feature]))

/-- The last exit of the first feature outside all rules tells it, and what
comes behind leaves it. -/
theorem final_lateFeatures :
    FirstTells {} (lateFeatures.take 13) ∧
      (reached {} lateFeatures).feature? = some (titleFeature 3 "Sums") := by
  have hturns := ((final {} (lateFeatures.take 13)).turns (.exit .feature)).mp ⟨rfl, rfl⟩
  have hkept := (final {} (lateFeatures.take 14)).kept (titleFeature 3 "Sums") rfl
    (lateFeatures.drop 14)
  exact ⟨hturns.2, hkept⟩

end FeatureTree
