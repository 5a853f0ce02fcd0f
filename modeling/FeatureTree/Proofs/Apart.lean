import FeatureTree.Proofs.Alike
import FeatureTree.Proofs.Evaluation
import FeatureTree.Proofs.Purge
/-!
# Assemblies that differ in one frame

Two assemblies are `Apart` if they differ in the children of their
innermost frame alone. As long as that frame stays open, whatever is
delivered to both is answered alike and leaves them apart there, and in
the end other frames may be open above it (`Apart.run_above`). If the
children are alike, the closing of the frame is not noticed either: the
two come to the same outcome (`Apart.outcome_eq`).
-/

namespace FeatureTree

namespace Assembly

/-- The innermost frame, in which a child would be filed. -/
def innermost (a : Assembly) : Frame :=
  a.frames.headD a.root

/-- The place where a child would be filed. -/
def place (a : Assembly) : Option Rule :=
  a.frames.head?.map Frame.rule

/-- **Assemblies that differ in their innermost frame alone**, in children
that `R` relates. -/
inductive Apart (R : Option Rule → List (Key × Child) → List (Key × Child) → Prop) :
    Assembly → Assembly → Prop where
  | outside {fallback : String} {rule : Rule} {children children' : List (Key × Child)}
      (h : R none children children') :
      Apart R { fallback, root := { rule, children } }
        { fallback, root := { rule, children := children' } }
  | inside {fallback : String} {root : Frame} {outer : List Frame} {rule : Rule}
      {children children' : List (Key × Child)} (h : R (some rule) children children') :
      Apart R { fallback, root, frames := { rule, children } :: outer }
        { fallback, root, frames := { rule, children := children' } :: outer }

/-- A relation that still holds when both lists get the same child. -/
def Grows (R : Option Rule → List (Key × Child) → List (Key × Child) → Prop) : Prop :=
  ∀ place children children' entry, R place children children' →
    R place (children ++ [entry]) (children' ++ [entry])

/-- The exit of another rule than the innermost is refused and changes
nothing. -/
theorem step_exit_of_ne {a : Assembly} {opened rule : Rule} (h : a.place = some opened)
    (hne : opened ≠ rule) :
    a.step (.exit rule) = (a, some (.contract (.crossedExit opened rule))) := by
  obtain ⟨frame, hframe, rfl⟩ := Option.map_eq_some_iff.mp h
  obtain ⟨outer, hframes⟩ := List.head?_eq_some_iff.mp hframe
  simp only [step, Event.deliver, Receiver.exit, exit, pop, hframes, if_neg hne]
  rfl

/-- Its own exit closes the innermost frame of those above `a`. -/
theorem step_exit_above (a : Assembly) (frame : Frame) (inner : List Frame) :
    (a.above (frame :: inner)).step (.exit frame.rule) =
      match frame.close a.fallback with
      | .ok child => ((a.above inner).file (.rule frame.rule) child, none)
      | .error fault => (a.above inner, some fault.error) :=
  step_exit (a.above inner) frame

variable {R : Option Rule → List (Key × Child) → List (Key × Child) → Prop}
  {a b : Assembly}

namespace Apart

theorem fallback_eq (h : Apart R a b) : a.fallback = b.fallback := by
  cases h <;> rfl

/-- They are apart in another way if the children of the innermost frame
are. -/
theorem imp {R' : Option Rule → List (Key × Child) → List (Key × Child) → Prop} (h : Apart R a b)
    (himp : ∀ children', R a.place a.innermost.children children' →
      R' a.place a.innermost.children children') : Apart R' a b := by
  cases h with
  | outside h => exact .outside (himp _ h)
  | inside h => exact .inside (himp _ h)

/-- What is filed in both leaves them apart. -/
theorem file (hgrows : Grows R) (h : Apart R a b) (key : Key) (child : Child) :
    Apart R (a.file key child) (b.file key child) := by
  cases h with
  | outside h => exact .outside (hgrows _ _ _ _ h)
  | inside h => exact .inside (hgrows _ _ _ _ h)

/-- What is filed above them leaves them apart as well. -/
theorem file_above (hgrows : Grows R) (h : Apart R a b) (inner : List Frame) (key : Key)
    (child : Child) :
    ∃ a' b' inner', Apart R a' b' ∧ a'.depth = a.depth ∧
      (a.above inner).file key child = a'.above inner' ∧
      (b.above inner).file key child = b'.above inner' := by
  cases inner with
  | nil => exact ⟨_, _, [], h.file hgrows key child, depth_file _ _ _, rfl, rfl⟩
  | cons frame rest => exact ⟨a, b, frame.file key child :: rest, h, rfl, rfl, rfl⟩

/-- **What an event does to assemblies that are apart**: both answer it
alike and are apart in the same frame afterwards, whatever is open above
it, or the event closes this frame. -/
theorem step_above (hgrows : Grows R) (h : Apart R a b) (inner : List Frame) (event : Event) :
    (∃ a' b' inner' answer, Apart R a' b' ∧ a'.depth = a.depth ∧
      (a.above inner).step event = (a'.above inner', answer) ∧
      (b.above inner).step event = (b'.above inner', answer)) ∨
    ∃ (below : Assembly) (frame frame' : Frame), inner = [] ∧ event = .exit frame.rule ∧
      frame'.rule = frame.rule ∧ R (some frame.rule) frame.children frame'.children ∧
      a = below.above [frame] ∧ b = below.above [frame'] := by
  cases event with
  | leaf token =>
    obtain ⟨a', b', inner', hapart, hdepth, ha, hb⟩ :=
      h.file_above hgrows inner (.token token.kind) (.token token)
    exact .inl ⟨a', b', inner', none, hapart, hdepth, Prod.ext ha rfl, Prod.ext hb rfl⟩
  | enter rule => exact .inl ⟨a, b, Frame.empty rule :: inner, none, h, rfl, rfl, rfl⟩
  | exit rule =>
    cases inner with
    | cons frame rest =>
      left
      by_cases hrule : frame.rule = rule
      · subst hrule
        have ha := step_exit_above a frame rest
        have hb := step_exit_above b frame rest
        rw [← h.fallback_eq] at hb
        cases hclose : frame.close a.fallback with
        | error fault =>
          rw [hclose] at ha hb
          exact ⟨a, b, rest, _, h, rfl, ha, hb⟩
        | ok child =>
          rw [hclose] at ha hb
          obtain ⟨a', b', inner', hapart, hdepth, hfa, hfb⟩ :=
            h.file_above hgrows rest (.rule frame.rule) child
          exact ⟨a', b', inner', none, hapart, hdepth, ha.trans (congrArg (·, none) hfa),
            hb.trans (congrArg (·, none) hfb)⟩
      · exact ⟨a, b, frame :: rest, _, h, rfl, step_exit_of_ne rfl hrule,
          step_exit_of_ne rfl hrule⟩
    | nil =>
      cases h with
      | outside h =>
        exact .inl ⟨_, _, [], _, .outside h, rfl, step_exit_of_no_frames rfl rule,
          step_exit_of_no_frames rfl rule⟩
      | @inside fallback root outer rule' children children' h =>
        by_cases hrule : rule' = rule
        · subst hrule
          exact .inr ⟨{ fallback, root, frames := outer }, { rule := rule', children },
            { rule := rule', children := children' }, rfl, rfl, rfl, h, rfl, rfl⟩
        · exact .inl ⟨_, _, [], _, .inside h, rfl, step_exit_of_ne rfl hrule,
            step_exit_of_ne rfl hrule⟩

/-- **So it goes on as long as the frame stays open**: the run fails for
both at the same event, or it leaves them apart in the same frame. -/
theorem run_above (hgrows : Grows R) (h : Apart R a b) (inner : List Frame)
    (events : List Event)
    (hstay : ∀ part, part <+: events → a.depth ≤ ((a.above inner).deliverAll part).depth) :
    (∃ error, (a.above inner).run events = .error error ∧
      (b.above inner).run events = .error error) ∨
    ∃ a' b' inner', Apart R a' b' ∧ a'.depth = a.depth ∧
      (a.above inner).run events = .ok (a'.above inner') ∧
      (b.above inner).run events = .ok (b'.above inner') := by
  induction events generalizing a b inner with
  | nil => exact .inr ⟨a, b, inner, h, rfl, rfl, rfl⟩
  | cons event rest ih =>
    obtain ⟨a', b', inner', answer, hapart, hdepth, ha, hb⟩ |
      ⟨below, frame, frame', rfl, rfl, -, -, rfl, -⟩ := h.step_above hgrows inner event
    · simp only [run, ha, hb]
      cases answer with
      | some error => exact .inl ⟨error, rfl, rfl⟩
      | none =>
        have hlater : ∀ part, part <+: rest →
            a'.depth ≤ ((a'.above inner').deliverAll part).depth := by
          intro part hpart
          have hwhole := hstay (event :: part) (List.cons_prefix_cons.mpr ⟨rfl, hpart⟩)
          rw [show (a.above inner).deliverAll (event :: part) =
            ((a.above inner).step event).1.deliverAll part from rfl, ha] at hwhole
          exact hdepth ▸ hwhole
        obtain hfail | ⟨a'', b'', inner'', hapart', hdepth', hrun⟩ := ih hapart inner' hlater
        · exact .inl hfail
        · exact .inr ⟨a'', b'', inner'', hapart', hdepth'.trans hdepth, hrun⟩
    · -- The frame would be closed, and fewer rules open than it needs.
      have hclosed := hstay [.exit frame.rule] (List.prefix_append _ rest)
      have hdepth : ((below.above [frame]).step (.exit frame.rule)).1.depth = below.depth := by
        rw [step_exit_above]
        cases frame.close below.fallback with
        | error fault => rfl
        | ok child => exact depth_file _ _ _
      have hgone : (below.above [frame]).depth ≤ below.depth := hdepth ▸ hclosed
      rw [depth_above, List.length_singleton] at hgone
      omega

end Apart

/-- Different children filed in the innermost frame leave an assembly
apart from itself. -/
theorem apart_fileAll {entries entries' : List (Key × Child)}
    (h : R a.place (a.innermost.children ++ entries) (a.innermost.children ++ entries')) :
    Apart R (a.fileAll entries) (a.fileAll entries') := by
  obtain ⟨fallback, root, frames⟩ := a
  cases frames with
  | nil =>
    rw [fileAll_root _ rfl, fileAll_root _ rfl]
    exact .outside h
  | cons frame outer =>
    have hfile := fileAll_frames { fallback, root } frame outer
    have happart : Apart R
        { fallback, root
          frames := { frame with children := frame.children ++ entries } :: outer }
        { fallback, root
          frames := { frame with children := frame.children ++ entries' } :: outer } :=
      .inside h
    rwa [← hfile entries, ← hfile entries'] at happart

namespace Apart

/-- Alike children outside all rules hold the same feature. -/
theorem finish_eq (h : Apart Alike a b) : a.finish = b.finish := by
  cases h with
  | inside _ => rfl
  | outside h =>
    exact Frame.first?_of_alike h (by decide) nofun Reads.feature.picks fun _ _ => rfl

/-- **Assemblies with alike children come to the same outcome**, whatever
is delivered to them, and whichever frames are open above. -/
theorem outcome_eq (h : Apart Alike a b) (inner : List Frame) (events : List Event) :
    ((a.above inner).run events).map finish = ((b.above inner).run events).map finish := by
  induction events generalizing a b inner with
  | nil => exact congrArg Except.ok h.finish_eq
  | cons event rest ih =>
    obtain ⟨a', b', inner', answer, hapart, -, ha, hb⟩ |
      ⟨below, frame, frame', rfl, rfl, hrule, hchildren, rfl, rfl⟩ :=
        h.step_above (fun _ _ _ entry h => h.concat entry) inner event
    · simp only [run, ha, hb]
      cases answer with
      | some error => rfl
      | none => exact ih hapart inner'
    · have ha := step_exit_above below frame []
      have hb := step_exit_above below frame' []
      rw [hrule] at hb
      change ((below.above [frame]).run _).map finish = ((below.above [frame']).run _).map finish
      cases hpart : frame.rule.isGroup with
      | false =>
        -- The frames make the same part, or fail for the same.
        rw [← Frame.close_of_alike hrule.symm hpart hchildren] at hb
        simp only [run, ha, hb]
      | true =>
        -- They are handed on as groups, and the frames around these are apart.
        rw [Frame.close_of_isGroup hpart] at ha
        rw [Frame.close_of_isGroup (hrule ▸ hpart), hrule] at hb
        simp only [run, ha, hb]
        have happart : Apart Alike
            (below.fileAll [(.rule frame.rule, .group frame.rule frame.children)])
            (below.fileAll [(.rule frame.rule, .group frame.rule frame'.children)]) :=
          apart_fileAll (.group _ [] hchildren)
        exact ih happart []

end Apart

end Assembly

end FeatureTree
