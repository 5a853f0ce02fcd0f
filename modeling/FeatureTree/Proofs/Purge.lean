import Mathlib.Data.List.Induction
import Mathlib.Data.List.Infix
import FeatureTree.Proofs.Brackets
/-!
# What failed leaves no trace

An exit refused for a bracket changes nothing, and one that loses its
frame leaves the assembly as it was before the rule was entered: between
the two ends of a rule nothing below its frame is touched
(`exists_deliverAll_above`). So the events that failed, and with a lost
frame the whole stretch since its rule was entered, can be struck out of
a run (`Purged`); what is left runs without an error to the same end
(`reached_of_purged`).
-/

namespace FeatureTree

/-! ## The stretch of an open rule -/

/-- The rule entered behind `before` is open all through `inside`. -/
def StaysOpen (before : List Event) (rule : Rule) (inside : List Event) : Prop :=
  ∀ part, part <+: inside → rule :: openedBy before <:+ openedBy (before ++ .enter rule :: part)

/-- The rule entered behind `before` is open all through `inside`, and the
innermost at its end: what an exit closes there was opened by this very
entering. -/
structure IsStretch (before : List Event) (rule : Rule) (inside : List Event) : Prop where
  stays : StaysOpen before rule inside
  innermost : openedBy (before ++ .enter rule :: inside) = rule :: openedBy before

/-! Whether a stretch is one can be computed, from the beginnings of
it. -/

instance {before inside : List Event} {rule : Rule} : Decidable (StaysOpen before rule inside) :=
  decidable_of_iff
    (∀ part ∈ inside.inits, rule :: openedBy before <:+ openedBy (before ++ .enter rule :: part))
    (forall_congr' fun part => imp_congr_left (List.mem_inits part inside))

instance {before inside : List Event} {rule : Rule} : Decidable (IsStretch before rule inside) :=
  decidable_of_iff (StaysOpen before rule inside ∧
      openedBy (before ++ .enter rule :: inside) = rule :: openedBy before)
    ⟨fun h => ⟨h.1, h.2⟩, fun h => ⟨h.stays, h.innermost⟩⟩

section

variable {before inside events : List Event} {event : Event} {rule : Rule} {outer : List Rule}

theorem staysOpen_nil (before : List Event) (rule : Rule) : StaysOpen before rule [] := by
  intro part hpart
  rw [List.prefix_nil.mp hpart, openedBy_enter]

/-- A rule stays open over one more event that leaves it open. -/
theorem StaysOpen.concat (h : StaysOpen before rule inside)
    (hopen : rule :: openedBy before <:+ openedBy (before ++ .enter rule :: inside ++ [event])) :
    StaysOpen before rule (inside ++ [event]) := by
  intro part hpart
  obtain rfl | hinside := List.prefix_concat_iff.mp hpart
  · simpa using hopen
  · exact h part hinside

/-- A rule that is open was open before the last event, or that event
entered it. -/
theorem opened_or_entered {inner : List Rule}
    (h : openedBy (events ++ [event]) = inner ++ rule :: outer) :
    (∃ inner', openedBy events = inner' ++ rule :: outer) ∨
      (event = .enter rule ∧ openedBy events = outer) := by
  rw [openedBy_concat] at h
  cases event with
  | leaf token => exact .inl ⟨inner, h⟩
  | enter entered =>
    rw [Brackets.deliver_enter] at h
    obtain ⟨-, hhead⟩ | ⟨inner', -, hinner⟩ := List.cons_eq_append_iff.mp h
    · obtain ⟨rfl, houter⟩ := List.cons.inj hhead
      exact .inr ⟨rfl, houter.symm⟩
    · exact .inl ⟨inner', hinner⟩
  | exit exited =>
    left
    cases hopened : openedBy events with
    | nil =>
      rw [hopened, Brackets.deliver_exit_nil rfl] at h
      exact ⟨inner, h⟩
    | cons top below =>
      rw [hopened] at h
      by_cases hrule : top = exited
      · rw [hrule, Brackets.deliver_exit_self rfl] at h
        exact ⟨top :: inner, congrArg (top :: ·) h⟩
      · rw [Brackets.deliver_exit_of_ne rfl hrule] at h
        exact ⟨inner, h⟩

/-- **Every open rule was entered somewhere**, and has been open since. -/
theorem exists_staysOpen {inner : List Rule} (h : openedBy events = inner ++ rule :: outer) :
    ∃ before inside, events = before ++ .enter rule :: inside ∧ StaysOpen before rule inside ∧
      openedBy before = outer := by
  induction events using List.reverseRecOn generalizing inner with
  | nil => simp [openedBy] at h
  | append_singleton events event ih =>
    obtain ⟨inner', hinner⟩ | ⟨rfl, houter⟩ := opened_or_entered h
    · obtain ⟨before, inside, rfl, hstays, rfl⟩ := ih hinner
      refine ⟨before, inside ++ [event], by simp, hstays.concat ?_, rfl⟩
      exact ⟨inner, h.symm⟩
    · exact ⟨events, [], rfl, staysOpen_nil events rule, houter⟩

/-- The innermost one has its stretch. -/
theorem exists_isStretch (h : openedBy events = rule :: outer) :
    ∃ before inside, events = before ++ .enter rule :: inside ∧ IsStretch before rule inside := by
  have hinnermost : openedBy events = [] ++ rule :: outer := h
  obtain ⟨before, inside, rfl, hstays, rfl⟩ := exists_staysOpen hinnermost
  exact ⟨before, inside, rfl, hstays, h⟩

/-- No stretch that ends with another begins inside it. -/
theorem IsStretch.not_inside {part : List Event}
    (h : IsStretch before rule (part ++ .enter rule :: inside))
    (h' : IsStretch (before ++ .enter rule :: part) rule inside) : False := by
  have hsame : openedBy (before ++ .enter rule :: part) = openedBy before := by
    have houter := h.innermost
    have hinner := h'.innermost
    simp only [List.append_assoc, List.cons_append] at houter hinner
    exact (List.cons.inj (hinner.symm.trans houter)).2
  have hlength := (h.stays part (List.prefix_append _ _)).length_le
  rw [hsame, List.length_cons] at hlength
  omega

/-- **So an exit has one stretch at most.** -/
theorem IsStretch.unique {before' inside' : List Event} (h : IsStretch before rule inside)
    (h' : IsStretch before' rule inside')
    (hsame : before ++ .enter rule :: inside = before' ++ .enter rule :: inside') :
    before = before' := by
  obtain ⟨part, rfl, hinside⟩ | ⟨part, rfl, hinside⟩ := List.append_eq_append_iff.mp hsame
  · cases part with
    | nil => exact (List.append_nil before).symm
    | cons event part =>
      obtain ⟨rfl, rfl⟩ := List.cons.inj hinside
      exact (h.not_inside h').elim
  · cases part with
    | nil => exact List.append_nil before'
    | cons event part =>
      obtain ⟨rfl, rfl⟩ := List.cons.inj hinside
      exact (h'.not_inside h).elim

end

/-! ## Below an open frame -/

namespace Assembly

variable {a : Assembly} {inner : List Frame}

/-- The assembly with more frames open, the innermost first. -/
def above (a : Assembly) (inner : List Frame) : Assembly :=
  { a with frames := inner ++ a.frames }

theorem depth_above (a : Assembly) (inner : List Frame) :
    (a.above inner).depth = inner.length + a.depth :=
  List.length_append

/-- Filing reaches the innermost frame alone. -/
theorem file_above (a : Assembly) (frame : Frame) (inner : List Frame) (key : Key)
    (child : Child) :
    (a.above (frame :: inner)).file key child = a.above (frame.file key child :: inner) := rfl

/-- **An event does not reach below a frame that stays open.** -/
theorem exists_step_above (hinner : inner ≠ []) (event : Event)
    (hdepth : a.depth < ((a.above inner).step event).1.depth) :
    ∃ inner', inner' ≠ [] ∧ ((a.above inner).step event).1 = a.above inner' := by
  obtain ⟨frame, rest, rfl⟩ := List.exists_cons_of_ne_nil hinner
  -- Once the innermost frame is closed, the next one is still above `a`.
  have hrest (state : Assembly) (hstate : a.depth < state.depth)
      (hdepth : state.depth = rest.length + a.depth) : rest ≠ [] := by
    rintro rfl
    simp only [List.length_nil] at hdepth
    omega
  cases event with
  | leaf token => exact ⟨_, List.cons_ne_nil _ _, file_above a frame rest _ _⟩
  | enter rule => exact ⟨Frame.empty rule :: frame :: rest, List.cons_ne_nil _ _, rfl⟩
  | exit rule =>
    have houtcome := exit_step (a.above (frame :: rest)) rule
    generalize (a.above (frame :: rest)).step (.exit rule) = outcome at houtcome hdepth ⊢
    cases houtcome with
    | atRoot _ | crossed _ _ => exact ⟨frame :: rest, hinner, rfl⟩
    | lost hframes _ _ =>
      obtain ⟨-, rfl⟩ := List.cons.inj hframes
      exact ⟨rest, hrest _ hdepth (depth_above a rest), rfl⟩
    | @closed _ _ child hframes _ _ =>
      obtain ⟨-, rfl⟩ := List.cons.inj hframes
      obtain ⟨next, below, rfl⟩ := List.exists_cons_of_ne_nil
        (hrest _ hdepth ((depth_file _ _ _).trans (depth_above a rest)))
      exact ⟨_, List.cons_ne_nil _ _, file_above a next below (.rule rule) child⟩

/-- Nor does a run, if the frame stays open all through it. -/
theorem exists_deliverAll_above (hinner : inner ≠ []) (events : List Event)
    (hdepth : ∀ part, part <+: events → a.depth < ((a.above inner).deliverAll part).depth) :
    ∃ inner', inner' ≠ [] ∧ (a.above inner).deliverAll events = a.above inner' := by
  induction events generalizing inner with
  | nil => exact ⟨inner, hinner, rfl⟩
  | cons event rest ih =>
    have hfirst : [event] <+: event :: rest := List.prefix_append [event] rest
    obtain ⟨inner', hinner', hstep⟩ := exists_step_above hinner event (hdepth [event] hfirst)
    have hlater : ∀ part, part <+: rest → a.depth < ((a.above inner').deliverAll part).depth := by
      intro part hpart
      have hwhole := hdepth (event :: part) (List.cons_prefix_cons.mpr ⟨rfl, hpart⟩)
      exact hstep ▸ hwhole
    obtain ⟨inner'', hinner'', hrun⟩ := ih hinner' hlater
    exact ⟨inner'', hinner'', (congrArg (deliverAll · rest) hstep).trans hrun⟩

/-- An exit that loses the only frame above `a` leaves `a`. -/
theorem step_exit_above_of_lost {frame : Frame} {rule : Rule} {error : AssemblyError}
    (herror : ((a.above [frame]).step (.exit rule)).2 = some error)
    (hbracket : error.isBracket = false) : ((a.above [frame]).step (.exit rule)).1 = a := by
  obtain ⟨_, outer, hframes, -, hstep⟩ := step_exit_of_lost herror hbracket
  obtain ⟨-, rfl⟩ := List.cons.inj hframes
  exact hstep

end Assembly

variable {settings : Settings} {before inside events : List Event} {rule : Rule}
  {error : AssemblyError}

/-- An exit refused for a bracket changes nothing. -/
theorem reached_of_bracket (herror : ((reached settings events).step (.exit rule)).2 = some error)
    (hbracket : error.isBracket = true) :
    reached settings (events ++ [.exit rule]) = reached settings events :=
  (reached_concat settings events _).trans (Assembly.step_exit_of_bracket herror hbracket)

/-- **An exit that loses its frame undoes the whole stretch**: the assembly
is as it was before the rule was entered. -/
theorem reached_of_lost (hstretch : IsStretch before rule inside)
    (herror : ((reached settings (before ++ .enter rule :: inside)).step (.exit rule)).2 =
      some error) (hbracket : error.isBracket = false) :
    reached settings (before ++ .enter rule :: inside ++ [.exit rule]) =
      reached settings before := by
  have hsplit (part : List Event) : reached settings (before ++ .enter rule :: part) =
      ((reached settings before).above [Frame.empty rule]).deliverAll part := List.foldl_append
  have hdepth : ∀ part, part <+: inside → (reached settings before).depth <
      (((reached settings before).above [Frame.empty rule]).deliverAll part).depth := by
    intro part hpart
    have hlength := (hstretch.stays part hpart).length_le
    rw [← hsplit, depth_reached, depth_reached]
    exact hlength
  obtain ⟨inner, hinner, hrun⟩ :=
    Assembly.exists_deliverAll_above (List.cons_ne_nil _ _) inside hdepth
  -- At the end of the stretch the entered rule is the only one above.
  obtain ⟨frame, rfl⟩ : ∃ frame, inner = [frame] := by
    have hend := depth_reached settings (before ++ .enter rule :: inside)
    rw [hstretch.innermost, hsplit, hrun, Assembly.depth_above, List.length_cons,
      ← depth_reached settings] at hend
    exact List.length_eq_one_iff.mp (by omega)
  rw [reached_concat]
  rw [hsplit, hrun] at herror ⊢
  exact Assembly.step_exit_above_of_lost herror hbracket

/-- An exit that loses its frame is one of the innermost open rule. -/
theorem exists_opened_of_lost
    (herror : ((reached settings events).step (.exit rule)).2 = some error)
    (hbracket : error.isBracket = false) : ∃ outer, openedBy events = rule :: outer := by
  obtain ⟨frame, outer, hframes, hrule, -⟩ := Assembly.step_exit_of_lost herror hbracket
  refine ⟨outer.map Frame.rule, ?_⟩
  rw [← opened_reached settings, hframes, ← hrule]
  rfl

/-! ## Striking out what failed -/

/-- `Purged settings events kept`: what is kept of a run when each exit
refused for a bracket is struck out, and with each exit that loses its
frame the whole stretch since its rule was entered. -/
inductive Purged (settings : Settings) : List Event → List Event → Prop where
  | nil : Purged settings [] []
  /-- What is not refused is kept, for as long as its own stretch is. -/
  | kept {events kept : List Event} {event : Event} (h : Purged settings events kept)
      (hanswer : ((reached settings events).step event).2 = none) :
      Purged settings (events ++ [event]) (kept ++ [event])
  | refused {events kept : List Event} {rule : Rule} {error : AssemblyError}
      (h : Purged settings events kept)
      (herror : ((reached settings events).step (.exit rule)).2 = some error)
      (hbracket : error.isBracket = true) : Purged settings (events ++ [.exit rule]) kept
  | lost {before inside kept : List Event} {rule : Rule} {error : AssemblyError}
      (h : Purged settings before kept) (hstretch : IsStretch before rule inside)
      (herror : ((reached settings (before ++ .enter rule :: inside)).step (.exit rule)).2 =
        some error)
      (hbracket : error.isBracket = false) :
      Purged settings (before ++ .enter rule :: inside ++ [.exit rule]) kept

namespace Purged

variable {kept : List Event}

/-- Striking out leaves the rest in its order. -/
theorem sublist (h : Purged settings events kept) : kept.Sublist events := by
  induction h with
  | nil => exact List.Sublist.refl _
  | kept _ _ ih => exact ih.append (List.Sublist.refl _)
  | refused _ _ _ ih => exact ih.trans (List.sublist_append_left _ _)
  | lost _ _ _ _ ih =>
    rw [List.append_assoc]
    exact ih.trans (List.sublist_append_left _ _)

/-- **What is kept is refused nothing and comes to where the whole run
came.** -/
theorem reached_eq (h : Purged settings events kept) :
    Receiver.errors (Assembly.start settings) kept = [] ∧
      reached settings kept = reached settings events := by
  induction h with
  | nil => exact ⟨rfl, rfl⟩
  | @kept events kept event _ hanswer ih =>
    obtain ⟨hnone, hsame⟩ := ih
    have hafter : Receiver.after (Assembly.start settings) kept = reached settings events := hsame
    have hlast : Receiver.errors (reached settings events) [event] = [] := by
      simp [Receiver.errors, Receiver.answers, hanswer]
    refine ⟨?_, by rw [reached_concat, hsame, reached_concat]⟩
    rw [Receiver.errors_append, hnone, hafter, hlast]
    rfl
  | refused _ herror hbracket ih => rwa [reached_of_bracket herror hbracket]
  | lost _ hstretch herror hbracket ih => rwa [reached_of_lost hstretch herror hbracket]

/-- Events that are not refused are kept one and all. -/
theorem append (h : Purged settings events kept) {more : List Event}
    (hnone : Receiver.errors (reached settings events) more = []) :
    Purged settings (events ++ more) (kept ++ more) := by
  induction more generalizing events kept with
  | nil => simpa using h
  | cons event rest ih =>
    rw [Receiver.errors_cons, List.append_eq_nil_iff, Option.toList_eq_nil_iff, ← Assembly.step,
      ← reached_concat] at hnone
    simpa using ih (h.kept hnone.1) hnone.2

/-- What became of the last event of a purged run. -/
theorem of_concat {event : Event} (h : Purged settings (events ++ [event]) kept) :
    (∃ kept', kept = kept' ++ [event] ∧ Purged settings events kept' ∧
        ((reached settings events).step event).2 = none) ∨
      (∃ error, ((reached settings events).step event).2 = some error ∧
        error.isBracket = true ∧ Purged settings events kept) ∨
      ∃ error before rule inside, ((reached settings events).step event).2 = some error ∧
        error.isBracket = false ∧ events = before ++ .enter rule :: inside ∧
        event = .exit rule ∧ IsStretch before rule inside ∧ Purged settings before kept := by
  generalize hall : events ++ [event] = all at h
  cases h with
  | nil => simp at hall
  | kept h hanswer =>
    obtain ⟨rfl, hlast⟩ := List.append_inj' hall rfl
    obtain rfl := List.singleton_inj.mp hlast
    exact .inl ⟨_, rfl, h, hanswer⟩
  | refused h herror hbracket =>
    obtain ⟨rfl, hlast⟩ := List.append_inj' hall rfl
    obtain rfl := List.singleton_inj.mp hlast
    exact .inr (.inl ⟨_, herror, hbracket, h⟩)
  | lost h hstretch herror hbracket =>
    obtain ⟨rfl, hlast⟩ := List.append_inj' hall rfl
    obtain rfl := List.singleton_inj.mp hlast
    exact .inr (.inr ⟨_, _, _, _, herror, hbracket, rfl, rfl, hstretch, h⟩)

/-- **What is kept is determined by the run.** -/
theorem unique {kept' : List Event} (h : Purged settings events kept)
    (h' : Purged settings events kept') : kept = kept' := by
  induction h generalizing kept' with
  | nil =>
    generalize hall : ([] : List Event) = all at h'
    cases h' with
    | nil => rfl
    | _ => simp at hall
  | kept _ hanswer ih =>
    obtain ⟨_, rfl, h', -⟩ | ⟨_, herror, -⟩ | ⟨_, _, _, _, herror, -⟩ := h'.of_concat
    · rw [ih h']
    · simp [hanswer] at herror
    · simp [hanswer] at herror
  | refused _ herror hbracket ih =>
    obtain ⟨_, -, -, hanswer⟩ | ⟨_, -, -, h'⟩ | ⟨_, _, _, _, herror', hbracket', -⟩ := h'.of_concat
    · simp [hanswer] at herror
    · exact ih h'
    · obtain rfl := Option.some.inj (herror.symm.trans herror')
      simp [hbracket] at hbracket'
  | lost _ hstretch herror hbracket ih =>
    obtain ⟨_, -, -, hanswer⟩ | ⟨_, herror', hbracket', -⟩ |
      ⟨_, _, _, _, -, -, hsame, hrule, hstretch', h'⟩ := h'.of_concat
    · simp [hanswer] at herror
    · obtain rfl := Option.some.inj (herror.symm.trans herror')
      simp [hbracket] at hbracket'
    · obtain rfl := Event.exit.inj hrule
      obtain rfl := hstretch.unique hstretch' hsame
      exact ih h'

end Purged

/-- Every run can be purged, and every beginning of one. -/
theorem exists_purged (settings : Settings) (events : List Event) :
    ∀ part, part <+: events → ∃ kept, Purged settings part kept := by
  -- A lost stretch is struck out back to where it began, so all beginnings are needed at once.
  induction events using List.reverseRecOn with
  | nil =>
    intro part hpart
    obtain rfl := List.prefix_nil.mp hpart
    exact ⟨[], .nil⟩
  | append_singleton events event ih =>
    intro part hpart
    obtain rfl | hbefore := List.prefix_concat_iff.mp hpart
    · obtain ⟨kept, hkept⟩ := ih events (List.prefix_refl _)
      cases hanswer : ((reached settings events).step event).2 with
      | none => exact ⟨kept ++ [event], hkept.kept hanswer⟩
      | some error =>
        cases event with
        | leaf _ | enter _ => cases hanswer
        | exit rule =>
          cases hbracket : error.isBracket with
          | true => exact ⟨kept, hkept.refused hanswer hbracket⟩
          | false =>
            obtain ⟨outer, hopened⟩ := exists_opened_of_lost hanswer hbracket
            obtain ⟨before, inside, rfl, hstretch⟩ := exists_isStretch hopened
            obtain ⟨keptBefore, hkeptBefore⟩ := ih before (List.prefix_append _ _)
            exact ⟨keptBefore, hkeptBefore.lost hstretch hanswer hbracket⟩
    · exact ih part hbefore

/-- A run without an error is one in which nothing is refused. -/
theorem Assembly.run_eq_ok_iff {a b : Assembly} {events : List Event} :
    a.run events = .ok b ↔ Receiver.errors a events = [] ∧ a.deliverAll events = b := by
  induction events generalizing a with
  | nil => simp [run, Receiver.errors, Receiver.answers, deliverAll]
  | cons event rest ih =>
    have hafter : a.deliverAll (event :: rest) = (a.step event).1.deliverAll rest := rfl
    rw [run, Receiver.errors_cons, hafter, ← Assembly.step]
    obtain ⟨after, answer⟩ := a.step event
    cases answer with
    | none => exact ih
    | some error => simp

/-- Events are assembled just where they run through. -/
theorem assemble_eq_ok_iff_run {settings : Settings} {events : List Event} {made : Option Feature} :
    assemble settings events = .ok made ↔
      ∃ a, (Assembly.start settings).run events = .ok a ∧ a.finish = made := by
  rw [assemble]
  cases (Assembly.start settings).run events with
  | error error => exact ⟨nofun, nofun⟩
  | ok a =>
    constructor
    · intro h
      exact ⟨a, rfl, Except.ok.inj h⟩
    · rintro ⟨b, hb, rfl⟩
      obtain rfl := Except.ok.inj hb
      rfl

/-- They are assembled just where nothing is refused, to what they leave. -/
theorem assemble_eq_ok_iff {settings : Settings} {events : List Event} {made : Option Feature} :
    assemble settings events = .ok made ↔
      Receiver.errors (Assembly.start settings) events = [] ∧
        (reached settings events).finish = made := by
  rw [assemble_eq_ok_iff_run]
  constructor
  · rintro ⟨a, hrun, rfl⟩
    obtain ⟨hnone, rfl⟩ := Assembly.run_eq_ok_iff.mp hrun
    exact ⟨hnone, rfl⟩
  · rintro ⟨hnone, hmade⟩
    exact ⟨_, Assembly.run_eq_ok_iff.mpr ⟨hnone, rfl⟩, hmade⟩

/-- **Errors erase exactly what failed.** In a run that goes on whatever
fails, an exit refused for a bracket changes nothing, and one that loses
its frame leads back to the state before the entering of its rule, which
is always found. So what failed can be struck out in one way, and the rest
of the run has no error and the same end; it assembles to what the whole
run left. -/
theorem reached_of_purged (settings : Settings) (events : List Event) :
    (∀ rule error, ((reached settings events).step (.exit rule)).2 = some error →
      error.isBracket = true →
      reached settings (events ++ [.exit rule]) = reached settings events) ∧
    (∀ rule error, ((reached settings events).step (.exit rule)).2 = some error →
      error.isBracket = false →
      (∃ before inside, events = before ++ .enter rule :: inside ∧
        IsStretch before rule inside) ∧
      ∀ before inside, events = before ++ .enter rule :: inside →
        IsStretch before rule inside →
        reached settings (events ++ [.exit rule]) = reached settings before) ∧
    (∃! kept, Purged settings events kept) ∧
    ∀ kept, Purged settings events kept →
      kept.Sublist events ∧
      Receiver.errors (Assembly.start settings) kept = [] ∧
      reached settings kept = reached settings events ∧
      assemble settings kept = .ok (reached settings events).finish := by
  refine ⟨fun rule error herror hbracket => reached_of_bracket herror hbracket,
    fun rule error herror hbracket => ⟨?_, ?_⟩, ?_, fun kept hkept => ?_⟩
  · obtain ⟨outer, hopened⟩ := exists_opened_of_lost herror hbracket
    exact exists_isStretch hopened
  · rintro before inside rfl hstretch
    exact reached_of_lost hstretch herror hbracket
  · obtain ⟨kept, hkept⟩ := exists_purged settings events events (List.prefix_refl _)
    exact ⟨kept, hkept, fun kept' hkept' => hkept'.unique hkept⟩
  · obtain ⟨hnone, hsame⟩ := hkept.reached_eq
    have hrun := Assembly.run_eq_ok_iff.mpr ⟨hnone, hsame⟩
    refine ⟨hkept.sublist, hnone, hsame, ?_⟩
    rw [assemble, hrun]
    rfl

/-- A run with an exit of another rule, a background without its line
around a step that has one, a step that fails inside a scenario, and an
exit of the root. -/
def brokenRun : List Event :=
  [.enter .feature, .enter .featureHeader,
    .leaf { kind := .featureLine, location := ⟨1, 1⟩, keyword := "Feature", text := "Sums" },
    .exit .step, .exit .featureHeader,
    .enter .background, .enter .step,
    .leaf { kind := .stepLine, location := ⟨3, 5⟩, keyword := "Given ", text := "a" },
    .exit .step, .exit .background,
    .enter .definition, .enter .scenario,
    .leaf { kind := .scenarioLine, location := ⟨5, 3⟩, keyword := "Scenario" },
    .enter .step, .enter .docString, .exit .docString, .exit .step,
    .exit .scenario, .exit .definition, .exit .feature, .exit .root]

/-- What is kept of it. -/
def mendedRun : List Event :=
  [.enter .feature, .enter .featureHeader,
    .leaf { kind := .featureLine, location := ⟨1, 1⟩, keyword := "Feature", text := "Sums" },
    .exit .featureHeader, .enter .definition, .enter .scenario,
    .leaf { kind := .scenarioLine, location := ⟨5, 3⟩, keyword := "Scenario" },
    .exit .scenario, .exit .definition, .exit .feature]

/-- It runs to where the broken run came. -/
theorem mendedRun_of_brokenRun :
    Purged {} brokenRun mendedRun ∧
      mendedRun.Sublist brokenRun ∧
      Receiver.errors (Assembly.start {}) mendedRun = [] ∧
      reached {} mendedRun = reached {} brokenRun ∧
      assemble {} mendedRun = .ok (reached {} brokenRun).finish := by
  have hheader : Purged {} (brokenRun.take 3) (mendedRun.take 3) := Purged.nil.append rfl
  have hcrossed : Purged {} (brokenRun.take 4) (mendedRun.take 3) := hheader.refused rfl rfl
  have hbackground : Purged {} (brokenRun.take 5) (mendedRun.take 4) := hcrossed.kept rfl
  have hlost : Purged {} (brokenRun.take 10) (mendedRun.take 4) :=
    hbackground.lost (by decide : IsStretch _ .background ((brokenRun.drop 6).take 3)) rfl rfl
  have hscenario : Purged {} (brokenRun.take 13) (mendedRun.take 7) := hlost.append rfl
  have hstep : Purged {} (brokenRun.take 17) (mendedRun.take 7) :=
    hscenario.lost (by decide : IsStretch _ .step ((brokenRun.drop 14).take 2)) rfl rfl
  have hend : Purged {} (brokenRun.take 20) mendedRun := hstep.append rfl
  have hpurged : Purged {} brokenRun mendedRun := hend.refused rfl rfl
  obtain ⟨-, -, -, hkept⟩ := reached_of_purged {} brokenRun
  exact ⟨hpurged, hkept mendedRun hpurged⟩

end FeatureTree
