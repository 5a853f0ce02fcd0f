import FeatureTree.Proofs.Exit
/-!
# Brackets

Entering and exiting a rule are an opening and a closing bracket, and
`Brackets` is the automaton that looks at nothing else. It takes in the
same events as an assembly, so both are receivers, and the open rules of
an assembly are its stack: each event leads to the same stack on either
side and is refused by either for the same bracket (`deliver_brackets`).
`followsBrackets` reads the depth and the bracket errors of a run off
the automaton.
-/

namespace FeatureTree

/-! ## Runs of a receiver -/

namespace Receiver

variable {σ : Type} [Receiver σ] (state : σ)

/-- The receiver after all events, those that were refused included. -/
def after (events : List Event) : σ :=
  events.foldl (fun state event => (event.deliver state).1) state

/-- What each event was refused with, if it was; the run goes on in
either case. -/
def answers (state : σ) : List Event → List (Option AssemblyError)
  | [] => []
  | event :: rest => (event.deliver state).2 :: answers (event.deliver state).1 rest

/-- What was refused, in order. -/
def errors (events : List Event) : List AssemblyError :=
  (answers state events).flatMap Option.toList

@[simp] theorem after_nil : after state [] = state := rfl

@[simp] theorem after_cons (event : Event) (rest : List Event) :
    after state (event :: rest) = after (event.deliver state).1 rest := rfl

@[simp] theorem after_append (events later : List Event) :
    after state (events ++ later) = after (after state events) later :=
  List.foldl_append

theorem errors_cons (event : Event) (rest : List Event) : errors state (event :: rest) =
    (event.deliver state).2.toList ++ errors (event.deliver state).1 rest := rfl

theorem errors_append (events later : List Event) :
    errors state (events ++ later) = errors state events ++ errors (after state events) later := by
  induction events generalizing state with
  | nil => rfl
  | cons event rest ih =>
    rw [List.cons_append, errors_cons, errors_cons, ih, List.append_assoc, after_cons]

end Receiver

/-- Whether an event enters or exits a rule. -/
def Event.isBracket : Event → Bool
  | .leaf _ => false
  | .enter _ | .exit _ => true

/-- Whether an event enters a rule. -/
def Event.isEnter : Event → Bool
  | .enter _ => true
  | .leaf _ | .exit _ => false

/-- Whether an event takes a rule off those that are open, given what it
was refused with: an exit does, unless it is refused for a bracket. -/
def Event.pops : Event → Option AssemblyError → Bool
  | .exit _, answer => !answer.any AssemblyError.isBracket
  | .leaf _, _ | .enter _, _ => false

/-! ## The automaton -/

/-- The rules that are open, the innermost first. -/
structure Brackets where
  opened : List Rule := []
  deriving DecidableEq

namespace Brackets

/-- An opening bracket is put on the stack. A closing one takes its
partner off, and is refused where another or none is there. -/
instance : Receiver Brackets where
  leaf b _ := b
  enter b rule := { opened := rule :: b.opened }
  exit b rule :=
    match b.opened with
    | [] => (b, some (.contract (.exitAtRoot rule)))
    | inner :: outer =>
      if inner = rule then ({ opened := outer }, none)
      else (b, some (.contract (.crossedExit inner rule)))

variable (b : Brackets)

theorem deliver_enter (rule : Rule) :
    (Event.enter rule).deliver b = ({ opened := rule :: b.opened }, none) := rfl

theorem deliver_exit_nil {b : Brackets} (h : b.opened = []) (rule : Rule) :
    (Event.exit rule).deliver b = (b, some (.contract (.exitAtRoot rule))) := by
  simp only [Event.deliver, Receiver.exit, h]

theorem deliver_exit_self {b : Brackets} {rule : Rule} {outer : List Rule}
    (h : b.opened = rule :: outer) :
    (Event.exit rule).deliver b = ({ opened := outer }, none) := by
  simp only [Event.deliver, Receiver.exit, h, if_true]

theorem deliver_exit_of_ne {b : Brackets} {inner rule : Rule} {outer : List Rule}
    (h : b.opened = inner :: outer) (hne : inner ≠ rule) :
    (Event.exit rule).deliver b = (b, some (.contract (.crossedExit inner rule))) := by
  simp only [Event.deliver, Receiver.exit, h, if_neg hne]

/-- An exit is refused for want of an open rule just where none is
open. -/
theorem answer_exitAtRoot_iff (rule : Rule) :
    ((Event.exit rule).deliver b).2 = some (.contract (.exitAtRoot rule)) ↔ b.opened = [] := by
  cases hopened : b.opened with
  | nil => simp [deliver_exit_nil hopened]
  | cons top outer =>
    by_cases hrule : top = rule
    · subst hrule
      simp [deliver_exit_self hopened]
    · simp [deliver_exit_of_ne hopened hrule]

/-- It is refused for another rule just where that one is on top. -/
theorem answer_crossedExit_iff (inner rule : Rule) :
    ((Event.exit rule).deliver b).2 = some (.contract (.crossedExit inner rule)) ↔
      b.opened.head? = some inner ∧ inner ≠ rule := by
  cases hopened : b.opened with
  | nil => simp [deliver_exit_nil hopened]
  | cons top outer =>
    by_cases hrule : top = rule
    · subst hrule
      simp +contextual [deliver_exit_self hopened]
    · rw [deliver_exit_of_ne hopened hrule]
      constructor
      · intro hanswer
        obtain rfl : top = inner := by simpa using hanswer
        exact ⟨rfl, hrule⟩
      · rintro ⟨hhead, -⟩
        obtain rfl : top = inner := Option.some.inj hhead
        rfl

/-- An opening adds a rule, and an exit that is not refused takes one
off. -/
theorem length_deliver (event : Event) :
    (event.deliver b).1.opened.length + (if event.pops (event.deliver b).2 then 1 else 0) =
      b.opened.length + if event.isEnter then 1 else 0 := by
  cases event with
  | leaf token => rfl
  | enter rule => rfl
  | exit rule =>
    cases hopened : b.opened with
    | nil => rw [deliver_exit_nil hopened, hopened]; rfl
    | cons inner outer =>
      by_cases hrule : inner = rule
      · subst hrule
        rw [deliver_exit_self hopened]
        rfl
      · rw [deliver_exit_of_ne hopened hrule, hopened]
        rfl

/-- Lines leave no trace on the stack. -/
theorem after_filter (events : List Event) :
    Receiver.after b (events.filter Event.isBracket) = Receiver.after b events := by
  induction events generalizing b with
  | nil => rfl
  | cons event rest ih => cases event <;> exact ih _

/-- And no line is refused. -/
theorem errors_filter (events : List Event) :
    Receiver.errors b (events.filter Event.isBracket) = Receiver.errors b events := by
  induction events generalizing b with
  | nil => rfl
  | cons event rest ih =>
    cases event with
    | leaf token => exact ih b
    | enter rule => exact ih _
    | exit rule => exact congrArg (((Event.exit rule).deliver b).2.toList ++ ·) (ih _)

end Brackets

/-! ## The brackets of an assembly -/

namespace Assembly

variable (a : Assembly)

/-- The open rules of an assembly, without what is in them. -/
def brackets : Brackets :=
  { opened := a.frames.map Frame.rule }

/-- Filing opens and closes nothing. -/
@[simp] theorem brackets_file (key : Key) (child : Child) :
    (a.file key child).brackets = a.brackets := by
  rw [file, brackets, brackets]
  cases a.frames <;> rfl

@[simp] theorem depth_file (key : Key) (child : Child) : (a.file key child).depth = a.depth := by
  rw [file, depth, depth]
  cases a.frames <;> rfl

/-- **An assembly does what its brackets do**: an event leads to the
brackets that the automaton is in after it, and is refused for a bracket
where the automaton refuses it. -/
theorem deliver_brackets (event : Event) :
    event.deliver a.brackets =
      ((a.step event).1.brackets, (a.step event).2.filter AssemblyError.isBracket) := by
  cases event with
  | leaf token =>
    refine Prod.ext ?_ rfl
    exact (brackets_file a (.token token.kind) (.token token)).symm
  | enter rule => rfl
  | exit rule =>
    have houtcome := exit_step a rule
    generalize a.step (.exit rule) = outcome at houtcome ⊢
    cases houtcome with
    | atRoot hframes =>
      have hopened : a.brackets.opened = [] := by rw [brackets, hframes]; rfl
      exact Brackets.deliver_exit_nil hopened rule
    | @crossed frame outer hframes hrule =>
      have hopened : a.brackets.opened = frame.rule :: outer.map Frame.rule := by
        rw [brackets, hframes]; rfl
      exact Brackets.deliver_exit_of_ne hopened hrule
    | @lost frame outer error hframes hrule herror =>
      have hopened : a.brackets.opened = rule :: outer.map Frame.rule := by
        rw [brackets, hframes, ← hrule]; rfl
      -- The frame is gone, and its error is no bracket error.
      have hbracket := Frame.isBracket_of_errorOf_close a.fallback herror
      rw [Brackets.deliver_exit_self hopened, Option.filter_some, hbracket]
      rfl
    | @closed frame outer child hframes hrule hclose =>
      have hopened : a.brackets.opened = rule :: outer.map Frame.rule := by
        rw [brackets, hframes, ← hrule]; rfl
      rw [Brackets.deliver_exit_self hopened, brackets_file]
      rfl

/-- **And so it does along a whole run.** -/
theorem brackets_deliverAll (events : List Event) :
    (a.deliverAll events).brackets = Receiver.after a.brackets events := by
  induction events generalizing a with
  | nil => rfl
  | cons event rest ih =>
    rw [Receiver.after_cons, deliver_brackets]
    exact ih (a.step event).1

theorem answers_brackets (events : List Event) :
    Receiver.answers a.brackets events =
      (Receiver.answers a events).map (Option.filter AssemblyError.isBracket) := by
  induction events generalizing a with
  | nil => rfl
  | cons event rest ih =>
    rw [Receiver.answers, deliver_brackets, ih]
    rfl

/-- The bracket errors of a run are the errors of its brackets. -/
theorem errors_brackets (events : List Event) :
    Receiver.errors a.brackets events =
      (Receiver.errors a events).filter AssemblyError.isBracket := by
  rw [Receiver.errors, answers_brackets, Receiver.errors, List.filter_flatMap, List.flatMap_map]
  refine congrArg (List.flatMap · _) (funext fun answer => ?_)
  cases answer with
  | none => rfl
  | some error =>
    rw [Option.filter_some]
    cases hbracket : error.isBracket <;> simp [hbracket]

/-! ## Counting -/

/-- An exit at which no rule is open is refused, and nothing else
happens. -/
theorem step_exit_of_no_frames {a : Assembly} (h : a.frames = []) (rule : Rule) :
    a.step (.exit rule) = (a, some (.contract (.exitAtRoot rule))) := by
  simp only [step, Event.deliver, Receiver.exit, exit, pop, h]
  rfl

/-- What an event adds to the open rules and what it takes from them. -/
theorem depth_step (event : Event) :
    (a.step event).1.depth + (if event.pops (a.step event).2 then 1 else 0) =
      a.depth + if event.isEnter then 1 else 0 := by
  have hdepth (a : Assembly) : a.depth = a.brackets.opened.length := (List.length_map _).symm
  have hpops : event.pops (a.step event).2 =
      event.pops ((a.step event).2.filter AssemblyError.isBracket) := by
    cases event with
    | leaf _ | enter _ => rfl
    | exit rule => rw [Event.pops, Event.pops, Option.any_filter]; simp
  have hstep := Brackets.length_deliver a.brackets event
  rwa [deliver_brackets, ← hpops, ← hdepth, ← hdepth] at hstep

/-- The number of events that take a rule off in a run. -/
def pops (events : List Event) : Nat :=
  (events.zip (Receiver.answers a events)).countP fun told => told.1.pops told.2

/-- What is open at the end of a run, and what was taken off, was open
before or entered. -/
theorem depth_deliverAll (events : List Event) :
    (a.deliverAll events).depth + a.pops events = a.depth + events.countP Event.isEnter := by
  induction events generalizing a with
  | nil => rfl
  | cons event rest ih =>
    have hstep := a.depth_step event
    have hrest := ih (a.step event).1
    have hpops : a.pops (event :: rest) =
        (a.step event).1.pops rest + if event.pops (a.step event).2 then 1 else 0 :=
      List.countP_cons ..
    have hafter : a.deliverAll (event :: rest) = (a.step event).1.deliverAll rest := rfl
    rw [hpops, hafter, List.countP_cons]
    omega

/-! ## The root -/

/-- **Nothing is taken from the root frame**: an event leaves it or files
one more child in it. -/
theorem root_step (event : Event) :
    (a.step event).1.root.rule = a.root.rule ∧
      a.root.children <+: (a.step event).1.root.children := by
  have hfile (a : Assembly) (key : Key) (child : Child) :
      (a.file key child).root.rule = a.root.rule ∧
        a.root.children <+: (a.file key child).root.children := by
    rw [file]
    cases a.frames with
    | nil => exact ⟨rfl, List.prefix_append _ _⟩
    | cons frame outer => exact ⟨rfl, List.prefix_refl _⟩
  cases event with
  | leaf token => exact hfile a _ _
  | enter rule => exact ⟨rfl, List.prefix_refl _⟩
  | exit rule =>
    have houtcome := exit_step a rule
    generalize a.step (.exit rule) = outcome at houtcome ⊢
    cases houtcome with
    | atRoot _ | crossed _ _ | lost _ _ _ => exact ⟨rfl, List.prefix_refl _⟩
    | @closed _ outer _ _ _ _ => exact hfile { a with frames := outer } _ _

theorem root_deliverAll (events : List Event) :
    (a.deliverAll events).root.rule = a.root.rule ∧
      a.root.children <+: (a.deliverAll events).root.children := by
  induction events generalizing a with
  | nil => exact ⟨rfl, List.prefix_refl _⟩
  | cons event rest ih =>
    obtain ⟨hrule, hchildren⟩ := a.root_step event
    obtain ⟨hruleRest, hchildrenRest⟩ := ih (a.step event).1
    exact ⟨hruleRest.trans hrule, hchildren.trans hchildrenRest⟩

end Assembly

/-! ## The law of brackets -/

/-- The assembly after all events, those that were refused included. -/
abbrev reached (settings : Settings) (events : List Event) : Assembly :=
  (Assembly.start settings).deliverAll events

/-- The rules that a sequence of events leaves open, the innermost
first. -/
def openedBy (events : List Event) : List Rule :=
  (Receiver.after ({} : Brackets) events).opened

variable (settings : Settings) (events : List Event)

theorem reached_append (later : List Event) :
    reached settings (events ++ later) = (reached settings events).deliverAll later :=
  List.foldl_append

theorem reached_concat (event : Event) :
    reached settings (events ++ [event]) = ((reached settings events).step event).1 :=
  reached_append settings events [event]

theorem openedBy_concat (event : Event) :
    openedBy (events ++ [event]) =
      (event.deliver ({ opened := openedBy events } : Brackets)).1.opened := by
  rw [openedBy, Receiver.after_append]
  rfl

/-- Entering a rule puts it on the stack. -/
theorem openedBy_enter (rule : Rule) :
    openedBy (events ++ [.enter rule]) = rule :: openedBy events :=
  openedBy_concat events (.enter rule)

/-- The open rules of an assembly are those on the stack. -/
theorem opened_reached : (reached settings events).frames.map Frame.rule = openedBy events :=
  congrArg Brackets.opened ((Assembly.start settings).brackets_deliverAll events)

theorem depth_reached : (reached settings events).depth = (openedBy events).length := by
  rw [← opened_reached settings, List.length_map]
  rfl

/-- The next event is refused for a bracket just where the automaton
refuses it for that bracket. -/
theorem answer_iff_of_isBracket (event : Event) {error : AssemblyError}
    (h : error.isBracket = true) :
    ((reached settings events).step event).2 = some error ↔
      (event.deliver ({ opened := openedBy events } : Brackets)).2 = some error := by
  have hbrackets : (reached settings events).brackets = { opened := openedBy events } :=
    (Assembly.start settings).brackets_deliverAll events
  rw [← hbrackets, Assembly.deliver_brackets, Option.filter_eq_some_iff, h]
  simp

/-- What the rules entered and exited decide of a run, and they alone. -/
structure FollowsBrackets (settings : Settings) (events : List Event) : Prop where
  /-- The open rules are those on the stack of the automaton. -/
  opened : (reached settings events).frames.map Frame.rule = openedBy events
  /-- So there are as many. -/
  depth : (reached settings events).depth = (openedBy events).length
  /-- Each event on the way is refused for the bracket that the automaton
  refuses it for, if it is refused for one. -/
  answers : (Receiver.answers (Assembly.start settings) events).map
      (Option.filter AssemblyError.isBracket) = Receiver.answers ({} : Brackets) events
  /-- An exit is refused outside all rules just where the stack is
  empty. -/
  exitAtRoot_iff (rule : Rule) :
    ((reached settings events).step (.exit rule)).2 = some (.contract (.exitAtRoot rule)) ↔
      openedBy events = []
  /-- It is refused for another rule just where that one is on top. -/
  crossedExit_iff (inner rule : Rule) :
    ((reached settings events).step (.exit rule)).2 =
        some (.contract (.crossedExit inner rule)) ↔
      (openedBy events).head? = some inner ∧ inner ≠ rule
  /-- And otherwise it takes the top off, whatever comes of the frame. -/
  popped (rule : Rule) (outer : List Rule) (h : openedBy events = rule :: outer) :
    ((reached settings events).step (.exit rule)).1.frames.map Frame.rule = outer
  /-- Other settings and other lines change none of this, whatever else
  fails for them. -/
  brackets_only (settings' : Settings) (events' : List Event)
    (h : events'.filter Event.isBracket = events.filter Event.isBracket) :
    (reached settings' events').depth = (reached settings events).depth ∧
      (Receiver.errors (Assembly.start settings') events').filter AssemblyError.isBracket =
        (Receiver.errors (Assembly.start settings) events).filter AssemblyError.isBracket
  /-- What is open was entered and not taken off. -/
  depth_add_pops : (reached settings events).depth + (Assembly.start settings).pops events =
    events.countP Event.isEnter
  /-- The root frame is none of the frames on the stack: with nothing open
  every exit changes nothing, also that of the root's own rule. -/
  root_not_popped (rule : Rule) (h : openedBy events = []) :
    ((reached settings events).step (.exit rule)).1 = reached settings events
  /-- And what it holds stays. -/
  root_kept (more : List Event) :
    (reached settings (events ++ more)).root.rule = .root ∧
      (reached settings events).root.children <+:
        (reached settings (events ++ more)).root.children

/-- **Every run follows its brackets.** -/
theorem followsBrackets : FollowsBrackets settings events where
  opened := opened_reached settings events
  depth := depth_reached settings events
  answers := ((Assembly.start settings).answers_brackets events).symm
  exitAtRoot_iff rule :=
    (answer_iff_of_isBracket settings events _ rfl).trans (Brackets.answer_exitAtRoot_iff _ rule)
  crossedExit_iff inner rule :=
    (answer_iff_of_isBracket settings events _ rfl).trans
      (Brackets.answer_crossedExit_iff _ inner rule)
  popped rule outer h := by
    rw [← reached_concat, opened_reached, openedBy_concat, h, Brackets.deliver_exit_self rfl]
  brackets_only settings' events' h := by
    have hopened : openedBy events' = openedBy events := by
      rw [openedBy, ← Brackets.after_filter, h, Brackets.after_filter, openedBy]
    have herrors (s : Settings) (l : List Event) :
        (Receiver.errors (Assembly.start s) l).filter AssemblyError.isBracket =
          Receiver.errors ({} : Brackets) (l.filter Event.isBracket) := by
      rw [Brackets.errors_filter]
      exact ((Assembly.start s).errors_brackets l).symm
    rw [depth_reached, depth_reached, hopened, herrors, herrors, h]
    exact ⟨rfl, rfl⟩
  depth_add_pops := by
    rw [Assembly.depth_deliverAll]
    exact Nat.zero_add _
  root_not_popped rule h := by
    have hframes : (reached settings events).frames = [] :=
      List.map_eq_nil_iff.mp ((opened_reached settings events).trans h)
    rw [Assembly.step_exit_of_no_frames hframes]
  root_kept more := by
    have happend : reached settings (events ++ more) =
        (reached settings events).deliverAll more := List.foldl_append
    obtain ⟨hrule, -⟩ := (Assembly.start settings).root_deliverAll (events ++ more)
    obtain ⟨-, hchildren⟩ := (reached settings events).root_deliverAll more
    exact ⟨hrule, happend ▸ hchildren⟩

/-- A custom rule is closed by itself alone, whatever it is called. -/
example : openedBy [.exit .root, .enter .step, .enter (.custom "Step"), .exit .step, .enter .step,
    .exit .step, .exit (.custom "Step")] = [.step] := by
  decide

end FeatureTree
