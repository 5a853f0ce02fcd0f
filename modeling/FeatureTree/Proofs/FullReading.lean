import FeatureTree.Proofs.Stored
/-!
# Reading in full

What is read of a frame is picked from the children under one key, and a
child of another sort there would be passed over without a word. There is
none: in every state that events lead to, in every frame and in the groups
inside it, children stand under their own keys (`filed_reached`). So each
list that is read of a frame is all that was filed under its key, in the
order of filing, and each single thing is the first of them
(`readInFull_reached`).
-/

namespace FeatureTree

/-- **A frame that is read in full**: what is read of it, against all that
stands under the key it is read by. -/
structure Frame.ReadInFull (f : Frame) : Prop where
  /-- What stands under a key belongs there: lines of a kind under that
  kind, and under a rule what the rule makes, or its groups where it makes
  nothing. -/
  filed (key : Key) : ∀ child ∈ f.under key, Filed key child
  /-- The order under a key is that of filing. -/
  filing (key key' : Key) (child : Child) :
    (f.file key child).under key' = f.under key' ++ if key = key' then [child] else []
  /-- The lines of a kind are all that stand there, -/
  tokens (kind : TokenKind) : (f.tokens kind).map .token = f.under (.token kind)
  /-- and so are steps, examples tables and definitions. -/
  steps : f.steps.map .step = f.under (.rule .step)
  examples : f.examples.map .examples = f.under (.rule .examples)
  definitions : f.definitions.map .definition = f.under (.rule .definition)
  /-- One line of a kind is the first that stands there, -/
  token? (kind : TokenKind) : (f.token? kind).map .token = (f.under (.token kind)).head?
  /-- and so is the group of a rule that makes nothing, -/
  group? (rule : Rule) (hrule : rule.isGroup = true) :
    (f.group? rule).map (fun g => .group g.rule g.children) = (f.under (.rule rule)).head?
  /-- and a background, a table and a doc string. -/
  background? : f.background?.map .background = (f.under (.rule .background)).head?
  dataTable? : f.dataTable?.map .dataTable = (f.under (.rule .dataTable)).head?
  docString? : f.docString?.map .docString = (f.under (.rule .docString)).head?
  /-- The description is the first, or empty where there is none. -/
  description :
    f.under (.rule .description) = [] ∧ f.description = "" ∨
      (f.under (.rule .description)).head? = some (.description f.description)
  /-- The argument of a step is the first table, or where no table is the
  first doc string, or nothing where neither is. -/
  table (grid : DataTable) :
    f.argument = .table grid ↔ (f.under (.rule .dataTable)).head? = some (.dataTable grid)
  doc (doc : DocString) :
    f.argument = .docString doc ↔ f.under (.rule .dataTable) = [] ∧
      (f.under (.rule .docString)).head? = some (.docString doc)
  empty :
    f.argument = .empty ↔ f.under (.rule .dataTable) = [] ∧ f.under (.rule .docString) = []
  /-- The tags are those of all lines in the first group of tag lines, one
  for each span of a line. -/
  tags :
    f.under (.rule .tags) = [] ∧ f.tags = [] ∨
      ∃ (children : List (Key × Child)) (lines : List Token),
        (f.under (.rule .tags)).head? = some (.group .tags children) ∧
        ({ rule := .tags, children } : Frame).under (.token .tagLine) = lines.map .token ∧
        f.tags = lines.flatMap fun line => line.spans.map fun span =>
          { location := { line := line.location.line, column := span.column }, name := span.text }

/-- Frames in which children stand under their keys are read in full. -/
theorem Frame.Throughout.readInFull {f : Frame} (hfiled : f.Throughout Filed) : f.ReadInFull where
  filed _ _ hchild := hfiled f (.self f) _ (Frame.mem_under.mp hchild)
  filing := f.under_file
  tokens := Frame.map_tokens hfiled
  steps := Frame.map_steps hfiled
  examples := Frame.map_examples hfiled
  definitions := Frame.map_definitions hfiled
  token? := Frame.map_token? hfiled
  group? _ := Frame.map_group? hfiled
  background? := Frame.map_background? hfiled
  dataTable? := Frame.map_dataTable? hfiled
  docString? := Frame.map_docString? hfiled
  description := Frame.description_of_under hfiled
  table _ := Frame.argument_eq_table_iff hfiled
  doc _ := Frame.argument_eq_docString_iff hfiled
  empty := Frame.argument_eq_empty_iff hfiled
  tags := Frame.tags_of_under hfiled

/-- **An assembly that is read in full**: the frames outside and inside
all rules, the groups in them at any depth, and the feature outside all
rules, which is looked for on the way and at the end. -/
structure Assembly.ReadInFull (a : Assembly) : Prop where
  frames {f : Frame} (h : a.Holds f) : f.ReadInFull
  feature? : a.feature?.map .feature = (a.root.under (.rule .feature)).head?
  finish : a.finish.map .feature = (a.root.under (.rule .feature)).head?

/-- **Nothing that was taken in is passed over**, whatever events were
delivered, and whichever of them were refused. -/
theorem readInFull_reached (settings : Settings) (events : List Event) :
    (reached settings events).ReadInFull := by
  have hfiled := filed_reached settings events
  have hfinish := Frame.map_first? hfiled.root .feature
  refine ⟨fun h => (hfiled.of_holds h).readInFull, ?_, hfinish⟩
  rw [Assembly.feature?_eq_finish]
  exact hfinish

/-- A run that leaves a definition open, with a scenario in it and in that a
block of a custom rule. In the block a step was lost for its missing line
and the scenario was exited too early, and before everything there was a
stray exit. -/
def interruptedRun : List Event :=
  [.exit .step, .enter .definition, .enter .scenario, .enter (.custom "Block"), .enter .step,
    .leaf { kind := .stepLine, location := ⟨3, 5⟩, text := "one" }, .exit .step, .enter .step,
    .exit .step, .exit .scenario, .enter .step,
    .leaf { kind := .stepLine, location := ⟨5, 5⟩, text := "two" }, .exit .step,
    .exit (.custom "Block"), .exit .scenario]

/-- What the block is left with. -/
def interruptedBlock : Frame where
  rule := .custom "Block"
  children := [
    (.rule .step, .step { location := ⟨3, 5⟩, keyword := "", text := "one", argument := .empty }),
    (.rule .step, .step { location := ⟨5, 5⟩, keyword := "", text := "two", argument := .empty })]

/-- The steps before and behind the interruption are both read. -/
theorem readInFull_interruptedRun :
    (reached {} interruptedRun).Holds interruptedBlock ∧
      interruptedBlock.steps.map .step = interruptedBlock.under (.rule .step) ∧
      interruptedBlock.steps.map Step.text = ["one", "two"] := by
  have hholds : (reached {} interruptedRun).Holds interruptedBlock :=
    .inr ⟨_, List.mem_singleton_self _,
      .group List.mem_cons_self (.group List.mem_cons_self (.self _))⟩
  exact ⟨hholds, ((readInFull_reached {} interruptedRun).frames hholds).steps, rfl⟩

end FeatureTree
