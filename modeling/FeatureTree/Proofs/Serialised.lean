import FeatureTree.Document.Json
import FeatureTree.Proofs.JsonExact
import FeatureTree.Proofs.JsonText
/-!
# The written form of a feature

What is read as JSON is taken apart by the names of the members, whatever
their order and whatever stands beside them; a feature without a member
for its background has none. Every part is found again in what it is
written as, and `writtenFaithfully` says what follows for the text of a
feature: it is one object, printable, and no other feature has the same.
-/

namespace FeatureTree

namespace Json

/-! ## Taking values apart -/

variable {α : Type _}

/-- The string, of a value that is one. -/
def string? : Json → Option String
  | .string s => some s
  | .number _ | .array _ | .object _ => none

/-- The number, of a value that is one. -/
def number? : Json → Option Nat
  | .number n => some n
  | .string _ | .array _ | .object _ => none

/-- The parts, of an array that holds nothing else. -/
def listOf? (ofJson? : Json → Option α) : Json → Option (List α)
  | .array items => items.mapM ofJson?
  | .number _ | .string _ | .object _ => none

/-- The first member of an object with a name. -/
def member? (name : String) : Json → Option Json
  | .object members => members.lookup name
  | .number _ | .string _ | .array _ => none

/-- What the first member with a name is read as. -/
def field? (name : String) (ofJson? : Json → Option α) (j : Json) : Option α :=
  (j.member? name).bind ofJson?

/-- What a member that may be left out is read as. -/
def optional? (name : String) (ofJson? : Json → Option α) (j : Json) : Option (Option α) :=
  match j.member? name with
  | none => some none
  | some value => (ofJson? value).map some

section

variable {name name' : String} {ofJson? : Json → Option α} {value : Json}
  {rest : List (String × Json)}

@[simp] theorem field?_cons_self :
    field? name ofJson? (.object ((name, value) :: rest)) = ofJson? value := by
  rw [field?, member?, List.lookup_cons_self]
  rfl

@[simp] theorem field?_cons_of_ne (h : name ≠ name') :
    field? name ofJson? (.object ((name', value) :: rest)) =
      field? name ofJson? (.object rest) := by
  rw [field?, member?, List.lookup_cons, beq_false_of_ne h]
  rfl

@[simp] theorem optional?_nil : optional? name ofJson? (.object []) = some none := rfl

@[simp] theorem optional?_cons_self :
    optional? name ofJson? (.object ((name, value) :: rest)) = (ofJson? value).map some := by
  rw [optional?, member?, List.lookup_cons_self]

@[simp] theorem optional?_cons_of_ne (h : name ≠ name') :
    optional? name ofJson? (.object ((name', value) :: rest)) =
      optional? name ofJson? (.object rest) := by
  rw [optional?, member?, List.lookup_cons, beq_false_of_ne h]
  rfl

@[simp] theorem string?_string (s : String) : string? (.string s) = some s := rfl

@[simp] theorem number?_number (n : Nat) : number? (.number n) = some n := rfl

end

/-- Parts that are found again one by one are so in an array. -/
theorem listOf?_listOf {toJson : α → Json} {ofJson? : Json → Option α}
    (h : ∀ part, ofJson? (toJson part) = some part) (parts : List α) :
    (listOf toJson parts).listOf? ofJson? = some parts := by
  change (parts.map toJson).mapM ofJson? = some parts
  induction parts with
  | nil => rfl
  | cons part parts ih => simp [h, ih]

end Json

/-! ## Every part is found again -/

section

open Json

/-- A place from its object. -/
def Location.ofJson? (j : Json) : Option Location := do
  return { line := ← j.field? "line" number?, column := ← j.field? "column" number? }

@[simp] theorem Location.ofJson?_toJson (l : Location) : ofJson? l.toJson = some l := by
  simp [ofJson?, toJson]

/-- A tag from its object. -/
def Tag.ofJson? (j : Json) : Option Tag := do
  return { location := ← j.field? "location" Location.ofJson?, name := ← j.field? "name" string? }

theorem Tag.ofJson?_toJson (tag : Tag) : ofJson? tag.toJson = some tag := by
  simp [ofJson?, toJson]

/-- A cell from its object. -/
def TableCell.ofJson? (j : Json) : Option TableCell := do
  return { location := ← j.field? "location" Location.ofJson?, value := ← j.field? "value" string? }

theorem TableCell.ofJson?_toJson (cell : TableCell) : ofJson? cell.toJson = some cell := by
  simp [ofJson?, toJson]

/-- A row from its object. -/
def TableRow.ofJson? (j : Json) : Option TableRow := do
  return { location := ← j.field? "location" Location.ofJson?
           cells := ← j.field? "cells" (listOf? TableCell.ofJson?) }

theorem TableRow.ofJson?_toJson (row : TableRow) : ofJson? row.toJson = some row := by
  simp [ofJson?, toJson, listOf?_listOf TableCell.ofJson?_toJson]

/-- A line of a doc string from its object. -/
def DocLine.ofJson? (j : Json) : Option DocLine := do
  return { location := ← j.field? "location" Location.ofJson?, text := ← j.field? "text" string? }

theorem DocLine.ofJson?_toJson (line : DocLine) : ofJson? line.toJson = some line := by
  simp [ofJson?, toJson]

/-- A step's argument from its object, by the variant that this names. -/
def StepArgument.ofJson? (j : Json) : Option StepArgument := do
  match ← j.field? "type" string? with
  | "DataTable" => return .table { rows := ← j.field? "rows" (listOf? TableRow.ofJson?) }
  | "DocString" =>
    return .docString { location := ← j.field? "location" Location.ofJson?
                        contentType := ← j.field? "contentType" string?
                        lines := ← j.field? "lines" (listOf? DocLine.ofJson?) }
  | "Empty" => return .empty
  | _ => none

@[simp] theorem StepArgument.ofJson?_toJson (argument : StepArgument) :
    ofJson? argument.toJson = some argument := by
  cases argument with
  | table grid => simp [ofJson?, toJson, listOf?_listOf TableRow.ofJson?_toJson]
  | docString doc => simp [ofJson?, toJson, listOf?_listOf DocLine.ofJson?_toJson]
  | empty => simp [ofJson?, toJson]

/-- A step from its object. -/
def Step.ofJson? (j : Json) : Option Step := do
  return { location := ← j.field? "location" Location.ofJson?
           keyword := ← j.field? "keyword" string?
           text := ← j.field? "text" string?
           argument := ← j.field? "argument" StepArgument.ofJson? }

theorem Step.ofJson?_toJson (s : Step) : ofJson? s.toJson = some s := by
  simp [ofJson?, toJson]

/-- What every titled part starts with, from its object. -/
def Section.ofJson? (j : Json) : Option Section := do
  return { location := ← j.field? "location" Location.ofJson?
           keyword := ← j.field? "keyword" string?
           name := ← j.field? "name" string?
           description := ← j.field? "description" string? }

/-- A background from its object. -/
def Background.ofJson? (j : Json) : Option Background := do
  return { toSection := ← Section.ofJson? j
           steps := ← j.field? "steps" (listOf? Step.ofJson?) }

theorem Background.ofJson?_toJson (b : Background) : ofJson? b.toJson = some b := by
  simp [ofJson?, toJson, Section.ofJson?, Section.members, listOf?_listOf Step.ofJson?_toJson]

/-- An examples table from its object. -/
def ExamplesTable.ofJson? (j : Json) : Option ExamplesTable := do
  return { toSection := ← Section.ofJson? j
           tags := ← j.field? "tags" (listOf? Tag.ofJson?)
           rows := ← j.field? "rows" (listOf? TableRow.ofJson?) }

theorem ExamplesTable.ofJson?_toJson (e : ExamplesTable) : ofJson? e.toJson = some e := by
  simp [ofJson?, toJson, Section.ofJson?, Section.members, listOf?_listOf Tag.ofJson?_toJson,
    listOf?_listOf TableRow.ofJson?_toJson]

/-- What scenarios and outlines have in common, from their object. -/
def Scenario.ofJson? (j : Json) : Option Scenario := do
  return { toSection := ← Section.ofJson? j
           tags := ← j.field? "tags" (listOf? Tag.ofJson?)
           steps := ← j.field? "steps" (listOf? Step.ofJson?) }

/-- A definition from its object, by the variant that this names. -/
def ScenarioDefinition.ofJson? (j : Json) : Option ScenarioDefinition := do
  match ← j.field? "type" string? with
  | "Scenario" => return .scenario (← Scenario.ofJson? j)
  | "ScenarioOutline" =>
    return .outline { toScenario := ← Scenario.ofJson? j
                      examples := ← j.field? "examples" (listOf? ExamplesTable.ofJson?) }
  | _ => none

theorem ScenarioDefinition.ofJson?_toJson (d : ScenarioDefinition) :
    ofJson? d.toJson = some d := by
  have htags := listOf?_listOf Tag.ofJson?_toJson
  have hsteps := listOf?_listOf Step.ofJson?_toJson
  have hexamples := listOf?_listOf ExamplesTable.ofJson?_toJson
  cases d with
  | scenario s =>
    simp [ofJson?, toJson, Scenario.ofJson?, Scenario.members, Section.ofJson?, Section.members,
      htags, hsteps]
  | outline o =>
    simp [ofJson?, toJson, Scenario.ofJson?, Scenario.members, Section.ofJson?, Section.members,
      htags, hsteps, hexamples]

/-- A feature from its object; it has no background where the object has
no member for one. -/
def Feature.ofJson? (j : Json) : Option Feature := do
  return { toSection := ← Section.ofJson? j
           tags := ← j.field? "tags" (listOf? Tag.ofJson?)
           language := ← j.field? "language" string?
           background := ← j.optional? "background" Background.ofJson?
           definitions := ← j.field? "scenarioDefinitions" (listOf? ScenarioDefinition.ofJson?) }

/-- **A feature is found again in its object.** -/
theorem Feature.ofJson?_toJson (f : Feature) : ofJson? f.toJson = some f := by
  have htags := listOf?_listOf Tag.ofJson?_toJson
  have hdefinitions := listOf?_listOf ScenarioDefinition.ofJson?_toJson
  obtain ⟨title, tags, language, background, definitions⟩ := f
  cases background with
  | none => simp [ofJson?, toJson, Section.ofJson?, htags, hdefinitions]
  | some b =>
    simp [ofJson?, toJson, Section.ofJson?, htags, hdefinitions, Background.ofJson?_toJson]

end

/-! ## The text of a feature -/

/-- What the text of a feature says of it. -/
structure WrittenFaithfully (f : Feature) : Prop where
  /-- It is JSON for one object and for nothing else, -/
  spells_iff (j : Json) : Json.Spells j.lexemes f.toJson.text.toList ↔ j = f.toJson
  /-- in which a background is missing where the feature has none. -/
  object : ∃ members, f.toJson = .object members ∧
    (f.background = none ↔ "background" ∉ members.map Prod.fst)
  /-- No character below the space stands in it. -/
  printable : ∀ c ∈ f.toJson.text.toList, 0x20 ≤ c.toNat
  /-- It is read as this object, -/
  read : Json.read f.toJson.text = some f.toJson
  /-- and the feature is found in it again, field by field. -/
  found : Feature.ofJson? f.toJson = some f
  /-- No other feature has the same text. -/
  unique (g : Feature) (h : g.toJson.text = f.toJson.text) : g = f

/-- **The text of a feature determines it**, whatever strings, places and
parts it holds. -/
theorem writtenFaithfully (f : Feature) : WrittenFaithfully f where
  spells_iff j := by
    rw [← Json.read_eq_some_iff, f.toJson.read_text, Option.some.injEq, eq_comm]
  object := by
    refine ⟨_, rfl, ?_⟩
    cases hbackground : f.background <;> simp
  printable := by
    rw [Json.text, String.toList_ofList]
    exact f.toJson.printable_chars
  read := f.toJson.read_text
  found := f.ofJson?_toJson
  unique g h := by
    have hread := g.toJson.read_text
    rw [h, f.toJson.read_text] at hread
    have hfound := g.ofJson?_toJson
    rw [← Option.some.inj hread, f.ofJson?_toJson] at hfound
    exact (Option.some.inj hfound).symm

end FeatureTree
