import FeatureTree.Proofs.Evaluation
import FeatureTree.Proofs.Texts
/-!
# Descriptions and their lines

A description is made of the texts of the lines directly in its block. It
keeps them up to the last that is not blank, as they stand, and joins them
(`DescribedBy`). Blank is meant of the six characters that leave no mark
(`IsUnmarked`), and of no other white space. So blank lines at the end
make no difference while those further up stay, and where no line holds a
line feed the description tells its lines, and can be described again.
-/

namespace FeatureTree

/-! ## Blank texts -/

/-- The characters that leave no mark: space, tab, line feed, vertical
tab, form feed and carriage return. -/
def blankChars : List Char :=
  [' ', '\t', '\n', '\x0b', '\x0c', '\r']

/-- A text of these characters alone, the empty text among them. -/
def IsUnmarked (text : String) : Prop :=
  ∀ c ∈ text.toList, c ∈ blankChars

instance : DecidablePred IsUnmarked := fun text =>
  List.decidableBAll (· ∈ blankChars) text.toList

/-- The lines that a description drops at its end are the unmarked ones. -/
theorem isBlank_eq : (isBlank · = true) = IsUnmarked := by
  have hchar (c : Char) : isBlankChar c = true ↔ c ∈ blankChars := by
    simp [isBlankChar, blankChars, or_assoc]
  funext text
  rw [isBlank, List.all_eq_true]
  exact propext (forall₂_congr fun c _ => hchar c)

/-- Any lines can be cut behind the last that is not blank. -/
theorem isCut_describe (texts : List String) :
    IsCut IsUnmarked texts (dropTrailing isBlank texts) (texts.rtakeWhile isBlank) := by
  rw [← isBlank_eq]
  exact isCut_dropTrailing isBlank texts

/-- **The description of some lines** is what is kept of them, joined. -/
theorem IsCut.describe_eq {texts kept rest : List String} (h : IsCut IsUnmarked texts kept rest) :
    describe texts = joinLines kept := by
  rw [← isBlank_eq] at h
  rw [describe, h.dropTrailing_eq]

/-- **A description described again**, line by line, stays what it is. -/
theorem describe_splitLines {texts : List String} (hfeed : ∀ text ∈ texts, '\n' ∉ text.toList) :
    describe (splitLines (describe texts)) = describe texts := by
  have hcut := isCut_describe texts
  have hdescribe := hcut.describe_eq
  rw [hdescribe]
  rcases eq_or_ne (dropTrailing isBlank texts) [] with hnil | hne
  · -- Nothing is kept, and the empty text is one line, which is blank.
    rw [hnil]
    rfl
  · have hkept : ∀ text ∈ dropTrailing isBlank texts, '\n' ∉ text.toList := by
      intro text htext
      refine hfeed text ?_
      rw [hcut.whole]
      exact List.mem_append_left _ htext
    rw [splitLines_joinLines hne hkept]
    exact hcut.kept_self.describe_eq

/-! ## Description blocks -/

namespace Body

/-- The texts that a description or a doc string is made of: those of the
lines of text directly in its block. -/
def texts (body : Body) : List String :=
  (leaves .other body).map Token.text

/-- What an assembly makes of a description block with this inside,
whatever it has taken in before: it files the text, and nothing else
changes. -/
def Describes (body : Body) (text : String) : Prop :=
  ∀ a : Assembly, a.run (Block.scope .description body).events =
    .ok (a.file (.rule .description) (.description text))

variable {body more : Body} {text text' : String}

theorem describes_of_accepted (haccepted : error? body = none) :
    body.Describes (describe body.texts) :=
  Block.makes_iff.mpr ⟨error?_scope haccepted rfl, fun _ => rfl⟩

/-- A block makes one description. -/
theorem Describes.unique (h : body.Describes text) (h' : body.Describes text') : text = text' :=
  Child.description.inj (Block.Makes.unique h h')

theorem texts_append : (body ++ more).texts = body.texts ++ more.texts := by
  rw [texts, leaves_append, List.map_append]
  rfl

end Body

/-! ## The law of descriptions -/

/-- **What a description block with this inside comes to.** -/
structure DescribedBy (body : Body) : Prop where
  /-- There is one way to cut its texts behind the last that is not
  blank. -/
  cut : ∃! cut : List String × List String, IsCut IsUnmarked body.texts cut.1 cut.2
  /-- What is kept is joined to the description, as it stands. -/
  joined {kept rest : List String} (hcut : IsCut IsUnmarked body.texts kept rest) :
    body.Describes (joinLines kept)
  /-- Blank lines behind all others make no difference. -/
  blank (more : Body) (haccepted : more.error? = none) (hblank : ∀ text ∈ more.texts, IsUnmarked text)
    {text : String} (htext : body.Describes text) : (body ++ more).Describes text
  /-- A line that is not blank keeps all lines before it. -/
  marked (line : Token) (hkind : line.kind = .other) (hmarked : ¬ IsUnmarked line.text) :
    (body ++ [Block.leaf line]).Describes (joinLines (body.texts ++ [line.text]))
  /-- Where no text holds a line feed, the lines of the description are
  what is kept, if that is anything. -/
  lines {kept rest : List String} (hcut : IsCut IsUnmarked body.texts kept rest) (hne : kept ≠ [])
    (hfeed : ∀ text ∈ body.texts, '\n' ∉ text.toList) : splitLines (joinLines kept) = kept
  /-- And a block of these lines is described in the same way again. -/
  again {text : String} (htext : body.Describes text)
    (hfeed : ∀ text ∈ body.texts, '\n' ∉ text.toList) (retold : Body)
    (haccepted : retold.error? = none) (hretold : retold.texts = splitLines text) :
    retold.Describes text

/-- **A description is its lines up to the last that is not blank**,
joined as they stand, whatever else is in its block as long as nothing of
it is refused. -/
theorem describedBy_of_accepted {body : Body} (haccepted : body.error? = none) :
    DescribedBy body where
  cut := by
    have hcut := isCut_describe body.texts
    refine ⟨(_, _), hcut, ?_⟩
    rintro ⟨kept, rest⟩ hcut'
    obtain ⟨rfl, rfl⟩ := hcut'.unique hcut
    rfl
  joined := by
    intro kept rest hcut
    rw [← hcut.describe_eq]
    exact Body.describes_of_accepted haccepted
  blank := by
    intro more hmore hblank text htext
    have hcut := isCut_describe body.texts
    have hsame : describe (body ++ more).texts = describe body.texts := by
      rw [Body.texts_append, (hcut.append hblank).describe_eq, hcut.describe_eq]
    rw [htext.unique (Body.describes_of_accepted haccepted), ← hsame]
    exact Body.describes_of_accepted (Body.error?_append_eq_none haccepted hmore)
  marked := by
    intro line hkind hmarked
    have hline : Body.texts [.leaf line] = [line.text] := by simp [Body.texts, hkind]
    have hcut := IsCut.concat body.texts hmarked
    rw [← hcut.describe_eq, ← hline, ← Body.texts_append]
    exact Body.describes_of_accepted (Body.error?_append_eq_none haccepted rfl)
  lines := by
    intro kept rest hcut hne hfeed
    exact splitLines_joinLines hne fun text htext => hfeed text (hcut.mem_of_mem_kept htext)
  again := by
    intro text htext hfeed retold hretold hlines
    have hsame : describe retold.texts = text := by
      rw [hlines, htext.unique (Body.describes_of_accepted haccepted)]
      exact describe_splitLines hfeed
    rw [← hsame]
    exact Body.describes_of_accepted hretold

/-- The inside of a description with a comment and a rule of its own
between the lines. The first line is blank and so is the last, but the
one before it holds a no-break space. -/
def asideInside : Body :=
  [.leaf { kind := .other, location := ⟨2, 1⟩, text := "" },
    .leaf { kind := .other, location := ⟨3, 1⟩, text := "  Adding up" },
    .leaf { kind := .comment, location := ⟨4, 1⟩, text := "# and more" },
    .scope (.custom "Aside") [.leaf { kind := .other, location := ⟨5, 1⟩, text := "carrying" }],
    .leaf { kind := .other, location := ⟨6, 1⟩, text := "\u00A0" },
    .leaf { kind := .other, location := ⟨7, 1⟩, text := " \t" }]

/-- Of its lines the last alone is dropped, and the others are read off
the description again. -/
theorem describedBy_asideInside :
    asideInside.error? = none ∧
      IsCut IsUnmarked asideInside.texts ["", "  Adding up", "\u00A0"] [" \t"] ∧
      asideInside.Describes "\n  Adding up\n\u00A0" ∧
      splitLines "\n  Adding up\n\u00A0" = ["", "  Adding up", "\u00A0"] := by
  have haccepted : asideInside.error? = none := rfl
  have hcut : IsCut IsUnmarked asideInside.texts ["", "  Adding up", "\u00A0"] [" \t"] :=
    ⟨rfl, by decide, by decide⟩
  have hfeed : ∀ text ∈ asideInside.texts, '\n' ∉ text.toList := by decide
  have htold := describedBy_of_accepted haccepted
  exact ⟨haccepted, hcut, htold.joined hcut, htold.lines hcut (List.cons_ne_nil _ _) hfeed⟩

end FeatureTree
