import Mathlib.Data.List.Forall2
import FeatureTree.Proofs.DescriptionLines
/-!
# Doc strings and their lines

A doc string keeps the lines of text directly in its block, all of them
and as they stand: blank ones, those at its end, and those that stand
before a delimiter too (`QuotedWhole`). Its place and its content type are
those of the first delimiter, and no other delimiter counts. Where no line
holds a line feed the content tells the lines, if there are any; it cannot
tell one empty line from none.
-/

namespace FeatureTree

/-- **The line of a doc string** that a line of text becomes: at its
place, with its text. -/
def Token.IsQuoted (line : Token) (quoted : DocLine) : Prop :=
  quoted = { location := line.location, text := line.text }

namespace Body

/-- **The first delimiter** directly in a doc string block. -/
structure OpensWith (body : Body) (opening : Token) : Prop where
  kind : opening.kind = .docStringSeparator
  split : ∃ earlier later, body = earlier ++ .leaf opening :: later ∧
    ∀ line, .leaf line ∈ earlier → line.kind ≠ .docStringSeparator

/-- A doc string block with this inside makes the doc string. -/
def Quotes (body : Body) (doc : DocString) : Prop :=
  (Block.scope .docString body).Makes (.docString doc)

variable {body : Body} {doc : DocString} {opening : Token}

/-- The delimiter that is read is the first. -/
theorem opensWith_of_line? (h : line? .docStringSeparator body = some opening) :
    body.OpensWith opening := by
  have hkind := (mem_leaves.mp (List.mem_of_head? h)).2
  rw [line?, leaves, List.head?_filterMap] at h
  obtain ⟨earlier, block, later, hbody, hread, hearlier⟩ := List.findSome?_eq_some_iff.mp h
  refine ⟨hkind, earlier, later, ?_, ?_⟩
  · cases block with
    | scope rule inside => cases hread
    | leaf token =>
      obtain ⟨-, htoken⟩ := Option.ite_none_right_eq_some.mp hread
      rw [hbody, Option.some.inj htoken]
  · intro line hline hdelimiter
    have hnone := hearlier _ hline
    simp [hdelimiter] at hnone

theorem Quotes.docString?_eq (h : body.Quotes doc) : docString? body = some doc := by
  obtain ⟨made, hmade, hwrap⟩ := Option.map_eq_some_iff.mp ((Block.makes_iff.mp h).2 "")
  rw [hmade, Child.docString.inj hwrap]

/-- What is made is read off the delimiter and the lines of text. -/
theorem Quotes.eq (h : body.Quotes doc) :
    ∃ opening, body.OpensWith opening ∧
      doc = { location := opening.location, contentType := opening.text
              lines := (body.leaves .other).map Token.docLine } := by
  obtain ⟨opening, hline, hdoc⟩ := Option.map_eq_some_iff.mp h.docString?_eq
  exact ⟨opening, opensWith_of_line? hline, hdoc.symm⟩

/-- The texts of the lines made are those of the lines of text. -/
theorem Quotes.texts_eq (h : body.Quotes doc) : doc.lines.map DocLine.text = body.texts := by
  obtain ⟨opening, -, rfl⟩ := h.eq
  rw [List.map_map]
  rfl

/-- **The content tells the lines**, where there are any and none holds a
line feed. -/
theorem Quotes.splitLines_content (h : body.Quotes doc) (hne : body.texts ≠ [])
    (hfeed : ∀ text ∈ body.texts, '\n' ∉ text.toList) : splitLines doc.content = body.texts := by
  rw [DocString.content, h.texts_eq]
  exact splitLines_joinLines hne hfeed

/-- A block with a delimiter makes a doc string, if nothing inside is
refused. -/
theorem exists_quotes (haccepted : error? body = none)
    (hopened : ∃ opening, .leaf opening ∈ body ∧ opening.kind = .docStringSeparator) :
    ∃ doc, body.Quotes doc := by
  obtain ⟨opening, hmem, hkind⟩ := hopened
  have hleaves : opening ∈ body.leaves .docStringSeparator := mem_leaves.mpr ⟨hmem, hkind⟩
  have hline : line? .docStringSeparator body = some _ :=
    List.head?_eq_some_head (List.ne_nil_of_mem hleaves)
  have hblock : (Block.scope .docString body).error? = none := by
    refine error?_scope haccepted ?_
    rw [refusal?, missing?, hline]
  obtain ⟨doc, hdoc⟩ : ∃ doc, docString? body = some doc :=
    ⟨_, by rw [docString?, hline]; rfl⟩
  refine ⟨doc, Block.makes_iff.mpr ⟨hblock, fun _ => ?_⟩⟩
  exact congrArg (Option.map Child.docString) hdoc

end Body

/-- **What a doc string block with this inside comes to.** -/
structure QuotedWhole (body : Body) : Prop where
  /-- It makes one doc string. -/
  made : ∃! doc, body.Quotes doc
  /-- Place and content type are those of the first delimiter, whatever
  follows it. -/
  opening {doc : DocString} (hdoc : body.Quotes doc) :
    ∃ opening, body.OpensWith opening ∧ doc.location = opening.location ∧
      doc.contentType = opening.text
  /-- There is one line for each line of text, in order, as it stands. -/
  lines {doc : DocString} (hdoc : body.Quotes doc) :
    List.Forall₂ Token.IsQuoted (body.leaves .other) doc.lines
  /-- Where there are such lines and none holds a line feed, the content
  splits into their texts. -/
  content {doc : DocString} (hdoc : body.Quotes doc) (hne : body.texts ≠ [])
    (hfeed : ∀ text ∈ body.texts, '\n' ∉ text.toList) : splitLines doc.content = body.texts
  /-- So two of these have the same content just where their lines have the
  same texts. -/
  told {doc doc' : DocString} {body' : Body} (hdoc : body.Quotes doc) (hdoc' : body'.Quotes doc')
    (hne : body.texts ≠ []) (hne' : body'.texts ≠ [])
    (hfeed : ∀ text ∈ body.texts, '\n' ∉ text.toList)
    (hfeed' : ∀ text ∈ body'.texts, '\n' ∉ text.toList) :
    doc.content = doc'.content ↔ doc.lines.map DocLine.text = doc'.lines.map DocLine.text

/-- **A doc string is kept whole**, whatever stands with its lines in the
block as long as there is a delimiter and nothing inside is refused. -/
theorem quotedWhole_of_accepted {body : Body} (haccepted : body.error? = none)
    (hopened : ∃ opening, .leaf opening ∈ body ∧ opening.kind = .docStringSeparator) :
    QuotedWhole body where
  made := by
    obtain ⟨doc, hdoc⟩ := Body.exists_quotes haccepted hopened
    exact ⟨doc, hdoc, fun doc' hdoc' => Child.docString.inj (hdoc'.unique hdoc)⟩
  opening := by
    intro doc hdoc
    obtain ⟨opening, hopens, rfl⟩ := hdoc.eq
    exact ⟨opening, hopens, rfl, rfl⟩
  lines := by
    intro doc hdoc
    obtain ⟨opening, -, rfl⟩ := hdoc.eq
    exact List.forall₂_map_right_iff.mpr (List.forall₂_same.mpr fun line _ => rfl)
  content := by
    intro doc hdoc hne hfeed
    exact hdoc.splitLines_content hne hfeed
  told := by
    intro doc doc' body' hdoc hdoc' hne hne' hfeed hfeed'
    rw [hdoc.texts_eq, hdoc'.texts_eq]
    constructor
    · intro hsame
      rw [← hdoc.splitLines_content hne hfeed, hsame, hdoc'.splitLines_content hne' hfeed']
    · intro hsame
      rw [DocString.content, DocString.content, hdoc.texts_eq, hdoc'.texts_eq, hsame]

/-- One empty line has the content of none. -/
example : DocString.content { location := ⟨1, 1⟩, contentType := "", lines := [⟨⟨2, 1⟩, ""⟩] } =
    DocString.content { location := ⟨1, 1⟩, contentType := "", lines := [] } := rfl

/-- The inside of a doc string with a line before its first delimiter, a
second delimiter and a rule of its own between the lines, and a blank line
at its end. -/
def scatteredInside : Body :=
  [.leaf { kind := .other, location := ⟨2, 1⟩, text := "1 + 2" },
    .leaf { kind := .docStringSeparator, location := ⟨3, 5⟩, text := "text" },
    .scope (.custom "Aside") [.leaf { kind := .other, location := ⟨4, 1⟩, text := "carrying" }],
    .leaf { kind := .docStringSeparator, location := ⟨5, 3⟩, text := "json" },
    .leaf { kind := .other, location := ⟨6, 1⟩, text := "  3" },
    .leaf { kind := .other, location := ⟨7, 1⟩, text := " \t" }]

/-- The doc string it makes. -/
def scatteredDoc : DocString where
  location := ⟨3, 5⟩
  contentType := "text"
  lines := [⟨⟨2, 1⟩, "1 + 2"⟩, ⟨⟨6, 1⟩, "  3"⟩, ⟨⟨7, 1⟩, " \t"⟩]

/-- All its lines are read off the content again. -/
theorem quotedWhole_scatteredInside :
    scatteredInside.error? = none ∧
      (∃ opening, .leaf opening ∈ scatteredInside ∧ opening.kind = .docStringSeparator) ∧
      scatteredInside.Quotes scatteredDoc ∧
      splitLines scatteredDoc.content = ["1 + 2", "  3", " \t"] := by
  have haccepted : scatteredInside.error? = none := rfl
  have hopened : ∃ opening, .leaf opening ∈ scatteredInside ∧
      opening.kind = .docStringSeparator :=
    ⟨_, List.mem_cons_of_mem _ List.mem_cons_self, rfl⟩
  have hdoc : scatteredInside.Quotes scatteredDoc := Block.makes_iff.mpr ⟨rfl, fun _ => rfl⟩
  have hfeed : ∀ text ∈ scatteredInside.texts, '\n' ∉ text.toList := by decide
  have hwhole := quotedWhole_of_accepted haccepted hopened
  exact ⟨haccepted, hopened, hdoc, hwhole.content hdoc (List.cons_ne_nil _ _) hfeed⟩

end FeatureTree
