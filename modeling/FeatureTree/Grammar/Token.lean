import FeatureTree.Document.Basic
/-!
# Tokens

A token is one line of a document, already classified, with the parts
its kind calls for: keyword and text of a title, the dialect of a feature
line, the spans of a tag line or a table row.
-/

namespace FeatureTree

/-- The kinds of line a grammar tells apart. -/
inductive TokenKind where
  | endOfFile
  | empty
  | comment
  | tagLine
  | featureLine
  | backgroundLine
  | scenarioLine
  | outlineLine
  | examplesLine
  | stepLine
  | docStringSeparator
  | tableRow
  | language
  | other
  deriving DecidableEq

/-- The name of a kind in the grammar. -/
def TokenKind.name : TokenKind → String
  | .endOfFile => "EOF"
  | .empty => "Empty"
  | .comment => "Comment"
  | .tagLine => "TagLine"
  | .featureLine => "FeatureLine"
  | .backgroundLine => "BackgroundLine"
  | .scenarioLine => "ScenarioLine"
  | .outlineLine => "ScenarioOutlineLine"
  | .examplesLine => "ExamplesLine"
  | .stepLine => "StepLine"
  | .docStringSeparator => "DocStringSeparator"
  | .tableRow => "TableRow"
  | .language => "Language"
  | .other => "Other"

/-- A piece of a line, such as one tag or one cell, and the column it
starts at. -/
structure Span where
  column : Nat
  text : String
  deriving DecidableEq

/-- One classified line; what its kind does not call for is left empty. -/
structure Token where
  kind : TokenKind
  location : Location
  keyword : String := ""
  text : String := ""
  language : Option String := none
  spans : List Span := []
  deriving DecidableEq

namespace Token

/-- The token with this keyword. -/
def setKeyword (t : Token) (keyword : String) : Token := { t with keyword }

/-- The token with this text. -/
def setText (t : Token) (text : String) : Token := { t with text }

/-- The token with this dialect. -/
def setLanguage (t : Token) (language : String) : Token := { t with language := some language }

/-- The token with these spans. -/
def setSpans (t : Token) (spans : List Span) : Token := { t with spans }

/-- A span is on its token's line, at its own column. -/
def locate (t : Token) (s : Span) : Location :=
  t.location.atColumn s.column

/-- One tag for each span of a tag line. -/
def tags (t : Token) : List Tag :=
  t.spans.map fun s => { location := t.locate s, name := s.text }

/-- The row of a table line, one cell for each span. -/
def row (t : Token) : TableRow :=
  { location := t.location
    cells := t.spans.map fun s => { location := t.locate s, value := s.text } }

/-- A line of a doc string: the text as it stands. -/
def docLine (t : Token) : DocLine :=
  { location := t.location, text := t.text }

/-- The part that a title line opens, with the description below it. -/
def titled (t : Token) (description : String) : Section :=
  { location := t.location, keyword := t.keyword, name := t.text, description }

end Token

end FeatureTree
