import FeatureTree.Text.Lines
/-!
# Blank lines

A line is blank when it holds nothing but the six ASCII characters that
leave no mark. The wider Unicode class is not meant here: a line that
holds a no-break space has content.
-/

namespace FeatureTree

/-- The ASCII characters that leave no mark: space, tab, line feed,
vertical tab, form feed and carriage return. -/
def isBlankChar (c : Char) : Bool :=
  c == ' ' || c == '\t' || c == '\n' || c == '\x0b' || c == '\x0c' || c == '\r'

/-- A text is blank when all its characters are, the empty text among
them. -/
def isBlank (text : String) : Bool :=
  text.toList.all isBlankChar

/-- A description is its lines as written, without the blank ones at its
end; indentation and blank lines further up stay. -/
def describe (lines : List String) : String :=
  joinLines (dropTrailing isBlank lines)

end FeatureTree
