import FeatureTree.Text.Lines
/-!
# White space

The characters with the Unicode property `White_Space`, and a text
without those at its two ends.
-/

namespace FeatureTree

/-- The code points with the property `White_Space`, as closed ranges in
ascending order. -/
def whiteSpaceRanges : List (Nat × Nat) :=
  [(0x0009, 0x000D), (0x0020, 0x0020), (0x0085, 0x0085), (0x00A0, 0x00A0),
   (0x1680, 0x1680), (0x2000, 0x200A), (0x2028, 0x2029), (0x202F, 0x202F),
   (0x205F, 0x205F), (0x3000, 0x3000)]

/-- Whether a character has the property `White_Space`. -/
def isWhiteSpace (c : Char) : Bool :=
  whiteSpaceRanges.any fun range => range.1 ≤ c.toNat && c.toNat ≤ range.2

/-- A text without the white space at its two ends; what stands between
is kept as it is. -/
def trim (text : String) : String :=
  String.ofList (dropTrailing isWhiteSpace (text.toList.dropWhile isWhiteSpace))

end FeatureTree
