/-!
# Lower case

Words are compared with their spelling in ASCII letters after lowering
their case. Only two characters outside ASCII have a lower case that
holds an ASCII letter, and only such characters could make a word look
like an ASCII one; all others are left as they stand.
-/

namespace FeatureTree

/-- The lower case of a character, as far as ASCII letters are concerned:
the capital I with a dot becomes an `i` with a combining dot, the Kelvin
sign becomes a `k`, and an ASCII capital becomes its small letter. -/
def lowerChar (c : Char) : List Char :=
  if c == '\u0130' then ['i', '\u0307']
  else if c == '\u212A' then ['k']
  else [c.toLower]

/-- A text with each character in lower case. -/
def lower (text : String) : String :=
  String.ofList (text.toList.flatMap lowerChar)

end FeatureTree
