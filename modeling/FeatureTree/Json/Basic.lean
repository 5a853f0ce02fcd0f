/-!
# JSON values and their written form

The part of JSON that a document needs: natural numbers, strings, arrays
and objects whose members keep their order. `Json.text` writes a value
without any space, which leaves one spelling for each value.
-/

namespace FeatureTree

/-- A JSON value; an object lists its members in the order they are
written. -/
inductive Json where
  | number (value : Nat)
  | string (value : String)
  | array (items : List Json)
  | object (members : List (String × Json))

namespace Json

/-- A character as it stands in a string: a quote, a backslash and the
characters below the space are escaped, five of them by a letter and the
others by their number in two hexadecimal digits; all else stands for
itself. -/
def escapeChar (c : Char) : List Char :=
  if c == '"' then ['\\', '"']
  else if c == '\\' then ['\\', '\\']
  else if c == '\x08' then ['\\', 'b']
  else if c == '\x0c' then ['\\', 'f']
  else if c == '\n' then ['\\', 'n']
  else if c == '\r' then ['\\', 'r']
  else if c == '\t' then ['\\', 't']
  else if c.toNat < 0x20 then
    ['\\', 'u', '0', '0', Nat.digitChar (c.toNat / 16), Nat.digitChar (c.toNat % 16)]
  else [c]

/-- A string between quotes. -/
def quote (s : String) : List Char :=
  '"' :: (s.toList.flatMap escapeChar ++ ['"'])

mutual

/-- The characters of a value, written without any space. -/
def chars : Json → List Char
  | .number n => Nat.toDigits 10 n
  | .string s => quote s
  | .array items => '[' :: (List.intercalate [','] (itemChars items) ++ [']'])
  | .object members => '{' :: (List.intercalate [','] (memberChars members) ++ ['}'])

/-- The characters of each item of an array. -/
def itemChars : List Json → List (List Char)
  | [] => []
  | item :: rest => item.chars :: itemChars rest

/-- The characters of each member of an object: its name, a colon and its
value. -/
def memberChars : List (String × Json) → List (List Char)
  | [] => []
  | (name, value) :: rest => (quote name ++ ':' :: value.chars) :: memberChars rest

end

/-- The written form of a value. -/
def text (j : Json) : String :=
  String.ofList j.chars

end Json

end FeatureTree
