/-!
# Lines of text

A text of several lines is held as the list of its lines and written with
a line feed between each and the next. `dropTrailing` cuts a list behind
its last item that fails a test; descriptions cut their blank lines with
it, settings their white space.
-/

namespace FeatureTree

variable {α : Type _}

/-- The items of a list up to the last that fails `p`: what is dropped is
the longest ending whose items all pass. -/
def dropTrailing (p : α → Bool) (items : List α) : List α :=
  (items.reverse.dropWhile p).reverse

/-- Nothing is left of no items. -/
@[simp] theorem dropTrailing_nil (p : α → Bool) : dropTrailing p [] = [] := rfl

/-- An ending that fails keeps everything before it. -/
theorem dropTrailing_append_of_neg {p : α → Bool} {x : α} (items : List α) (h : p x = false) :
    dropTrailing p (items ++ [x]) = items ++ [x] := by
  simp [dropTrailing, h]

/-- The lines with a line feed between each and the next. -/
def joinLines (lines : List String) : String :=
  String.intercalate "\n" lines

end FeatureTree
