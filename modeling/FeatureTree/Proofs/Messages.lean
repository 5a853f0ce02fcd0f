import Mathlib
import FeatureTree.Assembly.Error
/-!
# What messages tell

Whoever is handed the words of an error and not the error itself still
learns whether the document is at fault, and where (`messagesTell`). A
rule may have any name, and names stand in messages as they are, so two
breaches of contract can be in the same words. But the first letter of a
message is not up to a name and tells the class of the error
(`AssemblyError.head?_message`), and the words for a table begin with a
place, whose two numbers are kept apart by a colon
(`Location.text_injective`).
-/

namespace FeatureTree

/-! ## Places -/

/-- There is no colon in a number. -/
theorem colon_notMem_toString (n : Nat) : ':' ∉ (toString n).toList := by
  intro hcolon
  rw [Nat.toString_eq_repr, Nat.toList_repr] at hcolon
  have hdigit : ':'.isDigit = true := Nat.isDigit_of_mem_toDigits (by decide) (by decide) hcolon
  cases hdigit

/-- **The text of a place is that of no other.** -/
theorem Location.text_injective : Function.Injective Location.text := by
  intro l l' h
  have hopened : "(" ++ (toString l.line ++ ":" ++ toString l.column) =
      "(" ++ (toString l'.line ++ ":" ++ toString l'.column) := by
    rw [← String.append_assoc, ← String.append_assoc, ← String.append_assoc,
      ← String.append_assoc]
    exact (String.append_left_inj ")").mp h
  have hnumbers : (toString l.line).toList ++ ':' :: (toString l.column).toList =
      (toString l'.line).toList ++ ':' :: (toString l'.column).toList := by
    have hchars := congrArg String.toList ((String.append_right_inj "(").mp hopened)
    simpa using hchars
  obtain ⟨hline, -, hcolumn⟩ := (List.append_cons_inj_of_notMem (colon_notMem_toString l.line)
    (colon_notMem_toString l.column)).mp hnumbers
  have hlines : l.line = l'.line := Nat.repr_injective (String.toList_inj.mp hline)
  have hcolumns : l.column = l'.column := Nat.repr_injective (String.toList_inj.mp hcolumn)
  cases l
  cases l'
  exact congrArg₂ Location.mk hlines hcolumns

/-! ## Messages -/

namespace AssemblyError

variable {e e' : AssemblyError} {location : Location}

/-- **The first letter of a message tells the class of the error**,
whatever names follow it. -/
theorem head?_message (e : AssemblyError) :
    e.message.toList.head? = some (if e.isStructural then '(' else 'i') := by
  cases e with
  | unevenTable location =>
    have hwords : (unevenTable location).message = "(" ++ toString location.line ++ ":" ++
        toString location.column ++ ")" ++ ": inconsistent cell count within the table" := rfl
    simp only [hwords, String.toList_append]
    rfl
  | contract violation =>
    have hwords : (contract violation).message =
        "internal grammar error: " ++ violation.message := rfl
    rw [hwords, String.toList_append]
    rfl

theorem isStructural_eq_of_message_eq (h : e.message = e'.message) :
    e.isStructural = e'.isStructural := by
  have hletters : ∀ b b' : Bool,
      (if b then '(' else 'i') = (if b' then '(' else 'i') → b = b' := by decide
  have hfirst := e.head?_message
  rw [h, head?_message] at hfirst
  exact (hletters _ _ (Option.some.inj hfirst)).symm

/-- **Only an uneven table reads like one**, and only one at the same
place. -/
theorem eq_of_message_eq_unevenTable (h : e.message = (unevenTable location).message) :
    e = unevenTable location := by
  cases e with
  | unevenTable location' =>
    have htexts : location'.text = location.text := (String.append_left_inj _).mp h
    rw [Location.text_injective htexts]
  | contract violation => cases isStructural_eq_of_message_eq h

theorem location?_eq_of_message_eq (h : e.message = e'.message) : e.location? = e'.location? := by
  have hclass := isStructural_eq_of_message_eq h
  cases e' with
  | unevenTable location => rw [eq_of_message_eq_unevenTable h]
  | contract violation =>
    cases e with
    | unevenTable location => cases hclass
    | contract violation' => rfl

end AssemblyError

/-- **What the words of an error tell.** -/
structure MessagesTell : Prop where
  /-- Errors in the same words are of the same class and at the same place,
  or both at none. -/
  same {e e' : AssemblyError} (h : e.message = e'.message) :
    e.isStructural = e'.isStructural ∧ e.location? = e'.location?
  /-- Uneven tables in the same words are at the same line and column. -/
  place {location location' : Location}
    (h : (AssemblyError.unevenTable location).message =
      (AssemblyError.unevenTable location').message) :
    location.line = location'.line ∧ location.column = location'.column
  /-- A place is read off its text. -/
  text : Function.Injective Location.text
  /-- No breach of contract is in the words of an uneven table, whatever
  the names of its rules. -/
  apart (violation : Violation) (location : Location) :
    (AssemblyError.contract violation).message ≠ (AssemblyError.unevenTable location).message

/-- **The words of an error tell its class and its place.** -/
theorem messagesTell : MessagesTell where
  same h :=
    ⟨AssemblyError.isStructural_eq_of_message_eq h, AssemblyError.location?_eq_of_message_eq h⟩
  place := by
    intro location location' h
    obtain rfl := AssemblyError.unevenTable.inj (AssemblyError.eq_of_message_eq_unevenTable h)
    exact ⟨rfl, rfl⟩
  text := Location.text_injective
  apart := by
    intro violation location h
    cases AssemblyError.eq_of_message_eq_unevenTable h

/-- They do not tell which breach of contract it was: a custom rule can be
named like the steps. -/
example : (AssemblyError.contract (.missingToken (.custom "Step") .stepLine)).message =
    (AssemblyError.contract (.missingToken .step .stepLine)).message := rfl

end FeatureTree
