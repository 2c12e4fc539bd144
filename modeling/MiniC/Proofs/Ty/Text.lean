import MiniC.Check.Expr
import Mathlib.Tactic.Common

/-!
# The text of a type determines the type

The text of a type can be read in one pass from the left. The reader keeps the type that ends where
it stands, and for every parenthesis that is still open the result in front of it and the parameters
already complete. A text is read as the type it was made from (`ofText?_text`). So different types
have different texts, and a mismatch between two types shows two different texts.
-/

namespace MiniC.Ty

/-- Where the reader of a text stands. -/
structure Reading where
  /-- The type that ends here. -/
  current : Option Ty
  /-- The result and the complete parameters of each open parenthesis, the innermost first. -/
  opened : List (Ty × List Ty)

namespace Reading

/-- A word is known by its first letter. The letters after it and the blanks change nothing. -/
def step : Reading → Char → Reading
  | ⟨none, opened⟩, 'i' => ⟨some .int, opened⟩
  | ⟨none, opened⟩, 's' => ⟨some .signed, opened⟩
  | ⟨none, opened⟩, 'v' => ⟨some .void, opened⟩
  | ⟨some result, opened⟩, '(' => ⟨none, (result, []) :: opened⟩
  | ⟨some param, (result, params) :: opened⟩, ',' => ⟨none, (result, params ++ [param]) :: opened⟩
  | ⟨last, (result, params) :: opened⟩, ')' => ⟨some (.func result (params ++ last.toList)), opened⟩
  | reading, _ => reading

/-- The reader behind a text. -/
def after (reading : Reading) (text : String) : Reading :=
  text.toList.foldl step reading

@[simp]
lemma after_append (reading : Reading) (first second : String) :
    reading.after (first ++ second) = (reading.after first).after second := by
  simp only [after, String.toList_append, List.foldl_append]

@[simp]
lemma after_empty (reading : Reading) : reading.after "" = reading := rfl

lemma after_open (result : Ty) (opened : List (Ty × List Ty)) :
    Reading.after ⟨some result, opened⟩ " (" = ⟨none, (result, []) :: opened⟩ := by
  cases opened <;> rfl

lemma after_comma (param result : Ty) (params : List Ty) (opened : List (Ty × List Ty)) :
    Reading.after ⟨some param, (result, params) :: opened⟩ ", " =
      ⟨none, (result, params ++ [param]) :: opened⟩ := rfl

lemma after_close (last : Option Ty) (result : Ty) (params : List Ty)
    (opened : List (Ty × List Ty)) : Reading.after ⟨last, (result, params) :: opened⟩ ")" =
      ⟨some (.func result (params ++ last.toList)), opened⟩ := by
  cases last <;> rfl

end Reading

open Reading

mutual

/-- The text of a type is read as the type, inside whatever is open. -/
theorem after_text : ∀ (t : Ty) (opened : List (Ty × List Ty)),
    Reading.after ⟨none, opened⟩ t.text = ⟨some t, opened⟩
  | .int, opened => by cases opened <;> rfl
  | .signed, opened => by cases opened <;> rfl
  | .void, opened => by cases opened <;> rfl
  | .func result params, opened => by
    rw [text, after_append, after_append, after_append, after_text result opened, after_open]
    exact after_listText params result [] opened

/-- Parameters up to the parenthesis that closes them complete a function type. -/
theorem after_listText : ∀ (params : List Ty) (result : Ty) (complete : List Ty)
    (opened : List (Ty × List Ty)),
    (Reading.after ⟨none, (result, complete) :: opened⟩ (listText params)).after ")" =
      ⟨some (.func result (complete ++ params)), opened⟩
  | [], result, complete, opened => after_close none result complete opened
  | [param], result, complete, opened => by
    rw [listText, after_text param]
    exact after_close (some param) result complete opened
  | param :: next :: rest, result, complete, opened => by
    rw [listText, after_append, after_append, after_text param, after_comma,
      after_listText (next :: rest) result (complete ++ [param]) opened, List.append_assoc]
    rfl

end

/-- The type that a text is read as. -/
def ofText? (text : String) : Option Ty :=
  (Reading.after ⟨none, []⟩ text).current

lemma ofText?_text (t : Ty) : ofText? t.text = some t := by
  rw [ofText?, after_text]

example : ofText? "int () (int, void (signed))" =
    some (.func (.func .int []) [.int, .func .void [.signed]]) := by decide +kernel

lemma text_injective : Function.Injective text := by
  intro a b same
  have read := congrArg ofText? same
  rw [ofText?_text, ofText?_text] at read
  exact Option.some.inj read

/-- Two types count as equal exactly when they are the same tree, and exactly when their texts are
the same. So a comparison passes, or it ends in a mismatch at the given place that shows two
different texts. -/
theorem same_iff_text_eq (a b : Ty) :
    (same a b = true ↔ a = b) ∧ (same a b = true ↔ a.text = b.text) ∧
      ∀ place, (same a b = true ∧ expectType a b place = .ok ()) ∨
        (same a b = false ∧ a.text ≠ b.text ∧
          expectType a b place = .error (.mismatch a.text b.text place)) := by
  have texts : same a b = true ↔ a.text = b.text := by
    rw [same_iff, text_injective.eq_iff]
  refine ⟨same_iff a b, texts, fun place => ?_⟩
  by_cases equal : same a b = true
  · left
    exact ⟨equal, if_pos ((same_iff a b).mp equal)⟩
  · right
    have different : a ≠ b := fun h => equal ((same_iff a b).mpr h)
    exact ⟨Bool.eq_false_iff.mpr equal, fun h => equal (texts.mpr h), if_neg different⟩

end MiniC.Ty
