import MiniC.Text.Blank
import Mathlib.Tactic.Common

/-!
# Words and the texts made of them

The words of a text are not empty and hold no blank, and words joined by single spaces are the words
of the joined text.
-/

namespace MiniC.Text

/-- A text that is one word: it is not empty and holds no blank. -/
def IsWord (text : String) : Prop :=
  text ≠ "" ∧ ∀ c ∈ text.toList, isBlank c = false

instance (text : String) : Decidable (IsWord text) :=
  decidable_of_iff (text ≠ "" ∧ text.toList.all (!isBlank ·)) (by simp [IsWord])

lemma isWord_ofList_reverse {word : List Char} (plain : ∀ c ∈ word, isBlank c = false)
    (present : word ≠ []) : IsWord (String.ofList word.reverse) := by
  refine ⟨?_, ?_⟩
  · intro empty
    have := congrArg String.toList empty
    simp_all
  · simpa using plain

/-- The current word has no blank, so that every word that is found is one. -/
lemma isWord_of_mem_splitWords {word : List Char} (plain : ∀ c ∈ word, isBlank c = false)
    (text : List Char) : ∀ found ∈ splitWords word text, IsWord found := by
  induction text generalizing word with
  | nil =>
    rw [splitWords]
    split
    · simp
    · next present =>
      simpa using isWord_ofList_reverse plain (by simpa using present)
  | cons c rest ih =>
    have others : ∀ found ∈ splitWords [] rest, IsWord found := ih (by simp)
    rw [splitWords]
    split
    · split
      · exact others
      · next present =>
        have first := isWord_ofList_reverse plain (by simpa using present)
        exact List.forall_mem_cons.mpr ⟨first, others⟩
    · next visible =>
      exact ih (List.forall_mem_cons.mpr ⟨by simpa using visible, plain⟩)

lemma isWord_of_mem_words {text found : String} (member : found ∈ words text) : IsWord found :=
  isWord_of_mem_splitWords (by simp) text.toList found member

lemma splitWords_append {cs : List Char} (plain : ∀ c ∈ cs, isBlank c = false)
    (word rest : List Char) :
    splitWords word (cs ++ rest) = splitWords (cs.reverse ++ word) rest := by
  induction cs generalizing word with
  | nil => rfl
  | cons c cs ih =>
    have visible : isBlank c = false := plain c (.head _)
    have others := ih (fun d member => plain d (.tail _ member)) (c :: word)
    simpa [splitWords, visible] using others

lemma splitWords_space {word : List Char} (present : word ≠ []) (rest : List Char) :
    splitWords word (' ' :: rest) = String.ofList word.reverse :: splitWords [] rest := by
  have blank : isBlank ' ' = true := by decide
  simp [splitWords, blank, present]

/-- The words of joined words. -/
lemma words_intercalate {parts : List String} (plain : ∀ part ∈ parts, IsWord part) :
    words (" ".intercalate parts) = parts := by
  induction parts with
  | nil => rfl
  | cons part rest ih =>
    have whole := plain part (.head _)
    have others := ih fun p member => plain p (.tail _ member)
    have visible : part.toList.reverse ++ [] ≠ [] := by simpa using whole.1
    cases rest with
    | nil =>
      have split := splitWords_append whole.2 [] []
      rw [List.append_nil] at split
      rw [String.intercalate_singleton, words, split, splitWords]
      simp [whole.1]
    | cons next rest =>
      rw [String.intercalate_cons_cons, words, String.toList_append, String.toList_append,
        List.append_assoc, splitWords_append whole.2]
      have space : " ".toList ++ (" ".intercalate (next :: rest)).toList =
        ' ' :: (" ".intercalate (next :: rest)).toList := rfl
      rw [space, splitWords_space visible]
      simpa [words] using others

end MiniC.Text
