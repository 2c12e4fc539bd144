import MiniC.Json.Quoted
import Mathlib.Data.List.Basic

/-!
# Strings are read back

`Quoted.Escapes` says how one character is written: seven have a letter of their own, the other
controls are four hexadecimal digits in lower case, and all else stands for itself. Each form is
read as one piece, so a written string is read as its characters, whatever they are.
-/

namespace MiniC.Quoted

/-- The characters that are written with a backslash and a letter. -/
def letters : List (Char × Char) :=
  [('"', '"'), ('\\', '\\'), ('\x08', 'b'), ('\t', 't'), ('\n', 'n'), ('\x0c', 'f'), ('\r', 'r')]

/-- Digits to base sixteen, in lower case. -/
def hexDigits : List Char :=
  ['0', '1', '2', '3', '4', '5', '6', '7', '8', '9', 'a', 'b', 'c', 'd', 'e', 'f']

/-- How a character is written between quotes. -/
inductive Escapes : Char → List Char → Prop
  | letter {c letter : Char} (named : (c, letter) ∈ letters) : Escapes c ['\\', letter]
  | control {c high low : Char} (small : c.toNat < 0x20) (unnamed : ∀ x, (c, x) ∉ letters)
      (first : hexDigits[c.toNat / 16]? = some high)
      (second : hexDigits[c.toNat % 16]? = some low) :
      Escapes c ['\\', 'u', '0', '0', high, low]
  | plain {c : Char} (large : 0x20 ≤ c.toNat) (quote : c ≠ '"') (backslash : c ≠ '\\') :
      Escapes c [c]

lemma hexDigits_getElem? {n : Nat} (small : n < 16) : hexDigits[n]? = some (hexDigit n) := by
  revert n
  decide

lemma hexValue?_of_hexDigits {n : Nat} {c : Char} (h : hexDigits[n]? = some c) :
    hexValue? c = some n := by
  have small : n < 16 := (List.getElem?_eq_some_iff.mp h).1
  rw [hexDigits_getElem? small, Option.some_inj] at h
  subst h
  revert n
  decide

lemma escaped?_of_mem_letters {c letter : Char} (h : (c, letter) ∈ letters) :
    escaped? letter = some c ∧ letter ≠ 'u' := by
  have all : ∀ entry ∈ letters, escaped? entry.2 = some entry.1 ∧ entry.2 ≠ 'u' := by decide
  exact all _ h

lemma escapes_escape (c : Char) : Escapes c (escape c) := by
  unfold escape
  split_ifs with quote backslash backspace tab line form carriage small
  · exact .letter (by simp [letters, quote])
  · exact .letter (by simp [letters, backslash])
  · exact .letter (by simp [letters, backspace])
  · exact .letter (by simp [letters, tab])
  · exact .letter (by simp [letters, line])
  · exact .letter (by simp [letters, form])
  · exact .letter (by simp [letters, carriage])
  · refine .control small ?_ (hexDigits_getElem? (by omega)) (hexDigits_getElem? (by omega))
    simp [letters, quote, backslash, backspace, tab, line, form, carriage]
  · exact .plain (by omega) quote backslash

/-- Pieces that stand for one character by itself. -/
def Piece.IsOf (c : Char) (piece : Piece) : Prop :=
  piece = .char c ∨ piece = .unit c.toNat ∧ c.toNat < 0x20

lemma Escapes.readPieces {c : Char} {written : List Char} (h : Escapes c written) :
    ∃ piece : Piece, piece.IsOf c ∧ ∀ done rest,
      Quoted.readPieces done (written ++ rest) = Quoted.readPieces (piece :: done) rest := by
  cases h with
  | letter named =>
    refine ⟨.char c, .inl rfl, fun done rest => ?_⟩
    obtain ⟨escaped, single⟩ := escaped?_of_mem_letters named
    rw [List.cons_append, List.singleton_append, Quoted.readPieces]
    · simp [escaped]
    · intro a b d e rest' same
      exact absurd same single
  | control small unnamed first second =>
    refine ⟨.unit c.toNat, .inr ⟨rfl, small⟩, fun done rest => ?_⟩
    have zero : hexValue? '0' = some 0 := rfl
    have value : c.toNat / 16 * 16 + c.toNat % 16 = c.toNat := by omega
    simp [Quoted.readPieces, unit?, zero, hexValue?_of_hexDigits first,
      hexValue?_of_hexDigits second, value]
  | plain large quote backslash =>
    refine ⟨.char c, .inl rfl, fun done rest => ?_⟩
    have printable : ¬ c.toNat < 0x20 := by omega
    rw [List.singleton_append, Quoted.readPieces]
    · simp [backslash, printable]
    · exact quote
    · intro a b d e rest' same
      exact absurd same backslash
    · intro letter rest' same
      exact absurd same backslash

/-- The pieces of a written string are those of its characters. -/
lemma readPieces_write (chars : List Char) (done : List Piece) (rest : List Char) :
    ∃ pieces, List.Forall₂ Piece.IsOf chars pieces ∧
      readPieces done (chars.flatMap escape ++ '"' :: rest) =
        some (done.reverse ++ pieces, rest) := by
  induction chars generalizing done with
  | nil => exact ⟨[], .nil, by simp [readPieces]⟩
  | cons c chars ih =>
    obtain ⟨piece, here, step⟩ := (escapes_escape c).readPieces
    obtain ⟨pieces, others, read⟩ := ih (piece :: done)
    refine ⟨piece :: pieces, .cons here others, ?_⟩
    rw [List.flatMap_cons, List.append_assoc, step, read]
    simp

/-- A unit that is no surrogate is a character. -/
lemma characters?_unit {u : Nat} (small : u < 0x20) (rest : List Piece) :
    characters? (.unit u :: rest) = (characters? rest).map (Char.ofNat u :: ·) := by
  have notHigh : isHigh u = false := by simp [isHigh]; omega
  have notLow : isLow u = false := by simp [isLow]; omega
  cases rest with
  | nil => simp [characters?, notHigh, notLow]
  | cons next rest => cases next <;> simp [characters?, notHigh, notLow]

lemma characters?_eq {chars : List Char} {pieces : List Piece}
    (h : List.Forall₂ Piece.IsOf chars pieces) : characters? pieces = some chars := by
  induction h with
  | nil => rfl
  | cons here others ih =>
    rcases here with rfl | ⟨rfl, small⟩
    · rw [characters?, ih]
      rfl
    · rw [characters?_unit small, ih, Char.ofNat_toNat]
      rfl

/-- A written string is read back, whatever follows it. -/
theorem read_write (text : String) (rest : List Char) :
    read (text.toList.flatMap escape ++ '"' :: rest) = some (text, rest) := by
  obtain ⟨pieces, each, run⟩ := readPieces_write text.toList [] rest
  simp [read, run, characters?_eq each]

end MiniC.Quoted
