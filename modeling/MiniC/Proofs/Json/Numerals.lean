import MiniC.Json.Numeral
import MiniC.Proofs.Text.Decimal

/-!
# Whole numbers are read back

The decimal text of a whole number of 64 bits, with a sign or without, is read as that number, as
long as what follows cannot belong to a numeral.
-/

namespace MiniC.Numeral

/-- What may follow within a numeral. -/
def continues (c : Char) : Bool :=
  Decimal.isDigit c || c = '.' || c = 'e' || c = 'E'

/-- A text that does not go on with a numeral. -/
def Ends (rest : List Char) : Prop :=
  ∀ c, rest.head? = some c → continues c = false

lemma ends_nil : Ends [] := fun _ h => by cases h

lemma ends_cons {c : Char} {rest : List Char} : Ends (c :: rest) ↔ continues c = false := by
  simp [Ends]

lemma readDigits_append {digits rest : List Char} (some : digits ≠ [])
    (all : ∀ c ∈ digits, Decimal.isDigit c = true) (ends : Ends rest) :
    readDigits (digits ++ rest) = .some (digits, rest) := by
  have stop : rest.takeWhile Decimal.isDigit = [] ∧ rest.dropWhile Decimal.isDigit = rest := by
    cases rest with
    | nil => exact ⟨rfl, rfl⟩
    | cons c rest =>
      have other : Decimal.isDigit c = false := by
        have ends := ends_cons.mp ends
        simp only [continues, Bool.or_eq_false_iff] at ends
        exact ends.1.1.1
      simp [other]
  rw [readDigits, List.takeWhile_append_of_pos all, List.dropWhile_append_of_pos all, stop.1,
    stop.2]
  simp [some]

lemma readFraction_of_ends {rest : List Char} (ends : Ends rest) :
    readFraction rest = some ([], rest) := by
  rw [readFraction]
  rintro rest' rfl
  exact absurd (ends_cons.mp ends) (by decide)

lemma readExponent_of_ends {rest : List Char} (ends : Ends rest) :
    readExponent rest = some (none, rest) := by
  rw [readExponent]
  · rintro rest' rfl
    exact absurd (ends_cons.mp ends) (by decide)
  · rintro rest' rfl
    exact absurd (ends_cons.mp ends) (by decide)

lemma readUnsigned_toDigits (negative : Bool) (n : Nat) {rest : List Char} (ends : Ends rest) :
    readUnsigned negative (Nat.toDigits 10 n ++ rest) =
      some (⟨negative, Nat.toDigits 10 n, [], none⟩, rest) := by
  have digits : readDigits (Nat.toDigits 10 n ++ rest) = some (Nat.toDigits 10 n, rest) :=
    readDigits_append Nat.toDigits_ne_nil (fun c => Decimal.isDigit_of_mem_toDigits) ends
  have whole : readWhole (Nat.toDigits 10 n ++ rest) = some (Nat.toDigits 10 n, rest) := by
    rw [readWhole, digits]
    split
    · next zeros =>
      injection zeros with zeros
      injection zeros with zeros
      cases Decimal.toDigits_of_zero_cons zeros
    · rfl
  simp [readUnsigned, whole, readFraction_of_ends ends, readExponent_of_ends ends]

/-- A numeral without a fraction and an exponent that fits 64 bits is a whole number. -/
lemma toNumber?_toDigits {n : Nat} (small : n < 0x10000000000000000) :
    toNumber? ⟨false, Nat.toDigits 10 n, [], none⟩ = some (.int n) := by
  simp [toNumber?, Decimal.value_toDigits, UInt64.size, small]

lemma toNumber?_negative {n : Nat} (positive : 0 < n) (small : n ≤ 0x8000000000000000) :
    toNumber? ⟨true, Nat.toDigits 10 n, [], none⟩ = some (.int (-n)) := by
  simp [toNumber?, Decimal.value_toDigits, UInt64.size, positive, small]

lemma toList_ofInt_negSucc (n : Nat) :
    (Decimal.ofInt (.negSucc n)).toList = '-' :: Nat.toDigits 10 (n + 1) := by
  simp [Decimal.ofInt, Decimal.ofNat]

lemma toList_ofInt_ofNat (n : Nat) : (Decimal.ofInt (.ofNat n)).toList = Nat.toDigits 10 n := by
  simp [Decimal.ofInt, Decimal.ofNat]

/-- The text of a whole number starts with a digit or a minus sign. -/
lemma ofInt_starts (n : Int) :
    ∃ c cs, (Decimal.ofInt n).toList = c :: cs ∧ (c = '-' ∨ Decimal.isDigit c = true) := by
  cases n with
  | ofNat n =>
    obtain ⟨c, cs, digits, digit⟩ := Decimal.toDigits_eq_cons n
    exact ⟨c, cs, (toList_ofInt_ofNat n).trans digits, .inr digit⟩
  | negSucc n => exact ⟨'-', _, toList_ofInt_negSucc n, .inl rfl⟩

/-- A whole number of 64 bits is read back. -/
theorem read_int {n : Int} (lower : -0x8000000000000000 ≤ n) (upper : n < 0x10000000000000000)
    {rest : List Char} (ends : Ends rest) :
    ∃ numeral, read ((Decimal.ofInt n).toList ++ rest) = some (numeral, rest) ∧
      numeral.toNumber? = some (.int n) := by
  cases n with
  | ofNat n =>
    have small : (n : Int) < 0x10000000000000000 := upper
    refine ⟨⟨false, Nat.toDigits 10 n, [], none⟩, ?_, toNumber?_toDigits (by omega)⟩
    rw [toList_ofInt_ofNat, ← readUnsigned_toDigits false n ends, read]
    -- No digit is a minus sign.
    intro rest' signed
    obtain ⟨c, cs, digits, digit⟩ := Decimal.toDigits_eq_cons n
    rw [digits, List.cons_append] at signed
    rw [(List.cons.inj signed).1] at digit
    exact absurd digit (by decide)
  | negSucc n =>
    refine ⟨⟨true, Nat.toDigits 10 (n + 1), [], none⟩, ?_, ?_⟩
    · rw [toList_ofInt_negSucc, List.cons_append, read, readUnsigned_toDigits true _ ends]
    · exact toNumber?_negative (Nat.succ_pos n) (by omega)

end MiniC.Numeral
