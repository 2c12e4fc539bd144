import MiniC.Decimal
import Mathlib.Data.Nat.Digits.Defs

/-!
# Decimal digits of a number

The digits that a number is written with: they are digits, they stand for the number, and the first
one is zero only where it is the only one.
-/

namespace MiniC.Decimal

lemma isDigit_of_mem_toDigits {n : Nat} {c : Char} (member : c ∈ Nat.toDigits 10 n) :
    isDigit c = true := by
  have digit := Nat.isDigit_of_mem_toDigits (by decide) (by decide) member
  simpa [Char.isDigit, isDigit, Char.le_def] using digit

lemma toDigits_eq_cons (n : Nat) :
    ∃ c cs, Nat.toDigits 10 n = c :: cs ∧ isDigit c = true := by
  obtain ⟨c, cs, digits⟩ := List.exists_cons_of_ne_nil (Nat.toDigits_ne_nil (n := n) (b := 10))
  exact ⟨c, cs, digits, isDigit_of_mem_toDigits (digits ▸ List.mem_cons_self ..)⟩

lemma value_toDigits (n : Nat) : value (Nat.toDigits 10 n) = n := by
  have back : Nat.ofDigitChars 10 (Nat.toDigits 10 n) 0 = n := Nat.ofDigitChars_ten_toDigits
  rw [Nat.ofDigitChars_eq_foldl] at back
  simpa only [value, digitValue, Nat.mul_comm] using back

/-- The text of a number is read as that number. -/
lemma toNat?_ofNat (n : Nat) : toNat? (ofNat n) = some n := by
  have digits : (Nat.toDigits 10 n).all isDigit = true :=
    List.all_eq_true.mpr fun _ => isDigit_of_mem_toDigits
  simp [toNat?, ofNat, digits, value_toDigits, Nat.toDigits_ne_nil]

lemma digitChar_ne_zero {d : Nat} (positive : 0 < d) (small : d < 10) : d.digitChar ≠ '0' := by
  have all : ∀ d < 10, 0 < d → d.digitChar ≠ '0' := by decide
  exact all d small positive

/-- There are no leading zeros. -/
lemma head?_toDigits {n : Nat} (positive : 0 < n) : (Nat.toDigits 10 n).head? ≠ some '0' := by
  induction n using Nat.strongRecOn with
  | ind n ih =>
    by_cases small : n < 10
    · rw [Nat.toDigits_of_lt_base small]
      simpa using digitChar_ne_zero positive small
    · have earlier := ih (n / 10) (by omega) (by omega)
      rw [Nat.toDigits_of_base_le (by decide) (by omega), List.head?_append]
      cases first : (Nat.toDigits 10 (n / 10)).head? with
      | none => exact absurd (List.head?_eq_none_iff.mp first) Nat.toDigits_ne_nil
      | some c => rwa [first] at earlier

lemma toDigits_of_zero_cons {n : Nat} {rest : List Char} (h : Nat.toDigits 10 n = '0' :: rest) :
    rest = [] := by
  cases n with
  | zero => cases h; rfl
  | succ n =>
    have first := head?_toDigits (Nat.succ_pos n)
    rw [h] at first
    exact absurd rfl first

end MiniC.Decimal
