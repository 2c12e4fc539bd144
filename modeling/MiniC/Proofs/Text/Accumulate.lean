import MiniC.Proofs.Text.Decimal

/-!
# Reading digits in 64 bits

A reader with 64 bits for its result takes, for each digit, ten times what it has and adds the
digit, and gives up at a product or a sum that does not fit. No part of a number exceeds the whole,
so it gives up exactly where the whole number does not fit, however many zeros come first.
-/

namespace MiniC.Decimal

/-- The number that digits stand for behind digits that stand for `n`. -/
def valueFrom (n : Nat) (digits : List Char) : Nat :=
  digits.foldl (fun n c => n * 10 + digitValue c) n

lemma le_valueFrom (n : Nat) (digits : List Char) : n ≤ valueFrom n digits := by
  induction digits generalizing n with
  | nil => exact Nat.le_refl n
  | cons c rest ih =>
    calc n ≤ n * 10 + digitValue c := by omega
      _ ≤ valueFrom (n * 10 + digitValue c) rest := ih _

/-- A whole number as 64 bits with a sign, if it fits. -/
def fit? (n : Int) : Option Int64 :=
  if -0x8000000000000000 ≤ n ∧ n < 0x8000000000000000 then some (.ofInt n) else none

lemma fit?_natCast (n : Nat) :
    fit? n = if n < 0x8000000000000000 then some (.ofNat n) else none := by
  have range : (-0x8000000000000000 ≤ (n : Int) ∧ (n : Int) < 0x8000000000000000) ↔
      n < 0x8000000000000000 := by omega
  simp only [fit?, range, Int64.ofInt_eq_ofNat]

/-- Appends a digit to a number of 64 bits. -/
def extend? (n : Int64) (c : Char) : Option Int64 := do
  let tens ← fit? (n.toInt * 10)
  fit? (tens.toInt + digitValue c)

/-- Appends digits one after the other. -/
def accumulate (digits : List Char) (n : Int64) : Option Int64 :=
  digits.foldlM extend? n

/-- One step fails only where the number with one more digit does not fit. -/
lemma extend?_ofNat {n : Nat} (small : n < 0x8000000000000000) (c : Char) :
    extend? (.ofNat n) c = if n * 10 + digitValue c < 0x8000000000000000 then
      some (.ofNat (n * 10 + digitValue c)) else none := by
  have product : (Int64.ofNat n).toInt * 10 = (n * 10 : Nat) := by
    rw [Int64.toInt_ofNat_of_lt small]
    omega
  rw [extend?, product, fit?_natCast]
  by_cases tens : n * 10 < 0x8000000000000000
  · have sum : (Int64.ofNat (n * 10)).toInt + digitValue c = (n * 10 + digitValue c : Nat) := by
      rw [Int64.toInt_ofNat_of_lt tens]
      omega
    rw [if_pos tens, Option.bind_eq_bind, Option.bind_some, sum, fit?_natCast]
  · rw [if_neg tens, if_neg (by omega)]
    rfl

/-- A run fails only where the number with all digits does not fit. -/
lemma accumulate_ofNat {n : Nat} (small : n < 0x8000000000000000) (digits : List Char) :
    accumulate digits (.ofNat n) = if valueFrom n digits < 0x8000000000000000 then
      some (.ofNat (valueFrom n digits)) else none := by
  induction digits generalizing n with
  | nil => exact (if_pos small).symm
  | cons c rest ih =>
    have more : valueFrom n (c :: rest) = valueFrom (n * 10 + digitValue c) rest := rfl
    rw [accumulate, List.foldlM_cons, extend?_ofNat small, more]
    by_cases next : n * 10 + digitValue c < 0x8000000000000000
    · rw [if_pos next]
      exact ih next
    · have large := le_valueFrom (n * 10 + digitValue c) rest
      rw [if_neg next, if_neg (by omega)]
      rfl

end MiniC.Decimal
