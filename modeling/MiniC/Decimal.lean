/-!
# Decimal text of whole numbers

Numbers are written without leading zeros and without a plus sign. Reading accepts ASCII digits
only, any number of leading zeros, and at least one digit.
-/

namespace MiniC.Decimal

/-- The digits of a natural number, most significant first. -/
def ofNat (n : Nat) : String :=
  String.ofList (Nat.toDigits 10 n)

/-- A minus sign for negative numbers, then the digits. -/
def ofInt : Int → String
  | .ofNat n => ofNat n
  | .negSucc n => "-" ++ ofNat (n + 1)

def isDigit (c : Char) : Bool :=
  '0' ≤ c && c ≤ '9'

/-- The value of a digit; meaningful only where `isDigit` holds. -/
def digitValue (c : Char) : Nat :=
  c.toNat - '0'.toNat

/-- The number a run of digits stands for. -/
def value (digits : List Char) : Nat :=
  digits.foldl (fun n c => n * 10 + digitValue c) 0

/-- Reads a non-empty run of digits that fills the whole text. -/
def toNat? (text : String) : Option Nat :=
  let digits := text.toList
  if digits.isEmpty || !digits.all isDigit then none else some (value digits)

end MiniC.Decimal
