import MiniC.Json.Number

/-!
# Numerals of a JSON text

A numeral is split into its parts first; what number it stands for is a second question. A numeral
without fraction and exponent that fits 64 bits is a whole number. Any other one is a double: as
many leading digits as fit 64 bits, rounded, and then scaled by a power of ten. A minus sign in
front of zero makes it a double as well.
-/

namespace MiniC

structure Numeral where
  negative : Bool
  whole : List Char
  /-- The digits after the point, none where there is no point. -/
  fraction : List Char
  /-- The digits of the exponent and whether it has a minus sign. -/
  exponent : Option (Bool × List Char)
  deriving DecidableEq, Repr

namespace Numeral

/-- A run of digits at the start of a text, which must not be empty. -/
def readDigits (cs : List Char) : Option (List Char × List Char) :=
  let digits := cs.takeWhile Decimal.isDigit
  if digits.isEmpty then none else some (digits, cs.dropWhile Decimal.isDigit)

def readFraction : List Char → Option (List Char × List Char)
  | '.' :: rest => readDigits rest
  | cs => some ([], cs)

/-- The digits of an exponent after its mark. -/
def readSigned : List Char → Option ((Bool × List Char) × List Char)
  | '-' :: rest => (readDigits rest).map fun (digits, rest) => ((true, digits), rest)
  | '+' :: rest => (readDigits rest).map fun (digits, rest) => ((false, digits), rest)
  | cs => (readDigits cs).map fun (digits, rest) => ((false, digits), rest)

def readExponent : List Char → Option (Option (Bool × List Char) × List Char)
  | 'e' :: rest => (readSigned rest).map fun (e, rest) => (some e, rest)
  | 'E' :: rest => (readSigned rest).map fun (e, rest) => (some e, rest)
  | cs => some (none, cs)

/-- No digit may follow a leading zero. -/
def readWhole (cs : List Char) : Option (List Char × List Char) :=
  match readDigits cs with
  | some ('0' :: _ :: _, _) => none
  | result => result

def readUnsigned (negative : Bool) (cs : List Char) : Option (Numeral × List Char) := do
  let (whole, cs) ← readWhole cs
  let (fraction, cs) ← readFraction cs
  let (exponent, cs) ← readExponent cs
  some (⟨negative, whole, fraction, exponent⟩, cs)

/-- The numeral at the start of a text and what follows it. -/
def read : List Char → Option (Numeral × List Char)
  | '-' :: rest => readUnsigned true rest
  | cs => readUnsigned false cs

/-- Appends digits to a number as long as it stays below `2 ^ 64`; also the digits left over. -/
def absorb (n : Nat) : List Char → Nat × List Char
  | [] => (n, [])
  | c :: cs =>
    let next := n * 10 + Decimal.digitValue c
    if next < UInt64.size then absorb next cs else (n, c :: cs)

/-- The double that a numeral stands for, or none where it is too large. -/
def toReal? (x : Numeral) : Option Binary64 :=
  let (n, dropped) := absorb 0 x.whole
  let (n, unused) := absorb n x.fraction
  let places : Int := (dropped.length : Int) - (x.fraction.length - unused.length : Nat)
  let shift : Int := match x.exponent with
    | none => 0
    | some (true, digits) => -(Decimal.value digits : Int)
    | some (false, digits) => Decimal.value digits
  match Binary64.nearest? x.negative n 1 with
  | none => none
  | some leading => leading.scale? (places + shift)

def toNumber? (x : Numeral) : Option Number :=
  let n := Decimal.value x.whole
  let isWhole := x.fraction.isEmpty && x.exponent.isNone
  if isWhole && !x.negative && n < UInt64.size then some (.int n)
  else if isWhole && x.negative && 0 < n && n ≤ UInt64.size / 2 then some (.int (-n))
  else x.toReal?.map .real

end Numeral

end MiniC
