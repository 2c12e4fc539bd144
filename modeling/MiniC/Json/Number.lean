import MiniC.Binary64.Shortest

/-!
# Numbers of a JSON text

A number is a whole number of at most 64 bits or a double-precision number. A whole number is
written in decimal. A double is written with the fewest digits that read back, in plain notation
where its first digit stands between `10 ^ -5` and `10 ^ 15`, always with a fraction, and in
scientific notation with a signed exponent elsewhere.
-/

namespace MiniC

inductive Number where
  | int (value : Int)
  | real (value : Binary64)
  deriving DecidableEq, Repr

namespace Number

/-- Digits around a decimal point that stands `exponent + 1` digits after the first one. -/
def plain (digits : List Char) (exponent : Int) : List Char :=
  if exponent < 0 then
    '0' :: '.' :: List.replicate (-exponent - 1).toNat '0' ++ digits
  else
    let whole := exponent.toNat + 1
    let fraction := digits.drop whole
    digits.take whole ++ List.replicate (whole - digits.length) '0' ++
      '.' :: (if fraction.isEmpty then ['0'] else fraction)

/-- One digit, the others after a point, and the exponent with its sign. -/
def scientific (digits : List Char) (exponent : Int) : List Char :=
  let fraction := digits.drop 1
  let sign := if exponent < 0 then '-' else '+'
  digits.take 1 ++ (if fraction.isEmpty then [] else '.' :: fraction) ++
    'e' :: sign :: Nat.toDigits 10 exponent.natAbs

def realText (x : Binary64) : String :=
  let magnitude :=
    if x.mantissa = 0 then ['0', '.', '0']
    else
      let d := x.shortest
      if -5 ≤ d.exponent && d.exponent < 16 then plain d.digits d.exponent
      else scientific d.digits d.exponent
  String.ofList (if x.negative then '-' :: magnitude else magnitude)

def text : Number → String
  | .int n => Decimal.ofInt n
  | .real x => realText x

end Number

end MiniC
