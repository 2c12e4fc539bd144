/-!
# Double-precision numbers

A finite binary64 number is a sign, a mantissa below `2 ^ 53` and an exponent between `-1074` and
`971`; its magnitude is `mantissa * 2 ^ exponent`. All arithmetic is exact on natural numbers and
rounds once, to the nearest number and to the even mantissa on a tie.
-/

namespace MiniC

structure Binary64 where
  negative : Bool
  mantissa : Nat
  exponent : Int
  deriving DecidableEq, Repr

namespace Binary64

def minExponent : Int := -1074

def maxExponent : Int := 971

/-- The least mantissa of a number whose exponent is not the smallest, `2 ^ 52`. -/
def minNormal : Nat := 1 <<< 52

/-- What every mantissa is below, `2 ^ 53`. -/
def mantissaBound : Nat := 1 <<< 53

def zero (negative : Bool) : Binary64 := ⟨negative, 0, minExponent⟩

/-- The natural number nearest to `n / d`; of two, the even one. -/
def roundDiv (n d : Nat) : Nat :=
  let q := n / d
  let r := n % d
  if 2 * r < d then q
  else if d < 2 * r then q + 1
  else if q % 2 = 0 then q else q + 1

/-- The quotient `num / den` divided by `2 ^ e`, again as a quotient. -/
def shifted (num den : Nat) (e : Int) : Nat × Nat :=
  if 0 ≤ e then (num, den <<< e.toNat) else (num <<< (-e).toNat, den)

/-- The number nearest to `num / den`, or none where that is beyond the largest number. -/
def nearest? (negative : Bool) (num den : Nat) : Option Binary64 :=
  if num = 0 then
    some (zero negative)
  else
    let guess : Int := (num.log2 : Int) - den.log2 - 53
    let wide := shifted num den guess
    let e := max minExponent (if mantissaBound * wide.2 ≤ wide.1 then guess + 1 else guess)
    let ratio := shifted num den e
    let m := roundDiv ratio.1 ratio.2
    let (m, e) := if m = mantissaBound then (minNormal, e + 1) else (m, e)
    if maxExponent < e then none else some ⟨negative, m, e⟩

/-- The magnitude as a quotient of natural numbers. -/
def ratio (x : Binary64) : Nat × Nat :=
  if 0 ≤ x.exponent then (x.mantissa <<< x.exponent.toNat, 1)
  else (x.mantissa, 1 <<< (-x.exponent).toNat)

/-- The product of the magnitudes, with the sign of the first number. -/
def times? (x y : Binary64) : Option Binary64 :=
  nearest? x.negative (x.ratio.1 * y.ratio.1) (x.ratio.2 * y.ratio.2)

/-- The quotient of the magnitudes, with the sign of the first number; `y` is at least one. -/
def quotient (x y : Binary64) : Binary64 :=
  (nearest? x.negative (x.ratio.1 * y.ratio.2) (x.ratio.2 * y.ratio.1)).getD (zero x.negative)

/-- The number nearest to `10 ^ k`, for `k` at most 308. -/
def powTen (k : Nat) : Binary64 :=
  (nearest? false (Nat.pow 10 k) 1).getD (zero false)

/-- The number `x` times `10 ^ e` for `x` below `2 ^ 64`, or none where that is too large. Powers of
ten up to `10 ^ 308` are numbers of their own; a smaller scale is reached by dividing twice. -/
def scale? (x : Binary64) (e : Int) : Option Binary64 :=
  if 308 < e then
    if x.mantissa = 0 then some x else none
  else if 0 ≤ e then
    x.times? (powTen e.toNat)
  else if -308 ≤ e then
    some (x.quotient (powTen (-e).toNat))
  else if -616 ≤ e then
    some ((x.quotient (powTen 308)).quotient (powTen (-(e + 308)).toNat))
  else
    some (zero x.negative)

end Binary64

end MiniC
