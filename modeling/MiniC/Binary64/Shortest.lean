import MiniC.Binary64
import MiniC.Decimal

/-!
# The shortest decimal of a double-precision number

Every decimal between the midpoints to the two neighbours reads back as the number itself, and the
midpoints too where the mantissa is even. `shortest` takes the fewest digits for which such a
decimal exists, and of those the nearest to the number.
-/

namespace MiniC.Binary64

/-- A decimal in scientific form: digits without trailing zeros, and the power of ten of the
first digit. -/
structure Scientific where
  digits : List Char
  exponent : Int
  deriving DecidableEq, Repr

def digitCount (n : Nat) : Nat :=
  (Nat.toDigits 10 n).length

/-- The power of ten of the first digit of `num / den`. -/
def leadingExponent (num den : Nat) : Int :=
  if den ≤ num then (digitCount (num / den) : Int) - 1
  else -(digitCount ((den - 1) / num) : Int)

/-- The power `base ^ e` as a quotient. -/
def power (base : Nat) (e : Int) : Nat × Nat :=
  if 0 ≤ e then (base.pow e.toNat, 1) else (1, base.pow (-e).toNat)

/-- Whether `c * 10 ^ t` reads back as `x`, whose mantissa is not zero. -/
def readsBack (x : Binary64) (c : Nat) (t : Int) : Bool :=
  let two := power 2 (x.exponent - 2)
  let ten := power 10 t
  let low := if x.mantissa = minNormal && minExponent < x.exponent then 4 * x.mantissa - 1
    else 4 * x.mantissa - 2
  let high := 4 * x.mantissa + 2
  let point := c * ten.1 * two.2
  let below := low * two.1 * ten.2
  let above := high * two.1 * ten.2
  if x.mantissa % 2 = 0 then below ≤ point && point ≤ above else below < point && point < above

/-- The coefficient of the multiple of `10 ^ t` that reads back as `x` and is nearest to it. -/
def coefficient? (x : Binary64) (t : Int) : Option Nat :=
  let ten := power 10 t
  let num := x.ratio.1 * ten.2
  let den := x.ratio.2 * ten.1
  let q := num / den
  match readsBack x q t, readsBack x (q + 1) t with
  | true, true => some (roundDiv num den)
  | true, false => some q
  | false, true => some (q + 1)
  | false, false => none

/-- Seventeen digits always suffice. -/
def shortest (x : Binary64) : Scientific :=
  let top := leadingExponent x.ratio.1 x.ratio.2
  let found := (List.range 17).findSome? fun (k : Nat) =>
    (coefficient? x (top - k)).map fun c => (c, top - k)
  let (c, t) := found.getD (0, 0)
  let digits := Nat.toDigits 10 c
  ⟨(digits.reverse.dropWhile (· = '0')).reverse, t + digits.length - 1⟩

end MiniC.Binary64
