/-!
# Numbers of double precision

A finite binary number has a sign and a magnitude: a mantissa of at most 53
places times a power of two not below the least one. Every result is the exact
quotient of two natural numbers rounded once, to the nearest of these numbers, a
half to the even mantissa. Exponents have no upper bound here; `finite?` takes
out the numbers that are too large for 64 bits.
-/

namespace SelectorIndex

/-- The number of magnitude `mantissa * 2 ^ exponent`. -/
structure Double where
  negative : Bool
  mantissa : Nat
  exponent : Int
  deriving DecidableEq, Repr

namespace Double

def leastExponent : Int := -1074

def greatestExponent : Int := 971

/-! ## Rounding -/

/-- A quotient to the nearest integer, a half to the even one. -/
def roundDiv (num den : Nat) : Nat :=
  let q := num / den
  let r := num % den
  if 2 * r < den ∨ 2 * r = den ∧ q % 2 = 0 then q else q + 1

/-- The exponent of the unit of which `num / den` has 53 places before the point, or of the least
unit. -/
def unit (num den : Nat) : Int :=
  let e := Int.ofNat num.log2 - Int.ofNat den.log2 - 52
  let e := if num <<< (-e).toNat < den <<< (e.toNat + 52) then e - 1 else e
  if e < leastExponent then leastExponent else e

/-- The number nearest to `num / den`. -/
def round (negative : Bool) (num den : Nat) : Double :=
  if num = 0 then ⟨negative, 0, leastExponent⟩
  else
    let e := unit num den
    let m := roundDiv (num <<< (-e).toNat) (den <<< e.toNat)
    if m = 1 <<< 53 then ⟨negative, 1 <<< 52, e + 1⟩ else ⟨negative, m, e⟩

def finite? (x : Double) : Option Double := if x.exponent ≤ greatestExponent then some x else none

/-! ## Products and quotients -/

/-- The magnitude of a number is `num / den`. -/
def num (x : Double) : Nat := x.mantissa <<< x.exponent.toNat

def den (x : Double) : Nat := 1 <<< (-x.exponent).toNat

def isZero (x : Double) : Bool := x.mantissa == 0

/-- Equality of values: a zero has no sign. -/
def equal (x y : Double) : Bool := x == y || (x.isZero && y.isZero)

def mul (x y : Double) : Double :=
  round (x.negative != y.negative) (x.num * y.num) (x.den * y.den)

def div (x y : Double) : Double :=
  round (x.negative != y.negative) (x.num * y.den) (x.den * y.num)

end Double

end SelectorIndex
