import SelectorIndex.Number.Double

/-!
# The shortest text of a number

The decimal with the fewest digits that reads back as the number, and of these
the nearest one. `text` writes it with a point, and with an exponent only where
the point is far from the digits, and takes the even one of two nearest ones;
`plainText` never writes an exponent, and takes the greater one.
-/

namespace SelectorIndex.Double

/-! ## Digits -/

/-- The decimal `digits * 10 ^ place` has this number as its nearest one. -/
def readsBack (x : Double) (place : Int) (digits : Nat) : Bool :=
  round x.negative (digits * Nat.pow 10 place.toNat) (Nat.pow 10 (-place).toNat) == x

/-- How a quotient is rounded: to the nearest integer, and this way if there are two. -/
inductive Tie where
  | even
  | up
  deriving DecidableEq, Repr

def Tie.roundDiv : Tie → Nat → Nat → Nat
  | even, num, den => Double.roundDiv num den
  | up, num, den => (2 * num + den) / (2 * den)

/-- The nearest decimal down to a place that reads back. -/
def digitsTo? (x : Double) (tie : Tie) (place : Int) : Option Nat :=
  let num := x.num * Nat.pow 10 (-place).toNat
  let den := x.den * Nat.pow 10 place.toNat
  [tie.roundDiv num den, num / den, num / den + 1].find? (x.readsBack place)

/-- The places of decimal digits, the highest first. -/
def places : List Int := (List.range 633).map fun n => 308 - Int.ofNat n

/-- The fewest digits that read back, and the place of the last one. -/
def shortest (x : Double) (tie : Tie) : Nat × Int :=
  (places.findSome? fun place => (x.digitsTo? tie place).map (·, place)).getD (0, 0)

/-! ## Text -/

def zeros (n : Int) : List Char := List.replicate n.toNat '0'

def signed (n : Int) : List Char :=
  (if n < 0 then '-' else '+') :: Nat.toDigits 10 n.natAbs

/-- Digits, of which the last has this place, with their point. -/
def withPoint (digits : List Char) (place : Int) : List Char :=
  let point := Int.ofNat digits.length + place
  if 0 ≤ place then digits ++ zeros place ++ ['.', '0']
  else if 0 < point then digits.take point.toNat ++ '.' :: digits.drop point.toNat
  else '0' :: '.' :: zeros (-point) ++ digits

def withExponent (digits : List Char) (place : Int) : List Char :=
  let mantissa := match digits with
    | first :: second :: rest => first :: '.' :: second :: rest
    | digits => digits
  mantissa ++ 'e' :: signed (Int.ofNat digits.length + place - 1)

/-- Numbers from 10 ^ -5 to 10 ^ 16 have no exponent. -/
def withNearPoint (digits : List Char) (place : Int) : List Char :=
  let point := Int.ofNat digits.length + place
  if -5 < point ∧ point ≤ 16 then withPoint digits place else withExponent digits place

def textBy (tie : Tie) (lay : List Char → Int → List Char) (x : Double) : String :=
  let (digits, place) := if x.isZero then (0, 0) else x.shortest tie
  let magnitude := lay (Nat.toDigits 10 digits) place
  String.ofList (if x.negative then '-' :: magnitude else magnitude)

def text : Double → String := textBy .even withNearPoint

def plainText : Double → String := textBy .up withPoint

end SelectorIndex.Double
