import SelectorIndex.Number.Double

/-!
# Decimal spellings

A number as it is spelled: a sign, digits before and after the point, and an
exponent. `nearest?` is the number of double precision nearest to it. `stepwise?`
is near, but not always nearest: the digits that fit into 64 bits are rounded
first, and scaling them by the power of ten rounds again.
-/

namespace SelectorIndex

structure Decimal where
  negative : Bool
  whole : List Char
  /-- The digits after the point, none if there is no point. -/
  fraction : List Char
  exponent? : Option Int
  deriving DecidableEq, Repr

namespace Decimal

def digitValue (c : Char) : Nat := c.toNat - '0'.toNat

def ofDigits (cs : List Char) : Nat := cs.foldl (fun n c => 10 * n + digitValue c) 0

/-! ## Reading a spelling -/

def isDigits (cs : List Char) : Bool := !cs.isEmpty && cs.all Char.isDigit

/-- Digits without a leading zero. -/
def isWhole : List Char → Bool
  | ['0'] => true
  | '0' :: _ => false
  | digits => isDigits digits

def signedOf? : List Char → Option Int
  | '-' :: digits => if isDigits digits then some (-Int.ofNat (ofDigits digits)) else none
  | '+' :: digits => if isDigits digits then some (Int.ofNat (ofDigits digits)) else none
  | digits => if isDigits digits then some (Int.ofNat (ofDigits digits)) else none

/-- Nothing, or an exponent after its letter. -/
def exponentOf? : List Char → Option (Option Int)
  | [] => some none
  | c :: cs => if c = 'e' ∨ c = 'E' then (signedOf? cs).map some else none

def ofUnsigned? (negative : Bool) (cs : List Char) : Option Decimal :=
  let whole := cs.takeWhile Char.isDigit
  if isWhole whole then
    match cs.dropWhile Char.isDigit with
    | '.' :: rest =>
      let fraction := rest.takeWhile Char.isDigit
      if fraction.isEmpty then none
      else (exponentOf? (rest.dropWhile Char.isDigit)).map (⟨negative, whole, fraction, ·⟩)
    | rest => (exponentOf? rest).map (⟨negative, whole, [], ·⟩)
  else none

def ofSpelling? : List Char → Option Decimal
  | '-' :: cs => ofUnsigned? true cs
  | cs => ofUnsigned? false cs

/-! ## Integers -/

/-- The number, if it has neither a fraction nor an exponent. -/
def integer? (d : Decimal) : Option Int :=
  if d.fraction.isEmpty && d.exponent?.isNone then
    let n := Int.ofNat (ofDigits d.whole)
    some (if d.negative then -n else n)
  else none

/-! ## Double precision -/

def exponent (d : Decimal) : Int := d.exponent?.getD 0

/-- The nearest number, unless it is too large. The first significant place tells numbers beyond
all bounds apart before any power of ten is computed. -/
def nearest? (d : Decimal) : Option Double :=
  let digits := (d.whole ++ d.fraction).dropWhile (· == '0')
  let e := d.exponent - Int.ofNat d.fraction.length
  let place := Int.ofNat digits.length + e
  if digits.isEmpty ∨ place < -330 then some (.round d.negative 0 1)
  else if 310 < place then none
  else
    (Double.round d.negative (ofDigits digits * Nat.pow 10 e.toNat)
      (Nat.pow 10 (-e).toNat)).finite?

/-- The digits after those of `n` that fit into 64 bits with it, taken in, and the digits left. -/
def fill (n : Nat) : List Char → Nat × List Char
  | [] => (n, [])
  | c :: cs =>
    let m := 10 * n + digitValue c
    if m < UInt64.size then fill m cs else (n, c :: cs)

def powerOfTen (n : Nat) : Double := .round false (Nat.pow 10 n) 1

def greatestPower : Nat := 308

/-- A number divided by a power of ten, in as many steps as there are powers of ten in it. -/
def lower (x : Double) (n : Nat) : Double :=
  if n ≤ greatestPower then x.div (powerOfTen n)
  else if x.isZero then x
  else lower (x.div (powerOfTen greatestPower)) (n - greatestPower)
termination_by n
decreasing_by simp only [greatestPower] at *; omega

/-- A number multiplied by a power of ten, unless the product is too large. -/
def raise? (x : Double) (n : Nat) : Option Double :=
  if n ≤ greatestPower then (x.mul (powerOfTen n)).finite?
  else if x.isZero then some x
  else none

/-- The number by two roundings, unless it is too large. -/
def stepwise? (d : Decimal) : Option Double :=
  let (n, beyond) := fill 0 d.whole
  let (m, left) := fill n d.fraction
  let x := Double.round d.negative m 1
  let e := d.exponent + Int.ofNat beyond.length + Int.ofNat left.length
    - Int.ofNat d.fraction.length
  if 0 ≤ e then raise? x e.toNat else some (lower x (-e).toNat)

end Decimal

end SelectorIndex
