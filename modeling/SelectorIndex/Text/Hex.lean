/-!
# Hexadecimal digits

Values of the ASCII hexadecimal digits, runs of them, and the lower-case
spelling of a number without leading zeros.
-/

namespace SelectorIndex.Text

def hexValue? (c : Char) : Option Nat :=
  if '0' ≤ c ∧ c ≤ '9' then some (c.toNat - '0'.toNat)
  else if 'a' ≤ c ∧ c ≤ 'f' then some (c.toNat - 'a'.toNat + 10)
  else if 'A' ≤ c ∧ c ≤ 'F' then some (c.toNat - 'A'.toNat + 10)
  else none

def isHexDigit (c : Char) : Bool := (hexValue? c).isSome

/-- The values of at most `n` hexadecimal digits at the front, and what follows them. -/
def takeHex : Nat → List Char → List Nat × List Char
  | 0, cs => ([], cs)
  | _ + 1, [] => ([], [])
  | n + 1, c :: cs =>
    match hexValue? c with
    | some d => let (ds, rest) := takeHex n cs; (d :: ds, rest)
    | none => ([], c :: cs)

def ofHex (digits : List Nat) : Nat := digits.foldl (fun n d => 16 * n + d) 0

/-- The lower-case hexadecimal spelling. -/
def toHex (n : Nat) : List Char :=
  if n < 16 then [n.digitChar] else toHex (n / 16) ++ [(n % 16).digitChar]

theorem length_takeHex (n : Nat) (cs : List Char) :
    (takeHex n cs).1.length + (takeHex n cs).2.length = cs.length := by
  induction n generalizing cs with
  | zero => simp [takeHex]
  | succ n ih =>
    cases cs with
    | nil => simp [takeHex]
    | cons c cs =>
      cases h : hexValue? c with
      | none => simp [takeHex, h]
      | some d => simp [takeHex, h, ← ih cs]; omega

end SelectorIndex.Text
