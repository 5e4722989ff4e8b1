import SelectorIndex.Text.Blank
import SelectorIndex.Text.Hex

/-!
# Backslash escapes

An escape is a backslash and either one to six hexadecimal digits with at most
one blank after them, or any one other character, which then stands for itself.
A hexadecimal escape that names no character (zero, a surrogate, or beyond the
last code point) stands for U+FFFD. `read?` reads what follows the backslash,
`decode` a whole text, and `encode` spells every character as an escape.
-/

namespace SelectorIndex.Text.Escape

/-- The character with this code, or U+FFFD where there is none. -/
def scalar (code : Nat) : Char :=
  if code ≠ 0 ∧ code.isValidChar then Char.ofNat code else '\ufffd'

def dropBlank : List Char → List Char
  | c :: cs => if isAsciiBlank c then cs else c :: cs
  | [] => []

/-- The escaped character and what follows, from the text after the backslash;
`none` if the text ends there. -/
def read? (cs : List Char) : Option (Char × List Char) :=
  match takeHex 6 cs with
  | (d :: digits, rest) => some (scalar (ofHex (d :: digits)), dropBlank rest)
  | ([], c :: rest) => some (c, rest)
  | ([], []) => none

theorem length_dropBlank_le (cs : List Char) : (dropBlank cs).length ≤ cs.length := by
  cases cs with
  | nil => simp [dropBlank]
  | cons c cs => simp only [dropBlank]; split <;> simp

/-- An escape takes at least one character. -/
theorem length_lt_of_read? {cs rest : List Char} {c : Char} (h : read? cs = some (c, rest)) :
    rest.length < cs.length := by
  have hlen := length_takeHex 6 cs
  unfold read? at h
  split at h
  · rename_i tail heq
    rw [heq] at hlen
    cases h
    have := length_dropBlank_le tail
    simp at hlen
    omega
  · rename_i heq
    rw [heq] at hlen
    cases h
    simp at hlen
    omega
  · cases h

/-- The number of characters that `read?` reads; none at the end of the text. -/
def width (cs : List Char) : Nat :=
  match takeHex 6 cs with
  | (_ :: digits, rest) => digits.length + (if rest.head?.any isAsciiBlank then 2 else 1)
  | ([], _ :: _) => 1
  | ([], []) => 0

/-- The text that `read?` reads, and what follows it. -/
def split? (cs : List Char) : Option (List Char × List Char) :=
  match width cs with
  | 0 => none
  | n => some (cs.splitAt n)

theorem length_lt_of_split? {cs text rest : List Char} (h : split? cs = some (text, rest)) :
    rest.length < cs.length := by
  unfold split? at h
  split at h
  · cases h
  · rename_i hw
    rw [List.splitAt_eq] at h
    cases h
    cases cs with
    | nil => exact absurd rfl hw
    | cons c cs => have := Nat.pos_of_ne_zero hw; simp; omega

/-- The text with every escape replaced by the character it stands for. A
backslash at the very end stands for nothing. -/
def decode : List Char → List Char
  | [] => []
  | c :: cs =>
    if c = '\\' then
      match h : read? cs with
      | some (d, rest) =>
        have := length_lt_of_read? h
        d :: decode rest
      | none => []
    else c :: decode cs
termination_by cs => cs.length

/-- One character as a hexadecimal escape closed by a space. U+0000 has no such
escape and is written as itself after the backslash. -/
def encodeChar (c : Char) : List Char :=
  if c = '\u0000' then ['\\', c] else '\\' :: toHex c.toNat ++ [' ']

def encode (cs : List Char) : List Char := cs.flatMap encodeChar

end SelectorIndex.Text.Escape
