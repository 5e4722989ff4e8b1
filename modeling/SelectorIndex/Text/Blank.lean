import SelectorIndex.Text.Cut

/-!
# Blanks

Two sets of blanks are in use. `isBlank` is Unicode's White_Space: it trims
groups, separates class names and is skipped between the parts of a selector.
`isAsciiBlank` is the narrower set of selector syntax: it separates compounds
and ends a hexadecimal escape. The vertical tab is in the first set only.
-/

namespace SelectorIndex.Text

/-- The characters with the property White_Space. -/
def isBlank (c : Char) : Bool :=
  ('\t' ≤ c && c ≤ '\r') || c == ' ' || c == '\u0085' || c == '\u00a0' || c == '\u1680'
    || ('\u2000' ≤ c && c ≤ '\u200a') || c == '\u2028' || c == '\u2029' || c == '\u202f'
    || c == '\u205f' || c == '\u3000'

/-- Space, tab, line feed, form feed and carriage return. -/
def isAsciiBlank (c : Char) : Bool :=
  c == ' ' || c == '\t' || c == '\n' || c == '\x0c' || c == '\r'

theorem isBlank_of_isAsciiBlank {c : Char} (h : isAsciiBlank c = true) : isBlank c = true := by
  simp only [isAsciiBlank, Bool.or_eq_true, beq_iff_eq] at h
  rcases h with (((rfl | rfl) | rfl) | rfl) | rfl <;> decide

/-- The text without the blanks at its two ends. -/
def trim (cs : List Char) : List Char :=
  ((cs.dropWhile isBlank).reverse.dropWhile isBlank).reverse

/-- The runs of characters other than blanks. -/
def words (cs : List Char) : List (List Char) :=
  (cut (cs.map fun c => (c, isBlank c))).filter (!·.isEmpty)

end SelectorIndex.Text
