/-!
# Patterns

Patterns of characters under a search that backtracks: of two alternatives the
first is tried first, and a repetition would rather go on than stop. `ways` lists
the matches at the front of a text in the order in which such a search comes to
them, so the match it settles on is the head. A `Finder` is a pattern with one
group in it; the group captures what it matches at the first place of the text
where the whole pattern matches.
-/

namespace SelectorIndex.Text

/-- A match at the front of a text: what is matched, and what follows it. -/
abbrev Match := List Char × List Char

inductive Pattern where
  /-- The empty text. -/
  | empty
  /-- One character of a class. -/
  | one (p : Char → Bool)
  | seq (a b : Pattern)
  /-- The second pattern where the first one fails. -/
  | alt (a b : Pattern)
  /-- As often as possible, but at most `n` times. -/
  | upTo (n : Nat) (a : Pattern)
  /-- As often as possible. -/
  | many (a : Pattern)

namespace Pattern

def prepend (front : List Char) (m : Match) : Match := (front ++ m.1, m.2)

/-- The matches of one, each with those of the other on what follows it. -/
def andThen (a b : List Char → List Match) (cs : List Char) : List Match :=
  (a cs).flatMap fun m => (b m.2).map (prepend m.1)

/-- The matches of at most `n` in a row, more of them first. -/
def repeated (a : List Char → List Match) : Nat → List Char → List Match
  | 0, cs => [([], cs)]
  | n + 1, cs => andThen a (repeated a n) cs ++ [([], cs)]

/-- The matches at the front of a text, the preferred ones first. Whatever takes at least a
character each time is repeated no more often than there are characters. -/
def ways : Pattern → List Char → List Match
  | empty, cs => [([], cs)]
  | one _, [] => []
  | one p, c :: cs => if p c then [([c], cs)] else []
  | seq a b, cs => andThen a.ways b.ways cs
  | alt a b, cs => a.ways cs ++ b.ways cs
  | upTo n a, cs => repeated a.ways n cs
  | many a, cs => repeated a.ways cs.length cs

def char (c : Char) : Pattern := one (· == c)

def atMostOnce (a : Pattern) : Pattern := upTo 1 a

def atLeastOnce (a : Pattern) : Pattern := seq a (many a)

end Pattern

/-- A pattern that ends in a group. -/
structure Finder where
  /-- Whether it matches at the start of a text only. -/
  anchored : Bool
  /-- What stands in front of the group. -/
  lead : Pattern
  group : Pattern

namespace Finder

/-- What the group captures in a match right at the front, and what follows it. -/
def captureHere? (f : Finder) (cs : List Char) : Option Match :=
  ((f.lead.ways cs).flatMap fun m => f.group.ways m.2).head?

/-- What the group captures in the first match, and what follows it. -/
def capture? (f : Finder) : List Char → Option Match
  | [] => f.captureHere? []
  | c :: cs => (f.captureHere? (c :: cs)).or (if f.anchored then none else f.capture? cs)

end Finder

end SelectorIndex.Text
