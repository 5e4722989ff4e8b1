import SelectorIndex.Text.Cut
import SelectorIndex.Text.Blank
import SelectorIndex.Text.Hex

/-!
# The scanner of selector texts

A selector text is read once, character by character. Quoted, bracketed and
parenthesised spans are enclosed, delimiters included; outside them a backslash
escape is kept together. What is left is plain, and only a plain character can
separate two parts of a selector.

Parentheses and brackets are counted apart, a closer without an opener counts
as enclosed, and a span that is never closed runs to the end of the text.
-/

namespace SelectorIndex.Selector

open SelectorIndex.Text

/-- How a character stands to the spans and escapes around it. -/
inductive Position where
  /-- Outside every span and escape. -/
  | plain
  /-- Part of an escape outside every span. -/
  | escaped
  /-- Within a span, or at its ends. -/
  | enclosed
  deriving DecidableEq, Repr

/-- How far an escape has come. -/
inductive EscapeState where
  | idle
  /-- Just after the backslash. -/
  | start
  /-- After this many hexadecimal digits. -/
  | hex (digits : Nat)
  deriving DecidableEq, Repr

/-- The state of the scanner between two characters. -/
structure Scan where
  parens : Nat := 0
  brackets : Nat := 0
  quote : Option Char := none
  escape : EscapeState := .idle
  deriving DecidableEq, Repr

namespace Scan

def isOpen (s : Scan) : Bool := s.parens != 0 || s.brackets != 0 || s.quote.isSome

/-- The position of a character of an escape. -/
def escapePosition (s : Scan) : Position := if s.isOpen then .enclosed else .escaped

/-- One character outside every quote and escape. -/
def stepUnquoted (s : Scan) (c : Char) : Scan × Position :=
  if c = '"' ∨ c = '\'' then ({ s with quote := some c }, .enclosed)
  else if c = '(' then ({ s with parens := s.parens + 1 }, .enclosed)
  else if c = '[' then ({ s with brackets := s.brackets + 1 }, .enclosed)
  else if c = ')' then ({ s with parens := s.parens - 1 }, .enclosed)
  else if c = ']' then ({ s with brackets := s.brackets - 1 }, .enclosed)
  else (s, if s.isOpen then .enclosed else .plain)

/-- One character outside every escape. -/
def stepUnescaped (s : Scan) (c : Char) : Scan × Position :=
  if c = '\\' then ({ s with escape := .start }, s.escapePosition)
  else match s.quote with
    | some q => ({ s with quote := if c = q then none else some q }, .enclosed)
    | none => s.stepUnquoted c

/-- One character: the state after it, and its position. -/
def step (s : Scan) (c : Char) : Scan × Position :=
  match s.escape with
  | .idle => s.stepUnescaped c
  | .start => ({ s with escape := if isHexDigit c then .hex 1 else .idle }, s.escapePosition)
  | .hex n =>
    if isHexDigit c ∧ n < 6 then ({ s with escape := .hex (n + 1) }, s.escapePosition)
    else if isAsciiBlank c then ({ s with escape := .idle }, s.escapePosition)
    else { s with escape := .idle }.stepUnescaped c

def after (s : Scan) (cs : List Char) : Scan := cs.foldl (fun t c => (t.step c).1) s

/-- Every character of a text with its position. -/
def marks (s : Scan) : List Char → List (Char × Position)
  | [] => []
  | c :: cs => (c, (s.step c).2) :: marks (s.step c).1 cs

@[simp] theorem after_nil (s : Scan) : s.after [] = s := rfl

@[simp] theorem after_cons (s : Scan) (c : Char) (cs : List Char) :
    s.after (c :: cs) = (s.step c).1.after cs := rfl

theorem after_append (s : Scan) (cs ds : List Char) :
    s.after (cs ++ ds) = (s.after cs).after ds := List.foldl_append

theorem marks_append (s : Scan) (cs ds : List Char) :
    s.marks (cs ++ ds) = s.marks cs ++ (s.after cs).marks ds := by
  induction cs generalizing s with
  | nil => rfl
  | cons c cs ih => simp [marks, ih]

@[simp] theorem map_fst_marks (s : Scan) (cs : List Char) :
    (s.marks cs).map Prod.fst = cs := by
  induction cs generalizing s with
  | nil => rfl
  | cons c cs ih => simp [marks, ih]

/-- The runs of the text between its plain characters that satisfy `p`. -/
def pieces (s : Scan) (p : Char → Bool) (cs : List Char) : List (List Char) :=
  cut ((s.marks cs).map fun m => (m.1, m.2 == .plain && p m.1))

theorem pieces_ne_nil (s : Scan) (p : Char → Bool) (cs : List Char) : s.pieces p cs ≠ [] :=
  cut_ne_nil _

/-- The text ends outside every span, and not just after a backslash. -/
def isClosed (s : Scan) : Bool := !s.isOpen && s.escape != .start

end Scan

end SelectorIndex.Selector
