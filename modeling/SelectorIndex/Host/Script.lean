import SelectorIndex.Host

/-!
# Scripted hosts

A host whose answers are fixed in advance, whatever its selectors mean. It can
fail, and it need not agree with itself.
-/

namespace SelectorIndex

inductive Script.Answer (ε : Type) where
  | elements (es : List ε)
  | engineFailure (cause : String)
  | invalidSelector (cause : String)
  deriving DecidableEq, Repr

/-- Answers by selector, with those to all other selectors. -/
structure Script.Table (ε : Type) where
  answers : List (String × Script.Answer ε) := []
  otherwise : Script.Answer ε := .elements []
  deriving DecidableEq, Repr

/-- The elements that match a selector, and those that a query for it finds. -/
structure Script (ε : Type) where
  matching : Script.Table ε := {}
  selected : Script.Table ε := {}
  deriving DecidableEq, Repr

namespace Script

variable {ε : Type}

def Table.answer (t : Table ε) (selector : String) : Except Failure (List ε) :=
  match (t.answers.lookup selector).getD t.otherwise with
  | .elements es => .ok es
  | .engineFailure cause => .error (.engine cause)
  | .invalidSelector cause => .error (.invalidSelector selector cause)

/-- The script as a host of elements with these facets. Queries do not look at their root. -/
def host [DecidableEq ε] (s : Script ε) (facets : ε → Facets) : Host ε where
  facets := facets
  test e selector := (s.matching.answer selector).map fun es => es.contains e
  select _ selector := s.selected.answer selector

end Script

end SelectorIndex
