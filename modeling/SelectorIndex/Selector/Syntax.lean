/-!
# Selectors

A selector is a list of chains. A chain is a row of compounds read from the
left, each joined to the chain before it by a combinator; a compound is a list
of simple tests on one element, and one without tests holds of every element.
-/

namespace SelectorIndex.Selector

/-- How an element stands to the one its right neighbour in a chain is tested on. -/
inductive Combinator where
  /-- Some ancestor. -/
  | descendant
  /-- The parent. -/
  | child
  /-- The sibling right before. -/
  | adjacent
  /-- Some sibling before. -/
  | sibling
  deriving DecidableEq, Repr

/-- A test on the value of an attribute that is present. -/
inductive AttrTest where
  | present
  | equals (value : String)
  /-- One of the words of the value. -/
  | includes (word : String)
  deriving DecidableEq, Repr

inductive Simple where
  | tag (name : String)
  | id (name : String)
  | className (name : String)
  | attr (name : String) (test : AttrTest)
  deriving DecidableEq, Repr

abbrev Compound := List Simple

inductive Chain where
  | one (compound : Compound)
  | step (left : Chain) (combinator : Combinator) (compound : Compound)
  deriving DecidableEq, Repr

namespace Chain

def compounds : Chain → List Compound
  | one c => [c]
  | step left _ c => left.compounds ++ [c]

def combinators : Chain → List Combinator
  | one _ => []
  | step left k _ => left.combinators ++ [k]

theorem length_compounds (c : Chain) : c.compounds.length = c.combinators.length + 1 := by
  induction c with
  | one => rfl
  | step left k c ih => simp [compounds, combinators, ih]

end Chain

end SelectorIndex.Selector
