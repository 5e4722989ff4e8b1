/-!
# Rules

A rule is a selector with a payload, kept under an id. Ids are handed out in
ascending order and never again, so the order of ids is that of insertion.
-/

namespace SelectorIndex

/-- The number of a rule. It agrees with a word of 64 bits as long as fewer than 2 ^ 64 rules have
been added to a set. -/
abbrev RuleId := Nat

structure Rule (δ : Type) where
  id : RuleId
  selector : String
  data : δ
  deriving DecidableEq, Repr

/-- A rule with the elements that it matches, in document order. -/
structure QueryMatch (ε δ : Type) where
  rule : Rule δ
  elements : List ε
  deriving DecidableEq, Repr

structure Classification where
  group : String
  /-- The name of an index. -/
  index : String
  key : String
  deriving DecidableEq, Repr

def Classification.text (c : Classification) : String :=
  c.group ++ " -> " ++ c.index ++ "[" ++ c.key ++ "]"

end SelectorIndex
