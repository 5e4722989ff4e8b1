import SelectorIndex.Host
import SelectorIndex.Selector.Group

/-!
# Lists of rules

The plain counterpart of a set of rules: every lookup asks the host about every
rule. A rule whose selector has no groups matches nothing and is passed over.
-/

namespace SelectorIndex

structure RuleList (δ : Type) where
  rules : List (String × δ) := []
  deriving DecidableEq, Repr

namespace RuleList

variable {ε δ : Type}

def size (l : RuleList δ) : Nat := l.rules.length

def isEmpty (l : RuleList δ) : Bool := l.rules.isEmpty

def add (l : RuleList δ) (selector : String) (data : δ) : RuleList δ :=
  ⟨l.rules ++ [(selector, data)]⟩

/-- The list without its last item that satisfies `p`; `none` if there is none. -/
def eraseLast? {α : Type} (p : α → Bool) : List α → Option (List α)
  | [] => none
  | a :: rest =>
    match eraseLast? p rest with
    | some kept => some (a :: kept)
    | none => if p a then some rest else none

/-- Whether there was such a rule, and the list without the last one. -/
def removeWhere (l : RuleList δ) (p : String × δ → Bool) : Bool × RuleList δ :=
  match eraseLast? p l.rules with
  | some rules => (true, ⟨rules⟩)
  | none => (false, l)

def remove (l : RuleList δ) (selector : String) : Bool × RuleList δ :=
  l.removeWhere fun r => r.1 == selector

def removeWithData [BEq δ] (l : RuleList δ) (selector : String) (data : δ) :
    Bool × RuleList δ :=
  l.removeWhere fun r => r.1 == selector && r.2 == data

/-- The rules whose selector has a group. -/
def filed (l : RuleList δ) : List (String × δ) :=
  l.rules.filter fun r => !(Selector.groups r.1).isEmpty

def testEach (host : Host ε) (e : ε) : List (String × δ) → Consult ε (List (String × δ))
  | [] => pure []
  | r :: rest => do
    let accepted ← Consult.test host e r.1
    let others ← testEach host e rest
    return if accepted then r :: others else others

/-- The rules that match an element. -/
def matching (l : RuleList δ) (host : Host ε) (e : ε) : Consult ε (List (String × δ)) :=
  testEach host e l.filed

def selectEach (host : Host ε) (root : ε) :
    List (String × δ) → Consult ε (List (String × δ × List ε))
  | [] => pure []
  | (selector, data) :: rest => do
    let elements ← Consult.select host root selector
    let others ← selectEach host root rest
    return if elements.isEmpty then others else (selector, data, elements) :: others

/-- Every rule that matches some element below the root, with those elements. -/
def queryAll (l : RuleList δ) (host : Host ε) (root : ε) :
    Consult ε (List (String × δ × List ε)) :=
  selectEach host root l.filed

def inspect (l : RuleList δ) : String :=
  "LinearSelectorSet \x7b rules: " ++ toString l.size ++ ", .. \x7d"

end RuleList

end SelectorIndex
