import SelectorIndex.Config
import SelectorIndex.Document.Matching
import SelectorIndex.RuleSet.Query

/-!
# Fixtures

A fixture is a document and a list of rules with the results expected of them:
the number of rules left after some removals, the rules that match picked
elements, and the answer to a query of the whole document. Running it gives one
verdict for each expectation. A verdict compares values of one kind: where a
lookup failed and a list was expected, or the other way round, their texts are
compared, which never agree.
-/

namespace SelectorIndex

/-- A removal; with a payload, only a rule with that payload is removed. -/
structure Removal where
  selector : String
  data? : Option String := none
  deriving DecidableEq, Repr

structure MatchCase where
  name : String
  /-- Picks the first element that matches it; the root if absent. -/
  select? : Option String := none
  /-- Selectors, in the order of ids. -/
  expect : List String := []
  /-- The lookup is expected to fail. -/
  error : Bool := false
  deriving DecidableEq, Repr

/-- A rule and the short forms of the elements it is expected to match. -/
structure QueryExpect where
  selector : String
  elements : List String
  deriving DecidableEq, Repr

structure QueryCase where
  name : String
  expect : List QueryExpect
  deriving DecidableEq, Repr

structure Fixture where
  name : String
  description : String := ""
  document : Node
  rules : List (Config.Entry String)
  removals : List Removal := []
  /-- The expected number of rules after all removals. -/
  size? : Option Nat := none
  cases : List MatchCase := []
  queries : List QueryCase := []
  deriving Repr

/-- The verdict on one expectation, with both values in writing. -/
structure CaseResult where
  name : String
  passed : Bool
  expected : String
  actual : String
  deriving DecidableEq, Repr

namespace CaseResult

open Text

def compare {α : Type} [DecidableEq α] (write : α → String) (name : String) (expected actual : α) :
    CaseResult :=
  ⟨name, expected = actual, write expected, write actual⟩

def ofTexts : String → String → String → CaseResult := compare quoted

def ofLists : String → List String → List String → CaseResult := compare quotedList

end CaseResult

def QueryExpect.text (x : QueryExpect) : String :=
  "QueryExpect \x7b selector: " ++ Text.quoted x.selector ++ ", elements: "
    ++ Text.quotedList x.elements ++ " \x7d"

def QueryExpect.listText (xs : List QueryExpect) : String :=
  Text.bracketed (xs.map QueryExpect.text)

namespace Fixture

def buildSet (f : Fixture) : RuleSet String :=
  f.removals.foldl (fun set r =>
    match r.data? with
    | some data => (set.removeWithData r.selector data).2
    | none => (set.remove r.selector).2) (RuleSet.empty.extend ⟨f.rules⟩).2

def runSize (set : RuleSet String) (size : Nat) : CaseResult :=
  CaseResult.compare toString "size" size set.size

def runCase (set : RuleSet String) (doc : Document) (c : MatchCase) : CaseResult :=
  let picked := c.select?.elim (some 0) (doc.find? 0)
  match (set.matching? doc.host picked).result, c.error with
  | .error _, true => .ofTexts c.name "error" "error"
  | .ok rules, true => .ofTexts c.name "error" (Text.quotedList (rules.map Rule.selector))
  | .ok rules, false => .ofLists c.name c.expect (rules.map Rule.selector)
  | .error cause, false => .ofTexts c.name (Text.quotedList c.expect) cause.message

def runQuery (set : RuleSet String) (doc : Document) (c : QueryCase) : CaseResult :=
  match (set.queryAll doc.host 0).result with
  | .ok found =>
    let actual := found.map fun m => ⟨m.rule.selector, m.elements.map doc.describe⟩
    .compare QueryExpect.listText c.name c.expect actual
  | .error cause => .ofTexts c.name (QueryExpect.listText c.expect) cause.message

/-- The verdicts on the size, the cases and the queries, in this order. -/
def run (f : Fixture) : List CaseResult :=
  let set := f.buildSet
  let doc := Document.ofNode f.document
  f.size?.toList.map (runSize set) ++ f.cases.map (runCase set doc)
    ++ f.queries.map (runQuery set doc)

def firstFailure? (f : Fixture) : Option String :=
  (f.run.find? (!·.passed)).map fun r =>
    "Fixture '" ++ f.name ++ "' case '" ++ r.name ++ "' failed: expected " ++ r.expected
      ++ ", got " ++ r.actual

end Fixture

end SelectorIndex
