import SelectorIndex.RuleSet.Lookup

/-!
# Queries

Which elements below a root does each rule match. The distinct selectors of the
filed rules are joined into one list, which the host is asked for once; every
element it finds is then looked up. A selector that would swallow what follows
it in the list is queried alone, and its rules take what the host finds.
-/

namespace SelectorIndex

/-- How the host is asked for the elements of a query. -/
structure QueryPlan where
  /-- Asked for together, as one list. -/
  joined : List String
  /-- Asked for one by one. -/
  isolated : List String
  deriving DecidableEq, Repr

namespace RuleSet

variable {ε δ : Type}

/-- The rules that are filed somewhere, in the order of ids. -/
def filed (set : RuleSet δ) : List (Rule δ) :=
  (set.placed.filter fun p => !p.placements.isEmpty).map PlacedRule.rule

/-- The distinct selectors of the filed rules, in the order of ids. -/
def queryPlan (set : RuleSet δ) : QueryPlan :=
  let (joined, isolated) :=
    (set.filed.map Rule.selector).eraseDups.partition Selector.isSelfContained
  ⟨joined, isolated⟩

def matchEach (set : RuleSet δ) (host : Host ε) : List ε → Consult ε (List (ε × List (Rule δ)))
  | [] => pure []
  | e :: rest => do
    let rules ← set.matching host e
    let others ← matchEach set host rest
    return (e, rules) :: others

/-- The elements that match some joined selector, with their rules. -/
def queryJoined (set : RuleSet δ) (host : Host ε) (root : ε) :
    List String → Consult ε (List (ε × List (Rule δ)))
  | [] => pure []
  | selectors => do
    let elements ← Consult.select host root (", ".intercalate selectors)
    set.matchEach host elements

def queryIsolated (host : Host ε) (root : ε) : List String → Consult ε (List (String × List ε))
  | [] => pure []
  | selector :: rest => do
    let elements ← Consult.select host root selector
    let others ← queryIsolated host root rest
    return (selector, elements) :: others

abbrev Found (ε δ : Type) := Std.TreeMap RuleId (QueryMatch ε δ)

/-- One more element, before the others of its rule. -/
def addElement (e : ε) (found : Found ε δ) (rule : Rule δ) : Found ε δ :=
  found.alter rule.id fun m => some ⟨rule, e :: (m.map QueryMatch.elements).getD []⟩

/-- The elements of each rule with a selector other than the isolated ones. -/
def gather (isolated : List String) (hits : List (ε × List (Rule δ))) : Found ε δ :=
  hits.foldr (fun (e, rules) found =>
    (rules.filter fun r => !isolated.contains r.selector).foldl (addElement e) found) ∅

/-- The elements of an isolated selector, if there are any, for every filed rule with it. -/
def addIsolated (set : RuleSet δ) (found : Found ε δ) : String × List ε → Found ε δ
  | (_, []) => found
  | (selector, elements) => (set.filed.filter fun r => r.selector == selector).foldl
      (fun found r => found.insert r.id ⟨r, elements⟩) found

/-- Every rule that matches some element below the root, in the order of ids. -/
def queryAll (set : RuleSet δ) (host : Host ε) (root : ε) :
    Consult ε (List (QueryMatch ε δ)) := do
  let plan := set.queryPlan
  let hits ← set.queryJoined host root plan.joined
  let alone ← queryIsolated host root plan.isolated
  return (alone.foldl set.addIsolated (gather plan.isolated hits)).toList.map Prod.snd

/-- Nothing is below no root. -/
def queryAll? (set : RuleSet δ) (host : Host ε) (root? : Option ε) :
    Consult ε (List (QueryMatch ε δ)) :=
  root?.elim (pure []) (set.queryAll host)

end RuleSet

end SelectorIndex
