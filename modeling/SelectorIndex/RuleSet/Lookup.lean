import Std.Data.TreeSet
import SelectorIndex.Host
import SelectorIndex.RuleSet

/-!
# Lookups

Which rules match an element, and how the answer was reached. The candidates
are the rules filed under a key of the element; each is tested once, in the
order of ids, with its whole selector.
-/

namespace SelectorIndex

structure IndexLookup where
  index : String
  key : String
  hits : Nat
  deriving DecidableEq, Repr

/-- A rule that was tested. -/
structure Candidate where
  id : RuleId
  selector : String
  /-- The indexes that led to the rule, in the order of lookups. -/
  via : List String
  accepted : Bool
  deriving DecidableEq, Repr

/-- How a lookup went. -/
structure MatchTrace where
  lookups : List IndexLookup
  candidates : List Candidate
  deriving DecidableEq, Repr

namespace MatchTrace

def accepted (t : MatchTrace) : List RuleId := (t.candidates.filter (·.accepted)).map Candidate.id

def rejected (t : MatchTrace) : Nat := t.candidates.countP (!·.accepted)

end MatchTrace

namespace RuleSet

variable {ε δ : Type}

/-- The ids filed under some key of an element, each once, ascending. -/
def candidates (set : RuleSet δ) (facets : Facets) : List RuleId :=
  let ids := set.indexes.flatMap fun ix => (ix.classifier.elementKeys facets).flatMap ix.lookup
  (Std.TreeSet.ofList ids).toList

/-- The rules that match an element, each tested in turn. -/
def testEach (host : Host ε) (e : ε) : List (Rule δ) → Consult ε (List (Rule δ))
  | [] => pure []
  | r :: rest => do
    let accepted ← Consult.test host e r.selector
    let others ← testEach host e rest
    return if accepted then r :: others else others

/-- The rules that match an element, in the order of ids. -/
def matching (set : RuleSet δ) (host : Host ε) (e : ε) : Consult ε (List (Rule δ)) :=
  testEach host e ((set.candidates (host.facets e)).filterMap set.get?)

/-- No rule matches no element. -/
def matching? (set : RuleSet δ) (host : Host ε) (e? : Option ε) : Consult ε (List (Rule δ)) :=
  e?.elim (pure []) (set.matching host)

/-! ## Traces -/

/-- Every look at a posting list: the index, the key, and the ids found. -/
def lookups (set : RuleSet δ) (facets : Facets) : List (String × String × List RuleId) :=
  set.indexes.flatMap fun ix => (ix.classifier.elementKeys facets).map fun key =>
    (ix.classifier.name, key, ix.lookup key)

/-- A name added to names unless it is among them. -/
def addName (name : String) (names : List String) : List String :=
  if names.contains name then names else names ++ [name]

/-- The indexes that lead to each id. -/
def paths (looks : List (String × String × List RuleId)) : Std.TreeMap RuleId (List String) :=
  looks.foldl (fun via (name, _, ids) => ids.foldl (fun via id =>
    via.alter id fun names => some (addName name (names.getD []))) via) ∅

def traceEach (set : RuleSet δ) (host : Host ε) (e : ε) :
    List (RuleId × List String) → Consult ε (List Candidate)
  | [] => pure []
  | (id, via) :: rest =>
    match set.get? id with
    | none => traceEach set host e rest
    | some r => do
      let accepted ← Consult.test host e r.selector
      let others ← traceEach set host e rest
      return ⟨id, r.selector, via, accepted⟩ :: others

/-- A lookup with everything it looked at. -/
def trace (set : RuleSet δ) (host : Host ε) (e : ε) : Consult ε MatchTrace := do
  let looks := set.lookups (host.facets e)
  let candidates ← set.traceEach host e (paths looks).toList
  return ⟨looks.map fun (index, key, ids) => ⟨index, key, ids.length⟩, candidates⟩

end RuleSet

end SelectorIndex
