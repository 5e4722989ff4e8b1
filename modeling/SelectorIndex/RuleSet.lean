import SelectorIndex.Index
import SelectorIndex.Selector.Group

/-!
# Sets of rules

A set keeps its rules by id and files each group of a rule in the index of the
first classifier with a key for it. Where a rule was filed is remembered, so
that it can be taken out without reading its selector again. Adding and
removing never fail: a selector without groups is kept but filed nowhere, and a
removal of nothing changes nothing.
-/

namespace SelectorIndex

/-- A rule and the slots of its groups. -/
structure PlacedRule (δ : Type) where
  rule : Rule δ
  placements : List Placement
  deriving DecidableEq, Repr

/-- Rules filed by what their selectors end in. -/
structure RuleSet (δ : Type) where
  /-- One index for each classifier, the universal one last. -/
  indexes : List Index
  rules : Std.TreeMap RuleId (PlacedRule δ) := ∅
  nextId : RuleId := 0

/-- The groups of a selector that some classifier has a key for, with their slots. -/
def Placement.ofSelector (classifiers : List Classifier) (selector : String) :
    List (String × Placement) :=
  (Selector.groups selector).filterMap fun g => (ofGroup? classifiers g.text).map (g.text, ·)

namespace RuleSet

variable {δ : Type}

/-- The empty set of some classifiers, the universal one added to them. -/
def withClassifiers (classifiers : List Classifier) : RuleSet δ where
  indexes := (classifiers ++ [Classifier.universal]).map fun c => { classifier := c }

def empty : RuleSet δ := withClassifiers Classifier.builtin

def classifiers (set : RuleSet δ) : List Classifier := set.indexes.map Index.classifier

def size (set : RuleSet δ) : Nat := set.rules.size

def isEmpty (set : RuleSet δ) : Bool := set.rules.isEmpty

/-- The live rules with their slots, in the order of their ids. -/
def placed (set : RuleSet δ) : List (PlacedRule δ) := set.rules.toList.map Prod.snd

/-- The live rules in the order of their ids. -/
def toList (set : RuleSet δ) : List (Rule δ) := set.placed.map PlacedRule.rule

def get? (set : RuleSet δ) (id : RuleId) : Option (Rule δ) := set.rules[id]?.map PlacedRule.rule

def stats (set : RuleSet δ) : List IndexStats := set.indexes.map Index.stats

/-- Where the groups of a selector are or would be filed. -/
def classify (set : RuleSet δ) (selector : String) : List Classification :=
  (Placement.ofSelector set.classifiers selector).map fun (group, p) =>
    ⟨group, (set.classifiers[p.index]?).elim "" Classifier.name, p.key⟩

/-! ## Adding and removing -/

def insertPosting (id : RuleId) (indexes : List Index) (p : Placement) : List Index :=
  indexes.modify p.index fun ix => ix.insert p.key id

def erasePosting (id : RuleId) (indexes : List Index) (p : Placement) : List Index :=
  indexes.modify p.index fun ix => (ix.remove p.key id).2

/-- The set with one more rule, and its id. -/
def add (set : RuleSet δ) (selector : String) (data : δ) : RuleId × RuleSet δ :=
  let id := set.nextId
  let placements := (Placement.ofSelector set.classifiers selector).map Prod.snd
  (id, {
    indexes := placements.foldl (insertPosting id) set.indexes
    rules := set.rules.insert id ⟨⟨id, selector, data⟩, placements⟩
    nextId := id + 1 })

/-- The set without the last rule that has this very selector and an eligible payload, and that
rule. -/
def removeWhere (set : RuleSet δ) (selector : String) (eligible : δ → Bool) :
    Option (Rule δ) × RuleSet δ :=
  match set.placed.reverse.find? fun p =>
      p.rule.selector == selector && eligible p.rule.data with
  | none => (none, set)
  | some p => (some p.rule, { set with
      indexes := p.placements.foldl (erasePosting p.rule.id) set.indexes
      rules := set.rules.erase p.rule.id })

/-- The set without the last rule that has this very selector. -/
def remove (set : RuleSet δ) (selector : String) : Option (Rule δ) × RuleSet δ :=
  set.removeWhere selector fun _ => true

def removeWithData [BEq δ] (set : RuleSet δ) (selector : String) (data : δ) :
    Option (Rule δ) × RuleSet δ :=
  set.removeWhere selector (· == data)

def inspect (set : RuleSet δ) : String :=
  "SelectorSet \x7b rules: " ++ toString set.size ++ ", next_id: " ++ toString set.nextId
    ++ ", indexes: [" ++ ", ".intercalate (set.indexes.map Index.inspect) ++ "], .. \x7d"

end RuleSet

end SelectorIndex
