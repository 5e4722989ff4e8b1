import Std.Data.TreeMap
import SelectorIndex.Classifier
import SelectorIndex.Rule

/-!
# Posting indexes

An index holds, for each key of one classifier, the ids filed under that key in
the order of filing. A rule with several groups under a key is filed there
several times. A key without ids is not kept.
-/

namespace SelectorIndex

structure Index where
  classifier : Classifier
  postings : Std.TreeMap String (List RuleId) := ∅

structure IndexStats where
  name : String
  keys : Nat
  entries : Nat
  deriving DecidableEq, Repr

namespace Index

/-- The ids under a key, in the order of filing. -/
def lookup (ix : Index) (key : String) : List RuleId := ix.postings[key]?.getD []

def insert (ix : Index) (key : String) (id : RuleId) : Index :=
  { ix with postings := ix.postings.alter key fun ids => some (ids.getD [] ++ [id]) }

/-- Some ids as a posting list: `none` if there are none. -/
def posting? : List RuleId → Option (List RuleId)
  | [] => none
  | ids => some ids

/-- The first filing of an id under a key undone. -/
def erase (ix : Index) (key : String) (id : RuleId) : Index :=
  { ix with postings := ix.postings.alter key fun ids => posting? ((ids.getD []).erase id) }

/-- Whether an id is filed under a key, and the index with its first filing there undone. -/
def remove (ix : Index) (key : String) (id : RuleId) : Bool × Index :=
  ((ix.lookup key).contains id, ix.erase key id)

def stats (ix : Index) : IndexStats where
  name := ix.classifier.name
  keys := ix.postings.size
  entries := (ix.postings.toList.flatMap Prod.snd).length

def inspect (ix : Index) : String :=
  "Index \x7b classifier: " ++ ix.classifier.label ++ ", keys: " ++ toString ix.postings.size
    ++ " \x7d"

@[simp] theorem getD_posting? (ids : List RuleId) : (posting? ids).getD [] = ids := by
  cases ids <;> rfl

@[simp] theorem lookup_empty (c : Classifier) (key : String) :
    ({ classifier := c } : Index).lookup key = [] := by
  simp [lookup]

theorem lookup_insert (ix : Index) (key k : String) (id : RuleId) :
    (ix.insert key id).lookup k = if key = k then ix.lookup k ++ [id] else ix.lookup k := by
  simp only [lookup, insert, Std.TreeMap.getElem?_alter, Std.LawfulEqCmp.compare_eq_iff_eq]
  split
  · subst_vars; rfl
  · rfl

theorem lookup_erase (ix : Index) (key k : String) (id : RuleId) :
    (ix.erase key id).lookup k = if key = k then (ix.lookup k).erase id else ix.lookup k := by
  simp only [lookup, erase, Std.TreeMap.getElem?_alter, Std.LawfulEqCmp.compare_eq_iff_eq]
  split
  · subst_vars; simp
  · rfl

end Index

end SelectorIndex
