import Mathlib.Algebra.GroupWithZero.Nat
import SelectorIndex.Config
import SelectorIndex.RuleList

/-!
# Histories of edits

A set of rules is reached from an empty one by edits: rules added, removed by
their selector or by selector and payload, and read from a configuration. What
every addition and every removal preserves, every history does
(`RuleSet.run_induction`). The same edits work on lists of rules, where a
configuration adds its entries one by one. The ids handed out are natural numbers,
and no history of fewer than 2 ^ 64 additions tells them from words
(`RuleSet.nextId_run_eq_counter`).
-/

namespace SelectorIndex

inductive Edit (δ : Type) where
  | add (selector : String) (data : δ)
  | remove (selector : String)
  | removeWithData (selector : String) (data : δ)
  | extend (config : Config δ)

def Config.Entry.isLoaded {δ : Type} (entry : Config.Entry δ) : Bool :=
  match entry.selector with
  | .string _ => true
  | _ => false

/-- The number of rules that an edit adds. -/
def Edit.adds {δ : Type} : Edit δ → Nat
  | add _ _ => 1
  | extend config => config.rules.countP Config.Entry.isLoaded
  | _ => 0

variable {δ : Type} [BEq δ]

namespace RuleSet

def edit (set : RuleSet δ) : Edit δ → RuleSet δ
  | .add selector data => (set.add selector data).2
  | .remove selector => (set.remove selector).2
  | .removeWithData selector data => (set.removeWithData selector data).2
  | .extend config => (set.extend config).2

/-- The set after a history of edits. -/
def run (set : RuleSet δ) (edits : List (Edit δ)) : RuleSet δ := edits.foldl edit set

omit [BEq δ] in
theorem addEntries_induction {P : RuleSet δ → Prop}
    (add : ∀ set selector data, P set → P (set.add selector data).2)
    (entries : List (Config.Entry δ)) (set : RuleSet δ) (h : P set) :
    P (set.addEntries entries).2 := by
  fun_induction addEntries set entries with
  | case1 => exact h
  | case2 set entry rest selector _ id set' hadd ids set'' hrest ih =>
    rw [hrest] at ih
    refine ih ?_
    have := add set selector entry.data h
    rwa [hadd] at this
  | case3 set entry rest _ ih => exact ih h

theorem edit_induction {P : RuleSet δ → Prop}
    (add : ∀ set selector data, P set → P (set.add selector data).2)
    (remove : ∀ set selector eligible, P set → P (set.removeWhere selector eligible).2)
    (set : RuleSet δ) (h : P set) (e : Edit δ) : P (set.edit e) := by
  cases e with
  | add selector data => exact add _ _ _ h
  | remove selector => exact remove _ _ _ h
  | removeWithData selector data => exact remove _ _ _ h
  | extend config => exact addEntries_induction add config.rules set h

/-- What additions and removals preserve holds after every history. -/
theorem run_induction {P : RuleSet δ → Prop}
    (add : ∀ set selector data, P set → P (set.add selector data).2)
    (remove : ∀ set selector eligible, P set → P (set.removeWhere selector eligible).2)
    (set : RuleSet δ) (h : P set) (edits : List (Edit δ)) : P (set.run edits) := by
  induction edits generalizing set with
  | nil => exact h
  | cons e rest ih => exact ih (set.edit e) (edit_induction add remove set h e)

omit [BEq δ] in
theorem nextId_addEntries (set : RuleSet δ) (entries : List (Config.Entry δ)) :
    (set.addEntries entries).2.nextId =
      set.nextId + entries.countP Config.Entry.isLoaded := by
  fun_induction addEntries set entries with
  | case1 => rfl
  | case2 set entry rest selector hs id set' hadd ids set'' hrest ih =>
    have hnext : set'.nextId = set.nextId + 1 := congrArg (·.2.nextId) hadd.symm
    rw [hrest] at ih
    rw [List.countP_cons_of_pos (by simp [Config.Entry.isLoaded, hs])]
    show set''.nextId = _
    rw [ih, hnext, Nat.add_assoc, Nat.add_comm 1]
  | case3 set entry rest hs ih =>
    rw [List.countP_cons_of_neg, ih]
    unfold Config.Entry.isLoaded
    split
    · rename_i selector heq
      exact absurd heq (hs selector)
    · simp

omit [BEq δ] in
theorem nextId_removeWhere (set : RuleSet δ) (selector : String) (eligible : δ → Bool) :
    (set.removeWhere selector eligible).2.nextId = set.nextId := by
  unfold removeWhere
  split <;> rfl

/-- The ids handed out are counted by the rules added, so none is handed out twice. -/
theorem nextId_run (set : RuleSet δ) (edits : List (Edit δ)) :
    (set.run edits).nextId = set.nextId + (edits.map Edit.adds).sum := by
  induction edits generalizing set with
  | nil => rfl
  | cons e rest ih =>
    have hedit : (set.edit e).nextId = set.nextId + e.adds := by
      cases e with
      | add selector data => rfl
      | remove selector => exact nextId_removeWhere _ _ _
      | removeWithData selector data => exact nextId_removeWhere _ _ _
      | extend config => exact nextId_addEntries set config.rules
    rw [run, List.foldl_cons, ← run, ih, hedit, List.map_cons, List.sum_cons, Nat.add_assoc]

/-- A counter of 64 bits that goes on by one for each rule added. -/
def counter (edits : List (Edit δ)) (start : UInt64) : UInt64 :=
  edits.foldl (fun n e => n + .ofNat e.adds) start

omit [BEq δ] in
theorem toNat_counter (edits : List (Edit δ)) (start : UInt64)
    (h : start.toNat + (edits.map Edit.adds).sum < 2 ^ 64) :
    (counter edits start).toNat = start.toNat + (edits.map Edit.adds).sum := by
  induction edits generalizing start with
  | nil => rfl
  | cons e rest ih =>
    rw [List.map_cons, List.sum_cons] at h
    have hnext : (start + UInt64.ofNat e.adds).toNat = start.toNat + e.adds := by
      rw [UInt64.toNat_add, UInt64.toNat_ofNat']
      omega
    rw [counter, List.foldl_cons, ← counter, ih _ (by omega), hnext, List.map_cons, List.sum_cons]
    omega

/-- Ids are those of a counter of 64 bits, as long as fewer than 2 ^ 64 rules are added. -/
theorem nextId_run_eq_counter (classifiers : List Classifier) (edits : List (Edit δ))
    (h : (edits.map Edit.adds).sum < 2 ^ 64) :
    ((withClassifiers classifiers).run edits).nextId = (counter edits 0).toNat := by
  have hstart : (0 : UInt64).toNat = 0 := rfl
  rw [nextId_run, toNat_counter edits 0 (by omega), hstart]
  rfl

end RuleSet

namespace RuleList

omit [BEq δ] in
def addEntries (l : RuleList δ) (entries : List (Config.Entry δ)) : RuleList δ :=
  entries.foldl (fun l entry =>
    match entry.selector with
    | .string selector => l.add selector entry.data
    | _ => l) l

def edit (l : RuleList δ) : Edit δ → RuleList δ
  | .add selector data => l.add selector data
  | .remove selector => (l.remove selector).2
  | .removeWithData selector data => (l.removeWithData selector data).2
  | .extend config => l.addEntries config.rules

/-- The list after a history of edits. -/
def run (l : RuleList δ) (edits : List (Edit δ)) : RuleList δ := edits.foldl edit l

end RuleList

end SelectorIndex
