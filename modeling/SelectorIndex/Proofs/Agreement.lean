import SelectorIndex.Proofs.Keys
import SelectorIndex.Proofs.Lists
import SelectorIndex.Proofs.Queries

/-!
# Sets answer as lists do

A list of rules asks a document about every rule, a set only about candidates.
With built-in classifiers, and wherever the list answers, the set answers the
same, but for rules whose selectors are not regular: of these it may miss some
elements, and it adds none.
-/

namespace SelectorIndex

open Selector

variable {δ : Type}

namespace RuleSet

variable {set : RuleSet δ} {l : RuleList δ} {doc : Document}

/-! ## What the list relies on -/

def hasGroup (selector : String) : Bool := !(groups selector).isEmpty

theorem hasGroup_of_isFiled {classifiers : List Classifier} {r : Rule δ}
    (h : isFiled classifiers r = true) : hasGroup r.selector = true := by
  rw [isFiled, Bool.not_eq_true', List.isEmpty_eq_false_iff] at h
  obtain ⟨slot, hslot⟩ := List.exists_mem_of_ne_nil _ h
  obtain ⟨g, hg, -⟩ := Placement.mem_slots.1 hslot
  rw [hasGroup, Bool.not_eq_true', List.isEmpty_eq_false_iff]
  exact List.ne_nil_of_mem hg

theorem filed_eq_of_mirrors (h : l.Mirrors set) :
    l.filed = (set.toList.filter fun r => hasGroup r.selector).map Rule.item := by
  rw [RuleList.filed, h, List.filter_map]
  rfl

/-- Every rule with a group has a selector that the document can read. -/
def AllReadable (set : RuleSet δ) : Prop :=
  ∀ r ∈ set.toList, hasGroup r.selector = true → IsReadable r.selector

theorem allReadable_of_filed (h : l.Mirrors set) (ha : ∀ r ∈ l.filed, IsReadable r.1) :
    set.AllReadable := by
  intro r hr hgroup
  refine ha r.item ?_
  rw [filed_eq_of_mirrors h]
  exact List.mem_map_of_mem (List.mem_filter.2 ⟨hr, hgroup⟩)

theorem AllReadable.filed (h : set.AllReadable) (hf : WellFiled set) :
    ∀ r ∈ set.filed, IsReadable r.selector := by
  intro r hr
  obtain ⟨hmem, hfiled⟩ := hf.mem_filed.1 hr
  exact h r hmem (hasGroup_of_isFiled hfiled)

/-- A rule with a regular selector is a hit of every element that matches it. -/
theorem isHit_of_regular {classifiers : List Classifier}
    (hbuiltin : ∀ c ∈ classifiers, c ∈ Classifier.builtin ++ [Classifier.universal])
    {r : Rule δ} (hread : IsReadable r.selector) (hreg : Regular r.selector.toList) (e : Nat) :
    isHit (classifiers ++ [Classifier.universal]) doc.host e r =
      doc.host.accepts e r.selector := by
  cases haccepts : doc.host.accepts e r.selector with
  | false => rw [isHit, haccepts, Bool.and_false]
  | true =>
    rw [isHit, haccepts, Bool.and_true]
    exact isCandidate_of_hasChain hbuiltin hreg ((Document.accepts_host_iff hread).1 haccepts)

/-! ## Lookups -/

/-- What a lookup in a list finds, a lookup in a set finds, but for irregular selectors. -/
theorem matching_of_list {classifiers : List Classifier}
    (hbuiltin : ∀ c ∈ classifiers, c ∈ Classifier.builtin ++ [Classifier.universal])
    (hf : WellFiled set) (hclass : set.classifiers = classifiers ++ [Classifier.universal])
    (hm : l.Mirrors set) {e : Nat} {answer : List (String × δ)}
    (h : (l.matching doc.host e).result = .ok answer) :
    ∃ rules found : List (Rule δ), rules.Sublist set.toList ∧ rules.map Rule.item = answer ∧
      (set.matching doc.host e).result = .ok found ∧ found.Sublist rules ∧
      ∀ r ∈ rules, Regular r.selector.toList → r ∈ found := by
  obtain ⟨hanswers, rfl⟩ := RuleList.of_testEach_eq_ok h
  -- the list was answered about every rule with a group, so no lookup of the set can fail
  have hread : set.AllReadable := allReadable_of_filed hm fun r hr =>
    Document.answers_host_iff.1 (hanswers r hr)
  let rules := (set.toList.filter fun r => hasGroup r.selector).filter fun r =>
    doc.host.accepts e r.selector
  have hfound : (set.matching doc.host e).result =
      .ok (rules.filter (isHit set.classifiers doc.host e)) := by
    rw [hf.result_matching doc.host e fun r hr =>
      Document.answers_host_iff.2 (hread.filed hf r hr)]
    rw [List.filter_filter, List.filter_filter]
    refine congrArg Except.ok (List.filter_congr fun r _ => ?_)
    cases hhit : isHit set.classifiers doc.host e r with
    | false => rfl
    | true =>
      obtain ⟨hc, haccepts⟩ := Bool.and_eq_true_iff.1 hhit
      rw [haccepts, hasGroup_of_isFiled (isFiled_of_isCandidate hc)]
      rfl
  refine ⟨rules, _, List.filter_sublist.trans List.filter_sublist, ?_, hfound,
    List.filter_sublist, fun r hr hreg => ?_⟩
  · rw [filed_eq_of_mirrors hm, List.filter_map]
    rfl
  · obtain ⟨hmem, haccepts⟩ := List.mem_filter.1 hr
    obtain ⟨hlive, hgroup⟩ := List.mem_filter.1 hmem
    refine List.mem_filter.2 ⟨hr, ?_⟩
    rw [hclass, isHit_of_regular hbuiltin (hread r hlive hgroup) hreg]
    exact haccepts

/-! ## Queries -/

theorem filterMap_matchOf {ε : Type} (rules : List (Rule δ)) (elements : Rule δ → List ε) :
    (rules.filterMap fun r => matchOf r (elements r)) =
      (rules.filter fun r => !(elements r).isEmpty).map fun r => ⟨r, elements r⟩ := by
  rw [← List.filterMap_eq_map, List.filterMap_filter]
  refine List.filterMap_congr fun r _ => ?_
  rw [matchOf]
  cases (elements r).isEmpty <;> rfl

/-- The elements that a list gives to a rule. -/
def listedElements (doc : Document) (root : Nat) (r : Rule δ) : List Nat :=
  if hasGroup r.selector then
    (doc.descendants root).filter fun e => doc.host.accepts e r.selector
  else []

theorem elementsOf_sublist (classifiers : List Classifier) (root : Nat) (r : Rule δ) :
    (elementsOf classifiers doc.host (doc.descendants root) r).Sublist
      (listedElements doc root r) := by
  rw [elementsOf]
  split
  · rename_i hfiled
    rw [listedElements, if_pos (hasGroup_of_isFiled hfiled)]
    refine List.monotone_filter_right _ fun e he => ?_
    split at he
    · exact (Bool.and_eq_true_iff.1 he).2
    · exact he
  · exact List.nil_sublist _

theorem elementsOf_of_regular {classifiers : List Classifier}
    (hbuiltin : ∀ c ∈ classifiers, c ∈ Classifier.builtin ++ [Classifier.universal])
    {r : Rule δ} (hread : hasGroup r.selector = true → IsReadable r.selector)
    (hreg : Regular r.selector.toList) (root : Nat) :
    elementsOf (classifiers ++ [Classifier.universal]) doc.host (doc.descendants root) r =
      listedElements doc root r := by
  cases hgroup : hasGroup r.selector with
  | false =>
    have hfiled : ¬ isFiled (classifiers ++ [Classifier.universal]) r = true := fun hfiled => by
      rw [hasGroup_of_isFiled hfiled] at hgroup
      cases hgroup
    rw [elementsOf, if_neg hfiled, listedElements, hgroup]
    rfl
  | true =>
    have hhit (e : Nat) : isHit (classifiers ++ [Classifier.universal]) doc.host e r =
        doc.host.accepts e r.selector := isHit_of_regular hbuiltin (hread hgroup) hreg e
    rw [listedElements, if_pos hgroup, elementsOf]
    split
    · refine List.filter_congr fun e _ => ?_
      rw [hhit, ite_self]
    · rename_i hfiled
      refine (List.filter_eq_nil_iff.2 fun e _ haccepts => hfiled ?_).symm
      rw [← hhit] at haccepts
      exact isFiled_of_isCandidate (Bool.and_eq_true_iff.1 haccepts).1

/-- What a query of a list finds, a query of a set finds, but for irregular selectors. -/
theorem queryAll_of_list {classifiers : List Classifier}
    (hbuiltin : ∀ c ∈ classifiers, c ∈ Classifier.builtin ++ [Classifier.universal])
    (hf : WellFiled set) (hclass : set.classifiers = classifiers ++ [Classifier.universal])
    (hm : l.Mirrors set) {root : Nat} {answer : List (String × δ × List Nat)}
    (h : (l.queryAll doc.host root).result = .ok answer) :
    ∃ elements found : Rule δ → List Nat,
      answer = ((set.toList.filter fun r => !(elements r).isEmpty).map fun r =>
        (r.selector, r.data, elements r)) ∧
      (set.queryAll doc.host root).result =
        .ok ((set.toList.filter fun r => !(found r).isEmpty).map fun r => ⟨r, found r⟩) ∧
      ∀ r ∈ set.toList, (found r).Sublist (elements r) ∧
        (Regular r.selector.toList → found r = elements r) := by
  obtain ⟨hselect, rfl⟩ := RuleList.of_selectEach_eq_ok h
  have hread : set.AllReadable := allReadable_of_filed hm fun r hr =>
    Document.isReadable_of_select (hselect r hr)
  have hlisted : ∀ r ∈ set.toList, hasGroup r.selector = true →
      doc.host.selected root r.selector = listedElements doc root r := fun r hr hgroup => by
    rw [listedElements, if_pos hgroup]
    exact Host.selected_of_select (Document.select_host (hread r hr hgroup))
  refine ⟨listedElements doc root,
    elementsOf set.classifiers doc.host (doc.descendants root), ?_, ?_, fun r hr => ?_⟩
  · rw [filed_eq_of_mirrors hm, List.filter_map, List.map_map, List.filter_filter]
    have hfilter : (set.toList.filter fun r =>
        ((fun r => !(doc.host.selected root r.1).isEmpty) ∘ Rule.item) r && hasGroup r.selector) =
        set.toList.filter fun r => !(listedElements doc root r).isEmpty := by
      refine List.filter_congr fun r hr => ?_
      cases hgroup : hasGroup r.selector with
      | false => rw [Bool.and_false, listedElements, hgroup]; rfl
      | true => rw [← hlisted r hr hgroup, Bool.and_true]; rfl
    rw [hfilter]
    refine List.map_congr_left fun r hr => ?_
    obtain ⟨hlive, hne⟩ := List.mem_filter.1 hr
    cases hgroup : hasGroup r.selector with
    | false =>
      rw [listedElements, hgroup] at hne
      cases hne
    | true =>
      rw [← hlisted r hlive hgroup]
      rfl
  · rw [hf.result_queryAll (Document.obeys_host doc) (hread.filed hf) root, filterMap_matchOf]
  · refine ⟨elementsOf_sublist _ root r, fun hreg => ?_⟩
    rw [hclass]
    exact elementsOf_of_regular hbuiltin (hread r hr) hreg root

/-! ## After any history -/

/-- Where a list answers about a document, a set of built-in classifiers with the same history
answers the same, in the same order, but for rules with irregular selectors: a lookup may miss
those, and a query some of their elements. -/
theorem answers_as_list [BEq δ] {classifiers : List Classifier}
    (hbuiltin : ∀ c ∈ classifiers, c ∈ Classifier.builtin ++ [Classifier.universal])
    (edits : List (Edit δ)) (doc : Document) (e : Nat) :
    let set := (withClassifiers classifiers).run edits
    let list := ({} : RuleList δ).run edits
    (∀ answer, (list.matching doc.host e).result = .ok answer →
      ∃ rules found : List (Rule δ),
        rules.Sublist set.toList ∧ (rules.map fun r => (r.selector, r.data)) = answer ∧
        (set.matching doc.host e).result = .ok found ∧ found.Sublist rules ∧
        ∀ r ∈ rules, Regular r.selector.toList → r ∈ found) ∧
    (∀ answer, (list.queryAll doc.host e).result = .ok answer →
      ∃ elements found : Rule δ → List Nat,
        answer = ((set.toList.filter fun r => !(elements r).isEmpty).map fun r =>
          (r.selector, r.data, elements r)) ∧
        (set.queryAll doc.host e).result =
          .ok ((set.toList.filter fun r => !(found r).isEmpty).map fun r => ⟨r, found r⟩) ∧
        ∀ r ∈ set.toList, (found r).Sublist (elements r) ∧
          (Regular r.selector.toList → found r = elements r)) := by
  have hf := wellFiled_run classifiers edits
  have hclass : ((withClassifiers classifiers).run edits : RuleSet δ).classifiers =
      classifiers ++ [Classifier.universal] := by simp
  have hm := RuleList.mirrors_run classifiers edits
  exact ⟨fun _ h => matching_of_list hbuiltin hf hclass hm h,
    fun _ h => queryAll_of_list hbuiltin hf hclass hm h⟩

def nestedPage : Document := .ofNode { tag := "p", children := [{ tag := "P", id? := some "b" }] }

/-- A history that leaves one rule for every paragraph and one for articles. -/
def nestedEdits : List (Edit Nat) :=
  [.add "p, #b" 0, .add "p > p" 1, .add "article" 2, .remove "p > p"]

theorem answers_as_list_nested :
    let set : RuleSet Nat := (withClassifiers Classifier.builtin).run nestedEdits
    let list := ({} : RuleList Nat).run nestedEdits
    (∀ c ∈ Classifier.builtin, c ∈ Classifier.builtin ++ [Classifier.universal]) ∧
    (list.matching nestedPage.host 0).result = .ok [("p, #b", 0)] ∧
    (list.queryAll nestedPage.host 0).result = .ok [("p, #b", 0, [1])] ∧
    (∃ rules found : List (Rule Nat),
      rules.Sublist set.toList ∧ (rules.map fun r => (r.selector, r.data)) = [("p, #b", 0)] ∧
      (set.matching nestedPage.host 0).result = .ok found ∧ found.Sublist rules ∧
      ∀ r ∈ rules, Regular r.selector.toList → r ∈ found) ∧
    (∃ elements found : Rule Nat → List Nat,
      [("p, #b", 0, [1])] = ((set.toList.filter fun r => !(elements r).isEmpty).map fun r =>
        (r.selector, r.data, elements r)) ∧
      (set.queryAll nestedPage.host 0).result =
        .ok ((set.toList.filter fun r => !(found r).isEmpty).map fun r => ⟨r, found r⟩) ∧
      ∀ r ∈ set.toList, (found r).Sublist (elements r) ∧
        (Regular r.selector.toList → found r = elements r)) := by
  intro set list
  have hbuiltin : ∀ c ∈ Classifier.builtin, c ∈ Classifier.builtin ++ [Classifier.universal] :=
    fun c hc => List.mem_append_left _ hc
  have hmatching : (list.matching nestedPage.host 0).result = .ok [("p, #b", 0)] := by
    decide +kernel
  have hquery : (list.queryAll nestedPage.host 0).result = .ok [("p, #b", 0, [1])] := by
    decide +kernel
  obtain ⟨hlookup, hall⟩ := answers_as_list hbuiltin nestedEdits nestedPage 0
  exact ⟨hbuiltin, hmatching, hquery, hlookup _ hmatching, hall _ hquery⟩

end RuleSet

end SelectorIndex
