import SelectorIndex.Fixture
import SelectorIndex.Proofs.DocumentOrder
import SelectorIndex.Proofs.Documents
import SelectorIndex.Proofs.Lists

/-!
# Verdicts of fixtures

When a fixture meets what it expects is said here without texts: the size is that
of a plain list with the same history (`Fixture.rulesLeft`), a lookup is that of
the first element that fits (`Answered`), and its answer is one of rules or a
failure. A verdict compares texts where a value of one kind was expected and one
of another kind came: a list and the word for a failure, or a list and the
message of one. A list in writing begins with a bracket, and neither of the
others does, so these verdicts never pass (`passed_runCase_iff`,
`passed_runQuery_iff`).
-/

namespace SelectorIndex

open Selector Text

/-! ## Texts of two kinds -/

theorem head?_toList_append {a : String} {c : Char} (h : a.toList.head? = some c) (b : String) :
    (a ++ b).toList.head? = some c := by
  rw [String.toList_append, List.head?_append, h, Option.some_or]

theorem head?_bracketed (items : List String) : (bracketed items).toList.head? = some '[' :=
  head?_toList_append (head?_toList_append (by decide) _) "]"

theorem ne_bracketed {text : String} (h : text.toList.head? ≠ some '[') (items : List String) :
    text ≠ bracketed items := by
  rintro rfl
  exact h (head?_bracketed items)

theorem Failure.head?_message (cause : Failure) : cause.message.toList.head? ≠ some '[' := by
  cases cause with
  | invalidSelector selector cause =>
    have hhead : (invalidSelector selector cause).message.toList.head? = some 'i' :=
      head?_toList_append (head?_toList_append (head?_toList_append (by decide) _) _) cause
    simp [hhead]
  | engine cause =>
    have hhead : (engine cause).message.toList.head? = some 's' :=
      head?_toList_append (by decide) cause
    simp [hhead]
  | invalidConfig cause =>
    have hhead : (invalidConfig cause).message.toList.head? = some 'i' :=
      head?_toList_append (by decide) cause
    simp [hhead]

namespace CaseResult

variable {α : Type} [DecidableEq α] {write : α → String} {name : String} {expected actual : α}

theorem passed_compare_iff : (compare write name expected actual).passed = true ↔
    expected = actual := decide_eq_true_iff

theorem not_passed_message (items : List String) (cause : Failure) :
    ¬ (ofTexts name (bracketed items) cause.message).passed = true := by
  rw [ofTexts, passed_compare_iff]
  exact (ne_bracketed cause.head?_message items).symm

theorem not_passed_word (items : List String) :
    ¬ (ofTexts name "error" (bracketed items)).passed = true := by
  rw [ofTexts, passed_compare_iff]
  exact ne_bracketed (by decide) items

end CaseResult

/-! ## The element of a lookup -/

namespace Document

variable {root : Node} {e : Nat} {selector : String}

theorem zero_cons_descendants (root : Node) :
    0 :: (ofNode root).descendants 0 = List.range (ofNode root).size := by
  have hroot : root.preorder[0]? = some root := by rw [Node.preorder_eq, List.getElem?_cons_zero]
  obtain ⟨n, hn⟩ : ∃ n, root.preorder.length = n + 1 := by
    rw [Node.preorder_eq]
    exact ⟨_, List.length_cons⟩
  rw [descendants_eq hroot, size_ofNode, hn, List.range_eq_range', List.range'_succ]
  rfl

theorem find?_eq_find?_range (root : Node) (selector : String) :
    (ofNode root).find? 0 selector =
      (List.range (ofNode root).size).find? fun x => (ofNode root).host.accepts x selector := by
  rw [← zero_cons_descendants]
  rfl

theorem find?_eq_some_iff : (ofNode root).find? 0 selector = some e ↔
    e < (ofNode root).size ∧ (ofNode root).host.test e selector = .ok true ∧
      ∀ i < e, (ofNode root).host.test i selector ≠ .ok true := by
  simp only [find?_eq_find?_range, List.find?_range_eq_some, List.mem_range, Bool.not_eq_true',
    ← Bool.not_eq_true, Host.accepts_eq_true_iff]
  exact and_left_comm

theorem find?_eq_none_iff : (ofNode root).find? 0 selector = none ↔
    ∀ i < (ofNode root).size, (ofNode root).host.test i selector ≠ .ok true := by
  simp only [find?_eq_find?_range, List.find?_range_eq_none, Bool.not_eq_true',
    ← Bool.not_eq_true, Host.accepts_eq_true_iff]

end Document

/-! ## Lookups -/

/-- The answers to a lookup: of the root, of the first element that fits the selector, or the empty
one if none does or the selector cannot be read. -/
inductive Answered (set : RuleSet String) (doc : Document) :
    Option String → Except Failure (List (Rule String)) → Prop where
  | root : Answered set doc none (set.matching doc.host 0).result
  | first {selector : String} {e : Nat} (hlt : e < doc.size)
      (hfits : doc.host.test e selector = .ok true)
      (hfirst : ∀ i < e, doc.host.test i selector ≠ .ok true) :
      Answered set doc (some selector) (set.matching doc.host e).result
  | absent {selector : String} (hnone : ∀ i < doc.size, doc.host.test i selector = .ok false) :
      Answered set doc (some selector) (.ok [])
  | unread {selector : String} (hread : ¬ IsReadable selector) :
      Answered set doc (some selector) (.ok [])

variable {set : RuleSet String} {root : Node} {select? : Option String}

/-- A lookup has one answer. -/
theorem Answered.eq_result {answer : Except Failure (List (Rule String))}
    (h : Answered set (.ofNode root) select? answer) :
    answer = (set.matching? (Document.ofNode root).host
      (select?.elim (some 0) ((Document.ofNode root).find? 0))).result := by
  cases h with
  | root => rfl
  | first hlt hfits hfirst =>
    rw [Option.elim_some, Document.find?_eq_some_iff.2 ⟨hlt, hfits, hfirst⟩]
    rfl
  | absent hnone =>
    rw [Option.elim_some, Document.find?_eq_none_iff.2 fun i hi => by simp [hnone i hi]]
    rfl
  | unread hread =>
    have hnone : ∀ i, (Document.ofNode root).host.test i _ ≠ .ok true := fun i hi =>
      hread (Document.answers_host_iff.1 ⟨true, hi⟩)
    rw [Option.elim_some, Document.find?_eq_none_iff.2 fun i _ => hnone i]
    rfl

theorem answered_result (set : RuleSet String) (root : Node) (select? : Option String) :
    Answered set (.ofNode root) select? (set.matching? (Document.ofNode root).host
      (select?.elim (some 0) ((Document.ofNode root).find? 0))).result := by
  cases select? with
  | none => exact .root
  | some selector =>
    rw [Option.elim_some]
    cases hfind : (Document.ofNode root).find? 0 selector with
    | some e =>
      obtain ⟨hlt, hfits, hfirst⟩ := Document.find?_eq_some_iff.1 hfind
      exact .first hlt hfits hfirst
    | none =>
      by_cases hread : IsReadable selector
      · refine .absent fun i hi => ?_
        obtain ⟨b, hb⟩ := Document.answers_host_iff.2 hread
        cases b with
        | false => exact hb
        | true => exact absurd hb (Document.find?_eq_none_iff.1 hfind i hi)
      · exact .unread hread

/-! ## Expectations -/

/-- The answer is one that the case expects. -/
inductive MatchCase.Expects (c : MatchCase) : Except Failure (List (Rule String)) → Prop where
  | failure (herror : c.error = true) (cause : Failure) : c.Expects (.error cause)
  | rules {rules : List (Rule String)} (herror : c.error = false)
      (hrules : rules.map Rule.selector = c.expect) : c.Expects (.ok rules)

/-- The entry is of the rule that is expected, with the elements that are. -/
def QueryExpect.Describes (doc : Document) (x : QueryExpect) (m : QueryMatch Nat String) : Prop :=
  m.rule.selector = x.selector ∧ m.elements.map doc.describe = x.elements

namespace Fixture

/-- One of the things that a fixture expects. -/
inductive Expectation where
  | size (rules : Nat)
  | lookup (c : MatchCase)
  | query (c : QueryCase)

def Expectation.name : Expectation → String
  | size _ => "size"
  | lookup c => c.name
  | query c => c.name

/-- The size, the cases and the queries, in this order. -/
def expectations (f : Fixture) : List Expectation :=
  f.size?.toList.map .size ++ f.cases.map .lookup ++ f.queries.map .query

def edits (f : Fixture) : List (Edit String) :=
  .extend ⟨f.rules⟩ :: f.removals.map fun r =>
    r.data?.elim (.remove r.selector) (.removeWithData r.selector)

def rulesLeft (f : Fixture) : RuleList String := ({} : RuleList String).run f.edits

/-- The expectation is met. -/
def Expectation.Holds (f : Fixture) : Expectation → Prop
  | size rules => f.rulesLeft.size = rules
  | lookup c => ∃ answer,
      Answered f.buildSet (.ofNode f.document) c.select? answer ∧ c.Expects answer
  | query c => ∃ found,
      (f.buildSet.queryAll (Document.ofNode f.document).host 0).result = .ok found ∧
      List.Forall₂ (QueryExpect.Describes (.ofNode f.document)) c.expect found

theorem buildSet_eq_run (f : Fixture) : f.buildSet = RuleSet.empty.run f.edits := by
  rw [edits, RuleSet.run, List.foldl_cons, List.foldl_map, buildSet]
  refine List.foldl_ext _ _ _ fun set r _ => ?_
  cases r.data? <;> rfl

theorem size_buildSet (f : Fixture) : f.buildSet.size = f.rulesLeft.size := by
  have hm : f.rulesLeft.Mirrors f.buildSet := by
    rw [buildSet_eq_run]
    exact RuleList.mirrors_run Classifier.builtin f.edits
  exact hm.size_eq.symm

/-! ## Verdicts -/

variable {set : RuleSet String} {doc : Document}

theorem passed_runSize_iff {f : Fixture} {size : Nat} :
    (runSize f.buildSet size).passed = true ↔ (Expectation.size size).Holds f := by
  rw [runSize, CaseResult.passed_compare_iff, size_buildSet]
  exact eq_comm

theorem name_runCase (set : RuleSet String) (doc : Document) (c : MatchCase) :
    (runCase set doc c).name = c.name := by
  dsimp only [runCase]
  split <;> rfl

theorem name_runQuery (set : RuleSet String) (doc : Document) (c : QueryCase) :
    (runQuery set doc c).name = c.name := by
  unfold runQuery
  split <;> rfl

theorem passed_runCase_iff {c : MatchCase} : (runCase set doc c).passed = true ↔
    c.Expects (set.matching? doc.host (c.select?.elim (some 0) (doc.find? 0))).result := by
  dsimp only [runCase]
  generalize (set.matching? doc.host (c.select?.elim (some 0) (doc.find? 0))).result = answer
  cases answer with
  | error cause =>
    cases herror : c.error with
    | true => exact iff_of_true rfl (.failure herror cause)
    | false =>
      refine iff_of_false (CaseResult.not_passed_message _ cause) fun h => ?_
      cases h with
      | failure htrue => simp [herror] at htrue
  | ok rules =>
    cases herror : c.error with
    | true =>
      refine iff_of_false (CaseResult.not_passed_word _) fun h => ?_
      cases h with
      | rules hfalse => simp [herror] at hfalse
    | false =>
      refine CaseResult.passed_compare_iff.trans ⟨fun h => ?_, fun h => ?_⟩
      · exact .rules herror h.symm
      · cases h with
        | rules _ hrules => exact hrules.symm

theorem forall₂_describes_iff {expect : List QueryExpect} {found : List (QueryMatch Nat String)} :
    List.Forall₂ (QueryExpect.Describes doc) expect found ↔
      expect = found.map fun m => ⟨m.rule.selector, m.elements.map doc.describe⟩ := by
  have hentry : QueryExpect.Describes doc =
      fun x m => x = ⟨m.rule.selector, m.elements.map doc.describe⟩ := by
    funext x m
    cases x
    simp [QueryExpect.Describes, eq_comm]
  rw [hentry, ← List.forall₂_eq_eq_eq, List.forall₂_map_right_iff]

theorem passed_runQuery_iff {c : QueryCase} : (runQuery set doc c).passed = true ↔
    ∃ found, (set.queryAll doc.host 0).result = .ok found ∧
      List.Forall₂ (QueryExpect.Describes doc) c.expect found := by
  unfold runQuery
  cases (set.queryAll doc.host 0).result with
  | error cause =>
    exact iff_of_false (CaseResult.not_passed_message _ cause) (by simp)
  | ok found => simp [CaseResult.passed_compare_iff, forall₂_describes_iff]

theorem forall₂_map_map {α β γ : Type} {R : β → γ → Prop} {f : α → β} {g : α → γ}
    (h : ∀ a, R (f a) (g a)) (as : List α) : List.Forall₂ R (as.map f) (as.map g) := by
  rw [List.forall₂_map_left_iff, List.forall₂_map_right_iff, List.forall₂_same]
  exact fun a _ => h a

/-- The verdict is on this expectation, and says whether it is met. -/
def Judges (f : Fixture) (x : Expectation) (r : CaseResult) : Prop :=
  r.name = x.name ∧ (r.passed = true ↔ x.Holds f)

/-- A run gives one verdict for each expectation, in order, and a verdict passes exactly if its
expectation is met. -/
theorem run_judges (f : Fixture) : List.Forall₂ f.Judges f.expectations f.run := by
  have hsize (size : Nat) : f.Judges (.size size) (runSize f.buildSet size) :=
    ⟨rfl, passed_runSize_iff⟩
  have hlookup (c : MatchCase) :
      f.Judges (.lookup c) (runCase f.buildSet (.ofNode f.document) c) := by
    refine ⟨name_runCase _ _ c, passed_runCase_iff.trans ⟨fun h => ?_, ?_⟩⟩
    · exact ⟨_, answered_result _ _ _, h⟩
    · rintro ⟨answer, hanswer, h⟩
      rwa [← hanswer.eq_result]
  have hquery (c : QueryCase) :
      f.Judges (.query c) (runQuery f.buildSet (.ofNode f.document) c) :=
    ⟨name_runQuery _ _ c, passed_runQuery_iff⟩
  exact List.rel_append (List.rel_append (forall₂_map_map hsize _) (forall₂_map_map hlookup _))
    (forall₂_map_map hquery _)

/-- A selector that cannot be read picks no element, which has no rules. Where a rule has such a
selector, lookups and queries fail, and a failure is not the empty list. -/
example : (run {
    name := "", document := {}, rules := [⟨.string "[", "x"⟩, ⟨.null, ""⟩], size? := some 1
    cases := [{ name := "", select? := some ">" }, { name := "", error := true }]
    queries := [{ name := "", expect := [] }] }).map CaseResult.passed =
      [true, true, true, false] := by decide +kernel

end Fixture

end SelectorIndex
