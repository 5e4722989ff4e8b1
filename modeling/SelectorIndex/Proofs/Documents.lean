import Mathlib.Data.List.Forall2
import SelectorIndex.Document.Matching
import SelectorIndex.Proofs.Hosts
import SelectorIndex.Proofs.Selector.Joined

/-!
# Documents as hosts

A document reads a selector group by group, and an element matches it if it
matches the chain of some group. Since closed selectors keep their groups when
they are joined, documents obey what a query relies on (`obeys_host`).
-/

namespace SelectorIndex

open Selector

namespace Selector

/-- Some group of the selector is a chain that satisfies `P`. -/
def HasChain (selector : String) (P : Chain → Prop) : Prop :=
  ∃ text ∈ groupTexts selector.toList, ∃ c, Parser.chain text = .ok c ∧ P c

/-- The selector has groups, and each of them is a chain. -/
def IsReadable (selector : String) : Prop :=
  groupTexts selector.toList ≠ [] ∧
    ∀ text ∈ groupTexts selector.toList, ∃ c, Parser.chain text = .ok c

theorem parse_eq (selector : String) :
    parse selector = if groupTexts selector.toList = [] then .error .emptySelector
      else (groupTexts selector.toList).mapM Parser.chain := by
  have hmap := map_text_groups selector
  have htexts : groupTexts selector.toList = (groups selector).map fun g => g.text.toList := by
    have := congrArg (List.map String.toList) hmap
    simpa [Function.comp_def] using this.symm
  rw [parse, htexts, List.mapM_map]
  cases groups selector with
  | nil => rfl
  | cons g gs => rfl

/-- A pass that succeeds has a result for each of its arguments. -/
theorem forall₂_of_mapM_eq_ok {α β γ : Type} {f : α → Except γ β} {as : List α} {bs : List β}
    (h : as.mapM f = .ok bs) : List.Forall₂ (fun a b => f a = .ok b) as bs := by
  induction as generalizing bs with
  | nil => cases h; exact .nil
  | cons a as ih =>
    rw [List.mapM_cons] at h
    cases ha : f a with
    | error cause => rw [ha] at h; cases h
    | ok b =>
      cases has : as.mapM f with
      | error cause => rw [ha, has] at h; cases h
      | ok bs' =>
        rw [ha, has] at h
        cases h
        exact .cons ha (ih has)

theorem mapM_eq_ok {α β γ : Type} {f : α → Except γ β} {as : List α} {bs : List β}
    (h : as.mapM f = .ok bs) :
    (∀ a ∈ as, ∃ b ∈ bs, f a = .ok b) ∧ ∀ b ∈ bs, ∃ a ∈ as, f a = .ok b := by
  have hall := forall₂_of_mapM_eq_ok h
  clear h
  induction hall with
  | nil => exact ⟨nofun, nofun⟩
  | @cons a b as bs hab _ ih =>
    obtain ⟨hleft, hright⟩ := ih
    refine ⟨List.forall_mem_cons.2 ⟨⟨b, List.mem_cons_self, hab⟩, fun a' ha' => ?_⟩,
      List.forall_mem_cons.2 ⟨⟨a, List.mem_cons_self, hab⟩, fun b' hb' => ?_⟩⟩
    · obtain ⟨b', hb', hf⟩ := hleft a' ha'
      exact ⟨b', List.mem_cons_of_mem b hb', hf⟩
    · obtain ⟨a', ha', hf⟩ := hright b' hb'
      exact ⟨a', List.mem_cons_of_mem a ha', hf⟩

theorem forall₂_of_parse {selector : String} {chains : List Chain}
    (h : parse selector = .ok chains) :
    List.Forall₂ (fun g c => Parser.chain g.text.toList = .ok c) (groups selector) chains := by
  rw [parse] at h
  cases hgroups : groups selector with
  | nil =>
    rw [hgroups] at h
    cases h
  | cons g gs =>
    rw [hgroups] at h
    exact forall₂_of_mapM_eq_ok h

theorem exists_mapM_eq_ok {α β γ : Type} {f : α → Except γ β} {as : List α}
    (h : ∀ a ∈ as, ∃ b, f a = .ok b) : ∃ bs, as.mapM f = .ok bs := by
  induction as with
  | nil => exact ⟨[], rfl⟩
  | cons a as ih =>
    obtain ⟨b, hb⟩ := h a List.mem_cons_self
    obtain ⟨bs, hbs⟩ := ih fun a' ha' => h a' (List.mem_cons_of_mem a ha')
    exact ⟨b :: bs, by rw [List.mapM_cons, hb, hbs]; rfl⟩

theorem isReadable_iff {selector : String} :
    IsReadable selector ↔ ∃ cs, parse selector = .ok cs := by
  rw [parse_eq]
  constructor
  · rintro ⟨hne, hall⟩
    rw [if_neg hne]
    exact exists_mapM_eq_ok hall
  · rintro ⟨cs, hcs⟩
    split at hcs
    · cases hcs
    · rename_i hne
      refine ⟨hne, fun text htext => ?_⟩
      obtain ⟨c, -, hc⟩ := (mapM_eq_ok hcs).1 text htext
      exact ⟨c, hc⟩

theorem hasChain_of_parse {selector : String} {cs : List Chain} (h : parse selector = .ok cs)
    (P : Chain → Prop) : HasChain selector P ↔ ∃ c ∈ cs, P c := by
  rw [parse_eq] at h
  split at h
  · cases h
  · obtain ⟨hleft, hright⟩ := mapM_eq_ok h
    constructor
    · rintro ⟨text, htext, c, hc, hP⟩
      obtain ⟨c', hmem, hc'⟩ := hleft text htext
      rw [hc] at hc'
      cases hc'
      exact ⟨c, hmem, hP⟩
    · rintro ⟨c, hmem, hP⟩
      obtain ⟨text, htext, hc⟩ := hright c hmem
      exact ⟨text, htext, c, hc, hP⟩

/-! ## Lists of closed selectors -/

theorem isReadable_intercalate_iff {ss : List String}
    (h : ∀ s ∈ ss.dropLast, isSelfContained s = true) :
    IsReadable (", ".intercalate ss) ↔ (∃ s ∈ ss, groupTexts s.toList ≠ []) ∧
      ∀ s ∈ ss, groupTexts s.toList ≠ [] → IsReadable s := by
  rw [IsReadable, groupTexts_intercalate h, ne_eq, List.flatMap_eq_nil_iff]
  simp only [Classical.not_forall, exists_prop, List.mem_flatMap]
  refine and_congr_right fun _ => ⟨fun hall s hs hne => ⟨hne, fun text htext => ?_⟩, ?_⟩
  · exact hall text ⟨s, hs, htext⟩
  · rintro hall text ⟨s, hs, htext⟩
    exact (hall s hs (List.ne_nil_of_mem htext)).2 text htext

theorem hasChain_intercalate_iff {ss : List String}
    (h : ∀ s ∈ ss.dropLast, isSelfContained s = true) (P : Chain → Prop) :
    HasChain (", ".intercalate ss) P ↔ ∃ s ∈ ss, HasChain s P := by
  simp only [HasChain, groupTexts_intercalate h, List.mem_flatMap]
  constructor
  · rintro ⟨text, ⟨s, hs, htext⟩, hc⟩
    exact ⟨s, hs, text, htext, hc⟩
  · rintro ⟨s, hs, text, htext, hc⟩
    exact ⟨text, ⟨s, hs, htext⟩, hc⟩

theorem isReadable_join {ss : List String} (hne : ss ≠ [])
    (h : ∀ s ∈ ss, IsReadable s ∧ isSelfContained s = true) :
    IsReadable (", ".intercalate ss) := by
  obtain ⟨s, hs⟩ := List.exists_mem_of_ne_nil ss hne
  refine (isReadable_intercalate_iff fun s hs => (h s (List.dropLast_subset ss hs)).2).2 ?_
  exact ⟨⟨s, hs, (h s hs).1.1⟩, fun s hs _ => (h s hs).1⟩

theorem hasChain_join {ss : List String} (h : ∀ s ∈ ss, isSelfContained s = true)
    (P : Chain → Prop) :
    HasChain (", ".intercalate ss) P ↔ ∃ s ∈ ss, HasChain s P :=
  hasChain_intercalate_iff (fun s hs => h s (List.dropLast_subset ss hs)) P

theorem groups_eq_nil_iff {selector : String} :
    groups selector = [] ↔ groupTexts selector.toList = [] := by
  rw [← List.map_eq_nil_iff (f := Group.text), map_text_groups, List.map_eq_nil_iff]

end Selector

/-! ## Hosts -/

namespace Document

theorem test_host_of_parse {selector : String} {cs : List Chain} (doc : Document) (e : Nat)
    (h : parse selector = .ok cs) : doc.host.test e selector = .ok (doc.matchesAny cs e) := by
  simp only [host, parseOrFail, h]
  rfl

theorem test_host_of_error {selector : String} {cause : ParseError} (doc : Document) (e : Nat)
    (h : parse selector = .error cause) :
    doc.host.test e selector = .error (.invalidSelector selector cause.message) := by
  simp only [host, parseOrFail, h]
  rfl

theorem select_host_of_error {selector : String} {cause : ParseError} (doc : Document) (root : Nat)
    (h : parse selector = .error cause) :
    doc.host.select root selector = .error (.invalidSelector selector cause.message) := by
  simp only [host, parseOrFail, h]
  rfl

theorem answers_host_iff {doc : Document} {e : Nat} {selector : String} :
    doc.host.Answers e selector ↔ IsReadable selector := by
  rw [isReadable_iff]
  cases h : parse selector with
  | error cause => simp [Host.Answers, test_host_of_error doc e h]
  | ok cs => simp [Host.Answers, test_host_of_parse doc e h]

theorem accepts_host_iff {doc : Document} {e : Nat} {selector : String}
    (h : IsReadable selector) :
    doc.host.accepts e selector = true ↔
      HasChain selector fun c => doc.matchesChain c e = true := by
  obtain ⟨cs, hcs⟩ := isReadable_iff.1 h
  rw [Host.accepts_of_test (test_host_of_parse doc e hcs), hasChain_of_parse hcs, matchesAny,
    List.any_eq_true]

theorem select_host {doc : Document} {root : Nat} {selector : String} (h : IsReadable selector) :
    doc.host.select root selector =
      .ok ((doc.descendants root).filter fun e => doc.host.accepts e selector) := by
  obtain ⟨cs, hcs⟩ := isReadable_iff.1 h
  have haccepts : ∀ e, doc.host.accepts e selector = doc.matchesAny cs e := fun e =>
    Host.accepts_of_test (test_host_of_parse doc e hcs)
  simp only [haccepts]
  simp only [host, parseOrFail, hcs]
  rfl

theorem isReadable_of_select {doc : Document} {root : Nat} {selector : String}
    {elements : List Nat} (h : doc.host.select root selector = .ok elements) :
    IsReadable selector := by
  rw [isReadable_iff]
  cases hparse : parse selector with
  | ok cs => exact ⟨cs, rfl⟩
  | error cause =>
    rw [select_host_of_error doc root hparse] at h
    cases h

/-- A document keeps its word on every selector it can read. -/
theorem obeys_host (doc : Document) : doc.host.Obeys doc.descendants IsReadable where
  answers _ _ h := answers_host_iff.2 h
  select_eq _ _ h := select_host h
  join ss hne h := by
    have hread := isReadable_join hne h
    refine ⟨hread, fun e => ?_⟩
    rw [Bool.eq_iff_iff, accepts_host_iff hread, hasChain_join fun s hs => (h s hs).2,
      List.any_eq_true]
    refine exists_congr fun s => and_congr_right fun hs => ?_
    rw [accepts_host_iff (h s hs).1]

/-- Some group of the selector is a chain that the element matches. -/
def matchesGroup (doc : Document) (e : Nat) (selector : String) : Bool :=
  (groupTexts selector.toList).any fun text =>
    (Parser.chain text).toOption.any (doc.matchesChain · e)

theorem matchesGroup_iff {doc : Document} {e : Nat} {selector : String} :
    doc.matchesGroup e selector = true ↔
      HasChain selector fun c => doc.matchesChain c e = true := by
  simp only [matchesGroup, List.any_eq_true, HasChain]
  refine exists_congr fun text => and_congr_right fun _ => ?_
  cases Parser.chain text <;> simp [Except.toOption]

/-- The document as a host that passes over groups it cannot read, so that no call fails. -/
def lenientHost (doc : Document) : Host Nat where
  facets := doc.facets
  test e selector := .ok (doc.matchesGroup e selector)
  select root selector := .ok ((doc.descendants root).filter (doc.matchesGroup · selector))

theorem obeys_lenientHost (doc : Document) :
    doc.lenientHost.Obeys doc.descendants fun _ => True where
  answers e s _ := ⟨doc.matchesGroup e s, rfl⟩
  select_eq _ _ _ := rfl
  join ss _ h := by
    refine ⟨trivial, fun e => ?_⟩
    show doc.matchesGroup e _ = ss.any (doc.matchesGroup e)
    rw [Bool.eq_iff_iff, matchesGroup_iff, hasChain_join fun s hs => (h s hs).2, List.any_eq_true]
    exact exists_congr fun s => and_congr_right fun _ => matchesGroup_iff.symm

/-! ## Joined lists -/

theorem test_host_eq_true_iff {doc : Document} {e : Nat} {selector : String} :
    doc.host.test e selector = .ok true ↔
      IsReadable selector ∧ HasChain selector fun c => doc.matchesChain c e = true := by
  rw [isReadable_iff]
  cases h : parse selector with
  | error cause => simp [test_host_of_error doc e h]
  | ok cs =>
    rw [test_host_of_parse doc e h, Except.ok.injEq, hasChain_of_parse h, matchesAny,
      List.any_eq_true]
    exact (and_iff_right ⟨cs, rfl⟩).symm

/-- Selectors joined to a list, all but the last of them closed, have their groups in it one after
the other. If there are any groups at all, the list can be read exactly if every selector with a
group can, and an element matches the list exactly if it matches one of those. -/
theorem join_matches_some {ss : List String}
    (h : ∀ s ∈ ss.dropLast, isSelfContained s = true) :
    let list := ", ".intercalate ss
    (groups list).map Group.text = (ss.flatMap fun s => (groups s).map Group.text) ∧
    ((∃ s ∈ ss, groups s ≠ []) →
      ((∃ cs, parse list = .ok cs) ↔ ∀ s ∈ ss, groups s ≠ [] → ∃ cs, parse s = .ok cs) ∧
      ((∃ cs, parse list = .ok cs) → ∀ (doc : Document) (e : Nat),
        ∃ accepted, doc.host.test e list = .ok accepted ∧
          (accepted = true ↔ ∃ s ∈ ss, groups s ≠ [] ∧ doc.host.test e s = .ok true))) := by
  intro list
  have hread : IsReadable list ↔ (∃ s ∈ ss, groups s ≠ []) ∧
      ∀ s ∈ ss, groups s ≠ [] → IsReadable s := by
    simp only [ne_eq, groups_eq_nil_iff]
    exact isReadable_intercalate_iff h
  refine ⟨?_, fun hgroup => ⟨?_, fun hparse doc e => ?_⟩⟩
  · simp only [map_text_groups]
    rw [groupTexts_intercalate h, List.map_flatMap]
  · simp only [← isReadable_iff]
    exact hread.trans (and_iff_right hgroup)
  · obtain ⟨cs, hcs⟩ := hparse
    have htest := test_host_of_parse doc e hcs
    have hparts := (hread.1 (isReadable_iff.2 ⟨cs, hcs⟩)).2
    refine ⟨_, htest, ?_⟩
    have haccepted : doc.matchesAny cs e = true ↔ doc.host.test e list = .ok true := by
      rw [htest, Except.ok.injEq]
    rw [haccepted, test_host_eq_true_iff, hasChain_intercalate_iff h,
      and_iff_right (isReadable_iff.2 ⟨cs, hcs⟩)]
    -- a part with a chain has a group, so it is one of those that can be read
    refine exists_congr fun s => and_congr_right fun hs => ?_
    rw [test_host_eq_true_iff]
    constructor
    · intro hc
      have hne : groups s ≠ [] := by
        obtain ⟨text, htext, -⟩ := hc
        rw [ne_eq, groups_eq_nil_iff]
        exact List.ne_nil_of_mem htext
      exact ⟨hne, hparts s hs hne, hc⟩
    · rintro ⟨-, -, hc⟩
      exact hc

/-- An escape that is not over, a blank selector, and one that ends in a comma. -/
theorem join_matches_some_escape :
    let ss := ["#a\\31", " ", "p > b,", ".c"]
    let list := "#a\\31,  , p > b,, .c"
    (∀ s ∈ ss.dropLast, isSelfContained s = true) ∧
    (groups list).map Group.text = ["#a\\31", "p > b", ".c"] ∧
    ((∃ cs, parse list = .ok cs) ↔ ∀ s ∈ ss, groups s ≠ [] → ∃ cs, parse s = .ok cs) ∧
    ∀ (doc : Document) (e : Nat), ∃ accepted, doc.host.test e list = .ok accepted ∧
      (accepted = true ↔ ∃ s ∈ ss, groups s ≠ [] ∧ doc.host.test e s = .ok true) := by
  intro ss list
  have hclosed : ∀ s ∈ ss.dropLast, isSelfContained s = true := by decide
  obtain ⟨hgroups, hlist⟩ := join_matches_some hclosed
  obtain ⟨hread, hmatch⟩ := hlist ⟨".c", by decide, by decide⟩
  have hparse : ∃ cs, parse list = .ok cs := by
    have hok : (parse list).isOk = true := by decide +kernel
    cases h : parse list with
    | ok cs => exact ⟨cs, rfl⟩
    | error cause =>
      rw [h] at hok
      cases hok
  exact ⟨hclosed, hgroups, hread, hmatch hparse⟩

end Document

end SelectorIndex
