import SelectorIndex.Proofs.Filing
import SelectorIndex.Proofs.Hosts

/-!
# What a lookup asks about

The candidates for an element are the live rules with a group in a slot that
the element is looked up under, each once, in the order of ids
(`filterMap_candidates`). They are asked about in turn, and the first failure
ends the lookup (`asked_testEach`). `Placement.Claims` says without the code of
a search which slot a group has.
-/

namespace SelectorIndex

/-! ## Slots -/

namespace Placement

/-- The slot of a group: the first classifier with a key for its bare last token, and that key. -/
def Claims (classifiers : List Classifier) (group : String) (slot : Placement) : Prop :=
  ∃ token c, Selector.lastToken? group = some token ∧ classifiers[slot.index]? = some c ∧
    c.tokenKey? (Selector.bareToken token) = some slot.key ∧
    ∀ j < slot.index, ∀ d, classifiers[j]? = some d →
      d.tokenKey? (Selector.bareToken token) = none

theorem ofToken?_eq_some_iff {classifiers : List Classifier} {token : String} {slot : Placement} :
    ofToken? classifiers token = some slot ↔
      (∃ c, classifiers[slot.index]? = some c ∧ c.tokenKey? token = some slot.key) ∧
      ∀ j < slot.index, ∀ d, classifiers[j]? = some d → d.tokenKey? token = none := by
  obtain ⟨i, key⟩ := slot
  induction classifiers generalizing i with
  | nil => simp [ofToken?]
  | cons c cs ih =>
    cases hc : c.tokenKey? token with
    | some k =>
      simp only [ofToken?, hc, Option.some.injEq, mk.injEq]
      constructor
      · rintro ⟨rfl, rfl⟩
        exact ⟨⟨c, rfl, hc⟩, fun j hj => absurd hj (Nat.not_lt_zero j)⟩
      · rintro ⟨⟨d, hd, hk⟩, hbefore⟩
        cases i with
        | zero =>
          cases hd
          exact ⟨rfl, Option.some.inj (hc.symm.trans hk)⟩
        | succ i =>
          have := hbefore 0 (Nat.succ_pos i) c rfl
          rw [hc] at this
          cases this
    | none =>
      simp only [ofToken?, hc, Option.map_eq_some_iff]
      cases i with
      | zero =>
        constructor
        · rintro ⟨q, -, hq⟩
          cases hq
        · rintro ⟨⟨d, hd, hk⟩, -⟩
          cases hd
          rw [hc] at hk
          cases hk
      | succ i =>
        have hshift : (∃ q, ofToken? cs token = some q ∧
            (⟨q.index + 1, q.key⟩ : Placement) = ⟨i + 1, key⟩) ↔
            ofToken? cs token = some ⟨i, key⟩ := by
          constructor
          · rintro ⟨⟨j, k⟩, hq, heq⟩
            cases heq
            exact hq
          · intro hq
            exact ⟨_, hq, rfl⟩
        rw [hshift, ih]
        refine and_congr Iff.rfl ⟨fun h j hj d hd => ?_, fun h j hj d hd => ?_⟩
        · cases j with
          | zero =>
            cases hd
            exact hc
          | succ j => exact h j (Nat.lt_of_succ_lt_succ hj) d hd
        · exact h (j + 1) (Nat.succ_lt_succ hj) d hd

theorem ofGroup?_eq_some_iff {classifiers : List Classifier} {group : String} {slot : Placement} :
    ofGroup? classifiers group = some slot ↔ Claims classifiers group slot := by
  simp only [ofGroup?, Option.bind_eq_some_iff, ofToken?_eq_some_iff, Claims]
  constructor
  · rintro ⟨token, ht, ⟨c, hc, hk⟩, hbefore⟩
    exact ⟨token, c, ht, hc, hk, hbefore⟩
  · rintro ⟨token, c, ht, hc, hk, hbefore⟩
    exact ⟨token, ht, ⟨c, hc, hk⟩, hbefore⟩

/-- The slot is one that an element with these facets is looked up under. -/
def visited (classifiers : List Classifier) (facets : Facets) (slot : Placement) : Bool :=
  (classifiers[slot.index]?).any fun c => (c.elementKeys facets).contains slot.key

theorem visited_iff {classifiers : List Classifier} {facets : Facets} {slot : Placement} :
    visited classifiers facets slot = true ↔
      ∃ c, classifiers[slot.index]? = some c ∧ slot.key ∈ c.elementKeys facets := by
  simp [visited, Option.any_eq_true]

end Placement

namespace RuleSet

variable {ε δ : Type}

/-- Some group of the selector is filed where an element with these facets is looked up. -/
def isCandidate (classifiers : List Classifier) (facets : Facets) (selector : String) : Bool :=
  (Placement.slots classifiers selector).any (Placement.visited classifiers facets)

theorem isCandidate_iff {classifiers : List Classifier} {facets : Facets} {selector : String} :
    isCandidate classifiers facets selector = true ↔
      ∃ g ∈ Selector.groups selector, ∃ slot, Placement.Claims classifiers g.text slot ∧
        ∃ c, classifiers[slot.index]? = some c ∧ slot.key ∈ c.elementKeys facets := by
  simp only [isCandidate, List.any_eq_true, Placement.mem_slots, Placement.visited_iff,
    Placement.ofGroup?_eq_some_iff]
  constructor
  · rintro ⟨slot, ⟨g, hg, hclaim⟩, hc⟩
    exact ⟨g, hg, slot, hclaim, hc⟩
  · rintro ⟨g, hg, slot, hclaim, hc⟩
    exact ⟨slot, ⟨g, hg, hclaim⟩, hc⟩

/-! ## Looking up -/

/-- A look under every key of an element is a look into every slot it is looked up under. -/
theorem exists_lookup_iff (set : RuleSet δ) (facets : Facets) (P : List RuleId → Prop) :
    (∃ ix ∈ set.indexes, ∃ key ∈ ix.classifier.elementKeys facets, P (ix.lookup key)) ↔
      ∃ slot, Placement.visited set.classifiers facets slot = true ∧
        (∃ ix, set.indexes[slot.index]? = some ix) ∧ P (posting set.indexes slot) := by
  constructor
  · rintro ⟨ix, hix, key, hkey, h⟩
    obtain ⟨i, hi⟩ := List.mem_iff_getElem?.1 hix
    refine ⟨⟨i, key⟩, Placement.visited_iff.2 ⟨ix.classifier, ?_, hkey⟩, ⟨ix, hi⟩, ?_⟩
    · simp [classifiers, hi]
    · simpa [posting, hi] using h
  · rintro ⟨slot, hvis, ⟨ix, hi⟩, h⟩
    obtain ⟨c, hc, hkey⟩ := Placement.visited_iff.1 hvis
    simp only [classifiers, List.getElem?_map, hi, Option.map_some, Option.some.injEq] at hc
    subst hc
    exact ⟨ix, List.mem_of_getElem? hi, slot.key, hkey, by simpa [posting, hi] using h⟩

variable {set : RuleSet δ}

namespace WellFiled

/-- The ids found under the keys of an element are those of the live rules that are candidates. -/
theorem exists_mem_lookup_iff (h : WellFiled set) (facets : Facets) (id : RuleId) :
    (∃ ix ∈ set.indexes, ∃ key ∈ ix.classifier.elementKeys facets, id ∈ ix.lookup key) ↔
      ∃ p ∈ set.placed, isCandidate set.classifiers facets p.rule.selector = true ∧
        p.rule.id = id := by
  rw [exists_lookup_iff set facets (id ∈ ·)]
  simp only [h.posting_eq, mem_filings, isCandidate, List.any_eq_true]
  constructor
  · rintro ⟨slot, hvis, -, p, hp, hslot, hid⟩
    exact ⟨p, hp, ⟨slot, h.placements_eq p hp ▸ hslot, hvis⟩, hid⟩
  · rintro ⟨p, hp, ⟨slot, hslot, hvis⟩, hid⟩
    have hlt := Placement.index_lt_of_mem_slots hslot
    rw [← length_indexes] at hlt
    exact ⟨slot, hvis, ⟨_, List.getElem?_eq_getElem hlt⟩, p, hp, h.placements_eq p hp ▸ hslot, hid⟩

theorem mem_candidates (h : WellFiled set) {facets : Facets} {id : RuleId} :
    id ∈ set.candidates facets ↔
      ∃ p ∈ set.placed, isCandidate set.classifiers facets p.rule.selector = true ∧
        p.rule.id = id := by
  rw [← h.exists_mem_lookup_iff facets id]
  simp only [candidates, Std.TreeSet.mem_toList, Std.TreeSet.mem_ofList, List.contains_iff_mem,
    List.mem_flatMap]

theorem get?_of_mem (h : WellFiled set) {p : PlacedRule δ} (hp : p ∈ set.placed) :
    set.get? p.rule.id = some p.rule := by
  obtain ⟨⟨k, q⟩, hq, rfl⟩ := List.mem_map.1 hp
  have hid : q.rule.id = k := h.id_eq _ hq
  have := Std.TreeMap.mem_toList_iff_getElem?_eq_some.1 hq
  simp [get?, hid, this]

theorem pairwise_toList (h : WellFiled set) : set.toList.Pairwise (·.id < ·.id) := by
  rw [toList, List.pairwise_map]
  exact h.pairwise_placed

/-- The rules that a lookup asks about. -/
theorem filterMap_candidates (h : WellFiled set) (facets : Facets) :
    (set.candidates facets).filterMap set.get? =
      set.toList.filter fun r => isCandidate set.classifiers facets r.selector := by
  have hids : set.candidates facets =
      (set.placed.filter fun p => isCandidate set.classifiers facets p.rule.selector).map
        fun p => p.rule.id := by
    refine Ascending.toList_ofList_eq ?_ fun id => ?_
    · rw [List.pairwise_map]
      exact h.pairwise_placed.filter _
    · have : id ∈ set.candidates facets ↔ ∃ p ∈ set.placed,
          isCandidate set.classifiers facets p.rule.selector = true ∧ p.rule.id = id :=
        h.mem_candidates
      simp only [candidates, Std.TreeSet.mem_toList, Std.TreeSet.mem_ofList,
        List.contains_iff_mem] at this
      rw [this, List.mem_map]
      simp only [List.mem_filter, and_assoc]
  rw [hids, toList, List.filter_map, List.filterMap_map, ← List.filterMap_eq_map]
  simp only [Function.comp_def]
  exact List.filterMap_congr fun p hp => h.get?_of_mem (List.mem_of_mem_filter hp)

end WellFiled

end RuleSet

/-! ## Asking in turn -/

namespace RuleSet

variable {ε δ : Type}

theorem asked_testEach (host : Host ε) (e : ε) (rules : List (Rule δ)) :
    AskedInTurn host e rules (testEach host e rules) := by
  induction rules with
  | nil => exact .inr ⟨nofun, rfl, rfl⟩
  | cons r rest ih =>
    unfold testEach
    cases ht : host.test e r.selector with
    | error cause =>
      rw [Consult.bind_of_error (x := Consult.test host e r.selector) ht]
      exact .inl ⟨[], r, rest, cause, rfl, nofun, ht, rfl, rfl⟩
    | ok b =>
      rw [Consult.bind_of_ok (x := Consult.test host e r.selector) ht]
      rcases ih with ⟨front, q, back, cause, rfl, hfront, hq, hcalls, hres⟩ | ⟨hall, hcalls, hres⟩
      · rw [Consult.bind_of_error hres]
        refine .inl ⟨r :: front, q, back, cause, rfl, ?_, hq, ?_, rfl⟩
        · exact List.forall_mem_cons.2 ⟨⟨b, ht⟩, hfront⟩
        · simp [Consult.test, hcalls]
      · rw [Consult.bind_of_ok hres]
        refine .inr ⟨List.forall_mem_cons.2 ⟨⟨b, ht⟩, hall⟩, ?_, ?_⟩
        · simp [Consult.test, hcalls]
        · simp only [Consult.result_pure, List.filter_cons, Host.accepts_of_test ht]

theorem matching_eq_testEach {set : RuleSet δ} (h : WellFiled set) (host : Host ε) (e : ε) :
    set.matching host e = testEach host e (set.toList.filter fun r =>
      isCandidate set.classifiers (host.facets e) r.selector) := by
  rw [matching, h.filterMap_candidates]

@[simp] theorem classifiers_withClassifiers (classifiers : List Classifier) :
    (withClassifiers classifiers : RuleSet δ).classifiers =
      classifiers ++ [Classifier.universal] := by
  simp [RuleSet.classifiers, withClassifiers, Function.comp_def]

@[simp] theorem classifiers_run [BEq δ] (set : RuleSet δ) (edits : List (Edit δ)) :
    (set.run edits).classifiers = set.classifiers :=
  run_induction (P := fun s => s.classifiers = set.classifiers)
    (fun s selector data h => (classifiers_add s selector data).trans h)
    (fun s selector eligible h => (classifiers_removeWhere s selector eligible).trans h)
    set rfl edits

/-- A lookup after any history asks the host about the whole selector of each live rule with a
group in a slot of the element, once each, in the order of ids, up to the first failure. -/
theorem matching_asks_candidates [BEq δ] (classifiers : List Classifier) (edits : List (Edit δ))
    (host : Host ε) (e : ε) :
    ∃ called : List (Rule δ),
      let set := (withClassifiers classifiers).run edits
      let all := classifiers ++ [Classifier.universal]
      called.Sublist set.toList ∧ called.Pairwise (·.id < ·.id) ∧
      (∀ r ∈ set.toList, r ∈ called ↔
        ∃ g ∈ Selector.groups r.selector, ∃ slot, Placement.Claims all g.text slot ∧
          ∃ c, all[slot.index]? = some c ∧ slot.key ∈ c.elementKeys (host.facets e)) ∧
      AskedInTurn host e called (set.matching host e) := by
  have h := wellFiled_run classifiers edits
  have hall : ((withClassifiers classifiers).run edits : RuleSet δ).classifiers =
      classifiers ++ [Classifier.universal] := by simp
  refine ⟨_, List.filter_sublist, h.pairwise_toList.filter _, fun r hr => ?_,
    matching_eq_testEach h host e ▸ asked_testEach host e _⟩
  rw [List.mem_filter, hall, isCandidate_iff]
  exact and_iff_right hr

end RuleSet

end SelectorIndex
