import SelectorIndex.RuleSet.Query
import SelectorIndex.Proofs.Candidates
import SelectorIndex.Proofs.Documents

/-!
# Queries over hosts that keep their word

`Host.Obeys` is what a query relies on: the host answers, a query finds the
elements below its root that match, and a list of closed selectors matches
where one of them does. Then a query of a set is one query per rule:
`result_queryAll` gives the whole answer as a function of the live rules, and
the last section reads it entry by entry.
-/

namespace SelectorIndex

variable {ε δ : Type}

namespace RuleSet

/-! ## Consultations that succeed -/

def isFiled (classifiers : List Classifier) (r : Rule δ) : Bool :=
  !(Placement.slots classifiers r.selector).isEmpty

theorem isFiled_of_isCandidate {classifiers : List Classifier} {facets : Facets} {r : Rule δ}
    (h : isCandidate classifiers facets r.selector = true) : isFiled classifiers r = true := by
  obtain ⟨slot, hslot, -⟩ := List.any_eq_true.1 h
  rw [isFiled, Bool.not_eq_true', List.isEmpty_eq_false_iff]
  exact List.ne_nil_of_mem hslot

variable {set : RuleSet δ} {host : Host ε} {below : ε → List ε} {readable : String → Prop}

theorem WellFiled.filed_eq (h : WellFiled set) :
    set.filed = set.toList.filter (isFiled set.classifiers) := by
  rw [filed, toList, List.filter_map]
  refine congrArg (List.map PlacedRule.rule) (List.filter_congr fun p hp => ?_)
  rw [h.placements_eq p hp, Function.comp_apply, isFiled]

theorem WellFiled.mem_filed (h : WellFiled set) {r : Rule δ} :
    r ∈ set.filed ↔ r ∈ set.toList ∧ isFiled set.classifiers r = true := by
  rw [h.filed_eq, List.mem_filter]

/-- The rule is a candidate for the element, and the element matches it. -/
def isHit (classifiers : List Classifier) (host : Host ε) (e : ε) (r : Rule δ) : Bool :=
  isCandidate classifiers (host.facets e) r.selector && host.accepts e r.selector

theorem WellFiled.result_matching (h : WellFiled set) (host : Host ε) (e : ε)
    (ha : ∀ r ∈ set.filed, host.Answers e r.selector) :
    (set.matching host e).result =
      .ok (set.toList.filter (isHit set.classifiers host e)) := by
  rw [matching_eq_testEach h]
  rw [(asked_testEach host e _).result_of_answers, List.filter_filter]
  · exact congrArg Except.ok (List.filter_congr fun r _ => Bool.and_comm _ _)
  · intro r hr
    obtain ⟨hmem, hc⟩ := List.mem_filter.1 hr
    exact ha r (h.mem_filed.2 ⟨hmem, isFiled_of_isCandidate hc⟩)

theorem result_matchEach {f : ε → List (Rule δ)} {es : List ε}
    (hf : ∀ e ∈ es, (set.matching host e).result = .ok (f e)) :
    (set.matchEach host es).result = .ok (es.map fun e => (e, f e)) := by
  induction es with
  | nil => rfl
  | cons e es ih =>
    unfold matchEach
    rw [Consult.bind_of_ok (hf e List.mem_cons_self),
      Consult.bind_of_ok (ih fun e' he' => hf e' (List.mem_cons_of_mem e he'))]
    rfl

/-- A lookup that succeeds found what the host accepts among the candidates. -/
theorem WellFiled.of_matching_eq_ok (h : WellFiled set) {e : ε} {found : List (Rule δ)}
    (hm : (set.matching host e).result = .ok found) :
    found = set.toList.filter (isHit set.classifiers host e) := by
  rw [matching_eq_testEach h] at hm
  rcases asked_testEach host e (set.toList.filter fun r =>
      isCandidate set.classifiers (host.facets e) r.selector) with
    ⟨_, _, _, cause, -, -, -, -, hres⟩ | ⟨-, -, hres⟩
  · rw [hm] at hres
    cases hres
  · rw [hm, List.filter_filter] at hres
    cases hres
    exact List.filter_congr fun r _ => Bool.and_comm _ _

theorem WellFiled.of_matchEach_eq_ok (h : WellFiled set) {es : List ε}
    {hits : List (ε × List (Rule δ))} (hm : (set.matchEach host es).result = .ok hits) :
    hits = es.map fun e => (e, set.toList.filter (isHit set.classifiers host e)) := by
  induction es generalizing hits with
  | nil => cases hm; rfl
  | cons e es ih =>
    obtain ⟨rules, hrules, hm⟩ := Consult.result_bind_eq_ok hm
    obtain ⟨others, hothers, hm⟩ := Consult.result_bind_eq_ok hm
    cases hm
    rw [h.of_matching_eq_ok hrules, ih hothers, List.map_cons]

theorem result_queryIsolated (ho : host.Obeys below readable) (root : ε) {selectors : List String}
    (hs : ∀ s ∈ selectors, readable s) :
    (queryIsolated host root selectors).result =
      .ok (selectors.map fun s => (s, (below root).filter fun e => host.accepts e s)) := by
  induction selectors with
  | nil => rfl
  | cons s rest ih =>
    unfold queryIsolated
    rw [Consult.bind_of_ok (x := Consult.select host root s) (ho.select_eq root s
      (hs s List.mem_cons_self)), Consult.bind_of_ok (ih fun s' hs' =>
      hs s' (List.mem_cons_of_mem s hs'))]
    rfl

theorem of_queryIsolated_eq_ok {root : ε} {selectors : List String}
    {alone : List (String × List ε)} (h : (queryIsolated host root selectors).result = .ok alone) :
    (∀ s ∈ selectors, host.select root s = .ok (host.selected root s)) ∧
      alone = selectors.map fun s => (s, host.selected root s) := by
  induction selectors generalizing alone with
  | nil => cases h; exact ⟨nofun, rfl⟩
  | cons s rest ih =>
    obtain ⟨elements, hselect, h⟩ := Consult.result_bind_eq_ok h
    obtain ⟨others, hothers, h⟩ := Consult.result_bind_eq_ok h
    cases h
    have hselected := Host.selected_of_select hselect
    obtain ⟨hall, rfl⟩ := ih hothers
    refine ⟨List.forall_mem_cons.2 ⟨by rw [hselected]; exact hselect, hall⟩, ?_⟩
    rw [List.map_cons, hselected]

/-! ## What is gathered under an id -/

/-- A step for a rule changes only what is under the id of the rule. -/
def ChangesOwn (step : Found ε δ → Rule δ → Found ε δ)
    (change : Rule δ → Option (QueryMatch ε δ) → QueryMatch ε δ) : Prop :=
  ∀ found r (id : RuleId),
    (step found r)[id]? = if r.id = id then some (change r found[id]?) else found[id]?

namespace ChangesOwn

variable {step : Found ε δ → Rule δ → Found ε δ}
  {change : Rule δ → Option (QueryMatch ε δ) → QueryMatch ε δ} {rules : List (Rule δ)}

theorem getElem?_foldl_of_ne (h : ChangesOwn step change) {id : RuleId}
    (hne : ∀ q ∈ rules, q.id ≠ id) (found : Found ε δ) :
    (rules.foldl step found)[id]? = found[id]? := by
  induction rules generalizing found with
  | nil => rfl
  | cons q rest ih =>
    rw [List.foldl_cons, ih fun q' hq' => hne q' (List.mem_cons_of_mem q hq'), h,
      if_neg (hne q List.mem_cons_self)]

theorem getElem?_foldl_of_mem (h : ChangesOwn step change)
    (hasc : rules.Pairwise (·.id < ·.id)) {r : Rule δ} (hr : r ∈ rules) (found : Found ε δ) :
    (rules.foldl step found)[r.id]? = some (change r found[r.id]?) := by
  induction hasc generalizing found with
  | nil => cases hr
  | @cons q rest hlt _ ih =>
    rw [List.foldl_cons]
    rcases List.mem_cons.1 hr with rfl | hr
    · rw [h.getElem?_foldl_of_ne fun q hq => Nat.ne_of_gt (hlt q hq), h, if_pos rfl]
    · rw [ih hr, h, if_neg (Nat.ne_of_lt (hlt r hr))]

end ChangesOwn

theorem changesOwn_addElement (e : ε) :
    ChangesOwn (addElement e) fun (r : Rule δ) m =>
      ⟨r, e :: (m.map QueryMatch.elements).getD []⟩ := by
  intro found r id
  simp only [addElement, Std.TreeMap.getElem?_alter, Std.LawfulEqCmp.compare_eq_iff_eq]
  split
  · rename_i h
    rw [h]
  · rfl

theorem changesOwn_insert (elements : List ε) :
    ChangesOwn (fun found r => found.insert r.id ⟨r, elements⟩) fun (r : Rule δ) _ =>
      ⟨r, elements⟩ := by
  intro found r id
  simp only [Std.TreeMap.getElem?_insert, Std.LawfulEqCmp.compare_eq_iff_eq]

/-- A match of a rule, unless it has no element. -/
def matchOf (r : Rule δ) (elements : List ε) : Option (QueryMatch ε δ) :=
  if elements.isEmpty then none else some ⟨r, elements⟩

theorem elements_matchOf (r : Rule δ) (elements : List ε) :
    ((matchOf r elements).map QueryMatch.elements).getD [] = elements := by
  cases elements <;> rfl

theorem gather_cons (isolated : List String) (e : ε) (rules : List (Rule δ))
    (hits : List (ε × List (Rule δ))) :
    gather isolated ((e, rules) :: hits) =
      (rules.filter fun r => !isolated.contains r.selector).foldl (addElement e)
        (gather isolated hits) := rfl

/-- Each rule gathers the elements that it is a hit of, unless its selector is isolated. -/
theorem getElem?_gather {rules : List (Rule δ)} (hasc : rules.Pairwise (·.id < ·.id))
    (isolated : List String) (p : ε → Rule δ → Bool) (es : List ε) {r : Rule δ} (hr : r ∈ rules) :
    (gather isolated (es.map fun e => (e, rules.filter (p e))))[r.id]? =
      matchOf r (es.filter fun e => p e r && !isolated.contains r.selector) := by
  induction es with
  | nil => simp [gather, matchOf]
  | cons e es ih =>
    rw [List.map_cons, gather_cons, List.filter_cons]
    split
    · rename_i h
      have hp := Bool.and_eq_true_iff.1 h
      have hmem : r ∈ (rules.filter (p e)).filter fun r => !isolated.contains r.selector :=
        List.mem_filter.2 ⟨List.mem_filter.2 ⟨hr, hp.1⟩, hp.2⟩
      rw [(changesOwn_addElement e).getElem?_foldl_of_mem ((hasc.filter _).filter _) hmem, ih,
        elements_matchOf]
      rfl
    · rename_i h
      rw [(changesOwn_addElement e).getElem?_foldl_of_ne, ih]
      intro q hq heq
      obtain ⟨hq, hiso⟩ := List.mem_filter.1 hq
      obtain ⟨hq, hp⟩ := List.mem_filter.1 hq
      have := Ascending.eq_of_key_eq hasc hq hr heq
      subst this
      exact h (Bool.and_eq_true_iff.2 ⟨hp, hiso⟩)

theorem getElem?_gather_of_ne {rules : List (Rule δ)} (isolated : List String)
    (p : ε → Rule δ → Bool) (es : List ε) {id : RuleId} (h : ∀ q ∈ rules, q.id ≠ id) :
    (gather isolated (es.map fun e => (e, rules.filter (p e))))[id]? = none := by
  induction es with
  | nil => simp [gather]
  | cons e es ih =>
    rw [List.map_cons, gather_cons, (changesOwn_addElement e).getElem?_foldl_of_ne, ih]
    intro q hq
    exact h q (List.mem_of_mem_filter (List.mem_of_mem_filter hq))

theorem getElem?_addIsolated (h : WellFiled set) (found : Found ε δ) (selector : String)
    (elements : List ε) {r : Rule δ} (hr : r ∈ set.toList) :
    (set.addIsolated found (selector, elements))[r.id]? =
      if (isFiled set.classifiers r && r.selector == selector && !elements.isEmpty) = true then
        some ⟨r, elements⟩ else found[r.id]? := by
  have hasc : (set.filed.filter fun q => q.selector == selector).Pairwise (·.id < ·.id) :=
    (h.filed_eq ▸ h.pairwise_toList.filter _).filter _
  cases elements with
  | nil => simp [addIsolated]
  | cons e es =>
    simp only [addIsolated, List.isEmpty_cons, Bool.not_false, Bool.and_true]
    split
    · rename_i hs
      obtain ⟨hf, hs⟩ := Bool.and_eq_true_iff.1 hs
      exact (changesOwn_insert (e :: es)).getElem?_foldl_of_mem hasc
        (List.mem_filter.2 ⟨h.mem_filed.2 ⟨hr, hf⟩, hs⟩) found
    · rename_i hs
      refine (changesOwn_insert (e :: es)).getElem?_foldl_of_ne (fun q hq heq => hs ?_) found
      obtain ⟨hq, hsel⟩ := List.mem_filter.1 hq
      obtain ⟨hq, hf⟩ := h.mem_filed.1 hq
      have := Ascending.eq_of_key_eq h.pairwise_toList hq hr heq
      subst this
      exact Bool.and_eq_true_iff.2 ⟨hf, hsel⟩

theorem getElem?_addIsolated_of_ne (h : WellFiled set) (found : Found ε δ) (selector : String)
    (elements : List ε) {id : RuleId} (hid : ∀ q ∈ set.toList, q.id ≠ id) :
    (set.addIsolated found (selector, elements))[id]? = found[id]? := by
  cases elements with
  | nil => rfl
  | cons e es =>
    refine (changesOwn_insert (e :: es)).getElem?_foldl_of_ne (fun q hq => ?_) found
    exact hid q (h.mem_filed.1 (List.mem_of_mem_filter hq)).1

/-- All isolated selectors, with elements that depend on the selector only. -/
theorem getElem?_foldl_addIsolated (h : WellFiled set) (found : Found ε δ)
    (elements : String → List ε) (selectors : List String) {r : Rule δ} (hr : r ∈ set.toList) :
    ((selectors.map fun s => (s, elements s)).foldl set.addIsolated found)[r.id]? =
      if (isFiled set.classifiers r && selectors.contains r.selector &&
          !(elements r.selector).isEmpty) = true then some ⟨r, elements r.selector⟩
      else found[r.id]? := by
  induction selectors generalizing found with
  | nil => simp
  | cons s rest ih =>
    rw [List.map_cons, List.foldl_cons, ih, getElem?_addIsolated h _ _ _ hr, List.contains_cons]
    by_cases hs : r.selector = s
    · subst hs
      cases isFiled set.classifiers r <;> cases (elements r.selector).isEmpty <;>
        cases rest.contains r.selector <;> simp
    · have : (r.selector == s) = false := by simpa using hs
      simp only [this, Bool.and_false, Bool.false_and, Bool.false_or, Bool.false_eq_true, if_false]

theorem getElem?_foldl_addIsolated_of_ne (h : WellFiled set) (found : Found ε δ)
    (alone : List (String × List ε)) {id : RuleId} (hid : ∀ q ∈ set.toList, q.id ≠ id) :
    (alone.foldl set.addIsolated found)[id]? = found[id]? := by
  induction alone generalizing found with
  | nil => rfl
  | cons a rest ih => rw [List.foldl_cons, ih, getElem?_addIsolated_of_ne h found a.1 a.2 hid]

/-! ## The whole answer -/

theorem WellFiled.mem_joined (h : WellFiled set) {s : String} :
    s ∈ set.queryPlan.joined ↔
      (∃ r ∈ set.toList, isFiled set.classifiers r = true ∧ r.selector = s) ∧
        Selector.isSelfContained s = true := by
  simp only [queryPlan, List.partition_eq_filter_filter, List.mem_filter, List.mem_eraseDups,
    List.mem_map, h.mem_filed, and_assoc]

theorem WellFiled.mem_isolated (h : WellFiled set) {s : String} :
    s ∈ set.queryPlan.isolated ↔
      (∃ r ∈ set.toList, isFiled set.classifiers r = true ∧ r.selector = s) ∧
        Selector.isSelfContained s = false := by
  simp only [queryPlan, List.partition_eq_filter_filter, List.mem_filter, List.mem_eraseDups,
    List.mem_map, h.mem_filed, and_assoc, Function.comp_apply, Bool.not_eq_true']

theorem WellFiled.contains_isolated (h : WellFiled set) {r : Rule δ} (hr : r ∈ set.toList) :
    set.queryPlan.isolated.contains r.selector =
      (isFiled set.classifiers r && !Selector.isSelfContained r.selector) := by
  rw [Bool.eq_iff_iff, List.contains_iff_mem, h.mem_isolated, Bool.and_eq_true_iff,
    Bool.not_eq_true']
  refine and_congr_left fun _ => ⟨?_, fun hf => ⟨r, hr, hf, rfl⟩⟩
  rintro ⟨q, -, hf, heq⟩
  rw [isFiled, heq] at hf
  rw [isFiled]
  exact hf

/-- The elements below a root that the host gives to a rule: those that it is a hit of, or all
that match its selector if that is queried alone. -/
def elementsOf (classifiers : List Classifier) (host : Host ε) (below : List ε) (r : Rule δ) :
    List ε :=
  if isFiled classifiers r then
    below.filter fun e => if Selector.isSelfContained r.selector then isHit classifiers host e r
      else host.accepts e r.selector
  else []

/-- The joined query finds every element that some joined selector is matched by, so a look at
each of them meets every hit. -/
theorem WellFiled.result_queryJoined (h : WellFiled set) (ho : host.Obeys below readable)
    (hr : ∀ r ∈ set.filed, readable r.selector) (root : ε) :
    ∃ es : List ε,
      (set.queryJoined host root set.queryPlan.joined).result = .ok (es.map fun e =>
        (e, set.toList.filter (isHit set.classifiers host e))) ∧
      ∀ r ∈ set.toList, Selector.isSelfContained r.selector = true →
        es.filter (fun e => isHit set.classifiers host e r) =
          (below root).filter fun e => isHit set.classifiers host e r := by
  have hread : ∀ s ∈ set.queryPlan.joined, readable s ∧ Selector.isSelfContained s = true := by
    intro s hs
    obtain ⟨⟨r, hmem, hf, rfl⟩, hclosed⟩ := h.mem_joined.1 hs
    exact ⟨hr r (h.mem_filed.2 ⟨hmem, hf⟩), hclosed⟩
  have hhit {e : ε} {r : Rule δ} (hmem : r ∈ set.toList)
      (hclosed : Selector.isSelfContained r.selector = true)
      (hh : isHit set.classifiers host e r = true) : r.selector ∈ set.queryPlan.joined :=
    h.mem_joined.2 ⟨⟨r, hmem, isFiled_of_isCandidate (Bool.and_eq_true_iff.1 hh).1, rfl⟩, hclosed⟩
  cases hj : set.queryPlan.joined with
  | nil =>
    refine ⟨[], rfl, fun r hmem hclosed => ?_⟩
    refine (List.filter_eq_nil_iff.2 fun e _ hh => ?_).symm
    have := hhit hmem hclosed hh
    rw [hj] at this
    cases this
  | cons s rest =>
    rw [hj] at hread
    obtain ⟨hreadable, haccepts⟩ := ho.join (s :: rest) (List.cons_ne_nil s rest) hread
    refine ⟨(below root).filter fun e => host.accepts e (", ".intercalate (s :: rest)), ?_,
      fun r hmem hclosed => ?_⟩
    · show (Consult.select host root (", ".intercalate (s :: rest)) >>=
        set.matchEach host).result = _
      rw [Consult.bind_of_ok (x := Consult.select host root _) (ho.select_eq root _ hreadable)]
      exact result_matchEach fun e _ => h.result_matching host e fun r hf =>
        ho.answers e r.selector (hr r hf)
    · rw [List.filter_filter]
      refine List.filter_congr fun e _ => ?_
      rw [haccepts, Bool.eq_iff_iff, Bool.and_eq_true_iff]
      refine ⟨And.left, fun hh => ⟨hh, List.any_eq_true.2 ⟨r.selector, ?_, ?_⟩⟩⟩
      · rw [← hj]
        exact hhit hmem hclosed hh
      · exact (Bool.and_eq_true_iff.1 hh).2

/-- A map that holds under each rule's id its match, and nothing else, lists the matches. -/
theorem map_snd_toList {found : Found ε δ} {rules : List (Rule δ)} {elements : Rule δ → List ε}
    (hasc : rules.Pairwise (·.id < ·.id))
    (hmem : ∀ r ∈ rules, found[r.id]? = matchOf r (elements r))
    (hne : ∀ id, (∀ q ∈ rules, q.id ≠ id) → found[id]? = none) :
    found.toList.map Prod.snd = rules.filterMap fun r => matchOf r (elements r) := by
  have hlist : found.toList = rules.filterMap fun r =>
      (matchOf r (elements r)).map fun m => (r.id, m) := by
    refine Ascending.toList_eq ?_ fun id m => ?_
    · rw [List.pairwise_filterMap]
      refine hasc.imp fun {a b} hab p hp q hq => ?_
      obtain ⟨_, -, rfl⟩ := Option.map_eq_some_iff.1 hp
      obtain ⟨_, -, rfl⟩ := Option.map_eq_some_iff.1 hq
      exact hab
    · rw [List.mem_filterMap]
      constructor
      · intro hm
        by_cases hid : ∃ r ∈ rules, r.id = id
        · obtain ⟨r, hr, rfl⟩ := hid
          exact ⟨r, hr, by rw [← hmem r hr, hm]; rfl⟩
        · rw [hne id fun q hq heq => hid ⟨q, hq, heq⟩] at hm
          cases hm
      · rintro ⟨r, hr, hm⟩
        obtain ⟨m', hm', heq⟩ := Option.map_eq_some_iff.1 hm
        cases heq
        rw [hmem r hr, hm']
  rw [hlist, List.map_filterMap]
  refine List.filterMap_congr fun r _ => ?_
  cases matchOf r (elements r) <;> rfl

/-- What is gathered for a rule: the elements `alone` of its selector if that was isolated and has
some, or else those of `es` that it is a hit of. -/
def gathered (classifiers : List Classifier) (host : Host ε) (isolated : List String)
    (alone : String → List ε) (es : List ε) (r : Rule δ) : List ε :=
  if isFiled classifiers r && isolated.contains r.selector && !(alone r.selector).isEmpty then
    alone r.selector
  else es.filter fun e => isHit classifiers host e r && !isolated.contains r.selector

/-- The answer to a query, when the host has been asked for everything. -/
theorem WellFiled.map_snd_found (h : WellFiled set) (host : Host ε) (isolated : List String)
    (alone : String → List ε) (es : List ε) :
    ((isolated.map fun s => (s, alone s)).foldl set.addIsolated (gather isolated
        (es.map fun e => (e, set.toList.filter (isHit set.classifiers host e))))).toList.map
        Prod.snd =
      set.toList.filterMap fun r =>
        matchOf r (gathered set.classifiers host isolated alone es r) := by
  refine map_snd_toList h.pairwise_toList (fun r hr => ?_) fun id hid => ?_
  · rw [getElem?_foldl_addIsolated h _ _ _ hr, getElem?_gather h.pairwise_toList _ _ _ hr, gathered]
    split
    · rename_i halone
      have hne := (Bool.and_eq_true_iff.1 halone).2
      rw [Bool.not_eq_true'] at hne
      rw [matchOf, hne]
      rfl
    · rfl
  · rw [getElem?_foldl_addIsolated_of_ne h _ _ hid, getElem?_gather_of_ne _ _ _ hid]

/-- A query answers with each live rule that has elements, in the order of ids. -/
theorem WellFiled.result_queryAll (h : WellFiled set) (ho : host.Obeys below readable)
    (hr : ∀ r ∈ set.filed, readable r.selector) (root : ε) :
    (set.queryAll host root).result = .ok (set.toList.filterMap fun r =>
      matchOf r (elementsOf set.classifiers host (below root) r)) := by
  obtain ⟨es, hjoined, hes⟩ := h.result_queryJoined ho hr root
  have hiso : ∀ s ∈ set.queryPlan.isolated, readable s := fun s hs => by
    obtain ⟨⟨r, hmem, hf, rfl⟩, -⟩ := h.mem_isolated.1 hs
    exact hr r (h.mem_filed.2 ⟨hmem, hf⟩)
  unfold queryAll
  rw [Consult.bind_of_ok hjoined, Consult.bind_of_ok (result_queryIsolated ho root hiso),
    Consult.result_pure, h.map_snd_found host _ fun s => (below root).filter fun e =>
      host.accepts e s]
  refine congrArg Except.ok (List.filterMap_congr fun r hmem => congrArg (matchOf r) ?_)
  rw [gathered, h.contains_isolated hmem]
  cases hf : isFiled set.classifiers r with
  | false =>
    have hhit : ∀ e, isHit set.classifiers host e r = false := fun e =>
      Bool.eq_false_iff.2 fun hh => by
        rw [isFiled_of_isCandidate (Bool.and_eq_true_iff.1 hh).1] at hf
        cases hf
    simp [elementsOf, hf, hhit]
  | true =>
    cases hc : Selector.isSelfContained r.selector with
    | true => simp [elementsOf, hf, hc, hes r hmem hc]
    | false =>
      simp [elementsOf, hf, hc]

/-! ## Entry by entry -/

/-- A lookup of the element finds the rule. -/
def Finds (set : RuleSet δ) (host : Host ε) (e : ε) (r : Rule δ) : Prop :=
  ∃ rules, (set.matching host e).result = .ok rules ∧ r ∈ rules

theorem WellFiled.finds_iff (h : WellFiled set) {e : ε}
    (ha : ∀ r ∈ set.filed, host.Answers e r.selector) {r : Rule δ} (hr : r ∈ set.toList) :
    set.Finds host e r ↔ isHit set.classifiers host e r = true := by
  rw [Finds, h.result_matching host e ha]
  constructor
  · rintro ⟨rules, heq, hmem⟩
    cases heq
    exact (List.mem_filter.1 hmem).2
  · intro hh
    exact ⟨_, rfl, List.mem_filter.2 ⟨hr, hh⟩⟩

theorem WellFiled.mem_filed_iff_placed (h : WellFiled set) {r : Rule δ} :
    (∃ p ∈ set.placed, p.rule = r ∧ p.placements ≠ []) ↔
      r ∈ set.toList ∧ isFiled set.classifiers r = true := by
  rw [← h.mem_filed, filed, List.mem_map]
  refine exists_congr fun p => ?_
  rw [List.mem_filter, Bool.not_eq_true', List.isEmpty_eq_false_iff, and_assoc,
    and_comm (a := p.rule = r)]

theorem matchOf_eq_some_iff {r : Rule δ} {elements : List ε} {m : QueryMatch ε δ} :
    matchOf r elements = some m ↔ elements ≠ [] ∧ m = ⟨r, elements⟩ := by
  cases elements with
  | nil => simp [matchOf]
  | cons e es => simp [matchOf, eq_comm]

open Classical in
theorem WellFiled.eq_elementsOf_iff (h : WellFiled set) (ho : host.Obeys below fun _ => True)
    (root : ε) {r : Rule δ} (hr : r ∈ set.toList) (hf : isFiled set.classifiers r = true)
    (elements : List ε) :
    elements = elementsOf set.classifiers host (below root) r ↔
      if Selector.isSelfContained r.selector then
        elements = (below root).filter fun e => set.Finds host e r
      else host.select root r.selector = .ok elements := by
  rw [elementsOf, if_pos hf]
  cases hc : Selector.isSelfContained r.selector with
  | true =>
    have hfinds (e : ε) : isHit set.classifiers host e r = decide (set.Finds host e r) := by
      rw [Bool.eq_iff_iff, decide_eq_true_iff]
      exact (h.finds_iff (fun r _ => ho.answers e r.selector trivial) hr).symm
    simp [hfinds]
  | false =>
    rw [ho.select_eq root r.selector trivial]
    simp [eq_comm]

open Classical in
/-- A query after any history, of a host that keeps its word: its entries are in the order of
ids, and a filed rule has one exactly if it has elements. They are those that a lookup finds the
rule for, or what the host finds for its selector if that is not closed. -/
theorem queryAll_exact [BEq δ] (classifiers : List Classifier) (edits : List (Edit δ))
    (host : Host ε) (below : ε → List ε) (ho : host.Obeys below fun _ => True) (root : ε) :
    ∃ found, let set := (withClassifiers classifiers).run edits
      (set.queryAll host root).result = .ok found ∧
      found.Pairwise (·.rule.id < ·.rule.id) ∧
      ∀ m, m ∈ found ↔ m.elements ≠ [] ∧
        (∃ p ∈ set.placed, p.rule = m.rule ∧ p.placements ≠ []) ∧
        if Selector.isSelfContained m.rule.selector then
          m.elements = (below root).filter fun e => set.Finds host e m.rule
        else host.select root m.rule.selector = .ok m.elements := by
  have h := wellFiled_run classifiers edits
  generalize (withClassifiers classifiers).run edits = set at h ⊢
  refine ⟨_, h.result_queryAll ho (fun _ _ => trivial) root, ?_, fun m => ?_⟩
  · rw [List.pairwise_filterMap]
    refine h.pairwise_toList.imp fun {a b} hab p hp q hq => ?_
    rw [(matchOf_eq_some_iff.1 hp).2, (matchOf_eq_some_iff.1 hq).2]
    exact hab
  · obtain ⟨r, elements⟩ := m
    rw [List.mem_filterMap, h.mem_filed_iff_placed]
    constructor
    · rintro ⟨r', hr, hm⟩
      obtain ⟨hne, heq⟩ := matchOf_eq_some_iff.1 hm
      cases heq
      have hf : isFiled set.classifiers r = true := by
        by_contra hf
        exact hne (if_neg hf)
      dsimp only
      exact ⟨hne, ⟨hr, hf⟩, (h.eq_elementsOf_iff ho root hr hf _).1 rfl⟩
    · rintro ⟨hne, ⟨hr, hf⟩, hels⟩
      have heq := (h.eq_elementsOf_iff ho root hr hf elements).2 hels
      exact ⟨r, hr, matchOf_eq_some_iff.2 ⟨heq ▸ hne, by rw [← heq]⟩⟩

def page : Document :=
  .ofNode { tag := "body", children := [{ tag := "p", class? := some "a" }, { tag := "p" }] }

/-- A history with a rule of two groups, one that is not closed and one that is removed. -/
def pageEdits : List (Edit Nat) :=
  [.add ".a, p" 0, .add "[x" 1, .add "p" 2, .remove "p", .add "p" 3]

open Classical in
theorem queryAll_exact_page :
    page.lenientHost.Obeys page.descendants (fun _ => True) ∧
    ∃ found, let set := (withClassifiers Classifier.builtin).run pageEdits
      (set.queryAll page.lenientHost 0).result = .ok found ∧
      found.Pairwise (·.rule.id < ·.rule.id) ∧
      ∀ m, m ∈ found ↔ m.elements ≠ [] ∧
        (∃ p ∈ set.placed, p.rule = m.rule ∧ p.placements ≠ []) ∧
        if Selector.isSelfContained m.rule.selector then
          m.elements = (page.descendants 0).filter fun e => set.Finds page.lenientHost e m.rule
        else page.lenientHost.select 0 m.rule.selector = .ok m.elements :=
  ⟨page.obeys_lenientHost, queryAll_exact _ _ _ _ page.obeys_lenientHost 0⟩

end RuleSet

end SelectorIndex
