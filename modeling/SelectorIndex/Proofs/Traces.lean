import SelectorIndex.Proofs.Renaming

/-!
# Traces agree with lookups

A trace asks the host what a lookup asks, in the same order, and accepts the
rules that the lookup finds (`map_accepted_trace`). What else it says can be
read off the live rules alone: which candidates there are, through which indexes
each was reached, and how much every look found (`Accounts`).
-/

namespace SelectorIndex

variable {ε δ : Type}

theorem Consult.bind_pure {α β : Type} (x : Consult ε α) (f : α → β) :
    (x >>= fun a => Pure.pure (f a)) = x.map f := by
  cases h : x.result with
  | error cause => rw [bind_of_error h, map, h]; rfl
  | ok a =>
    rw [bind_of_ok h, map, h, calls_pure, List.append_nil]
    rfl

theorem MatchTrace.length_accepted_add_rejected (t : MatchTrace) :
    t.accepted.length + t.rejected = t.candidates.length := by
  rw [accepted, List.length_map, ← List.countP_eq_length_filter,
    List.length_eq_countP_add_countP Candidate.accepted (l := t.candidates)]
  simp only [rejected, Bool.not_eq_true, Bool.decide_eq_false]

namespace RuleSet

/-! ## Names without repeats -/

theorem distinct_append_singleton (names : List String) (name : String) :
    distinct (names ++ [name]) = addName name (distinct names) := by
  rw [distinct, List.foldl_append]
  rfl

theorem distinct_eq_eraseDups (names : List String) : distinct names = names.eraseDups := by
  induction names using List.reverseRecOn with
  | nil => rfl
  | append_singleton names name ih =>
    rw [distinct_append_singleton, ih, List.eraseDups_append, addName, List.contains_eq_mem]
    simp only [List.mem_eraseDups, List.removeAll]
    by_cases h : name ∈ names <;> simp [h, List.eraseDups_cons]

theorem nodup_distinct (names : List String) : (distinct names).Nodup := by
  induction names using List.reverseRecOn with
  | nil => exact List.nodup_nil
  | append_singleton names name ih =>
    rw [distinct_append_singleton, addName]
    split
    · exact ih
    · rename_i hnew
      refine List.nodup_append.2 ⟨ih, List.nodup_singleton name, fun other hother b hb => ?_⟩
      rw [List.mem_singleton.1 hb]
      rintro rfl
      exact hnew (List.contains_iff_mem.2 hother)

/-- A name added several times over is added once. -/
theorem foldl_addName_const {α : Type} (name : String) (as : List α) (seen : List String) :
    (as.map fun _ => name).foldl (fun seen name => addName name seen) seen =
      if as = [] then seen else addName name seen := by
  induction as generalizing seen with
  | nil => rfl
  | cons a as ih =>
    rw [List.map_cons, List.foldl_cons, ih, if_neg (List.cons_ne_nil a as)]
    split
    · rfl
    · exact addName_addName name seen

/-! ## Indexes that lead to a rule -/

/-- Some group of the selector is filed in the index with this number, under a key of the
element. -/
def leads (classifiers : List Classifier) (facets : Facets) (selector : String) (i : Nat) : Bool :=
  (Placement.slots classifiers selector).any fun slot =>
    slot.index == i && Placement.visited classifiers facets slot

variable {classifiers : List Classifier} {facets : Facets} {selector : String}

theorem leads_iff {i : Nat} :
    leads classifiers facets selector i = true ↔
      ∃ c, classifiers[i]? = some c ∧ ∃ key ∈ c.elementKeys facets,
        ⟨i, key⟩ ∈ Placement.slots classifiers selector := by
  simp only [leads, List.any_eq_true, Bool.and_eq_true, beq_iff_eq, Placement.visited_iff]
  constructor
  · rintro ⟨⟨j, key⟩, hslot, rfl, c, hc, hkey⟩
    exact ⟨c, hc, key, hkey, hslot⟩
  · rintro ⟨c, hc, key, hkey, hslot⟩
    exact ⟨⟨i, key⟩, hslot, rfl, c, hc, hkey⟩

theorem isCandidate_iff_exists_leads :
    isCandidate classifiers facets selector = true ↔
      ∃ i, leads classifiers facets selector i = true := by
  simp only [isCandidate, leads, List.any_eq_true, Bool.and_eq_true, beq_iff_eq]
  constructor
  · rintro ⟨slot, hslot, hvisited⟩
    exact ⟨slot.index, slot, hslot, rfl, hvisited⟩
  · rintro ⟨i, slot, hslot, -, hvisited⟩
    exact ⟨slot, hslot, hvisited⟩

def leadNames (classifiers : List Classifier) (facets : Facets) (selector : String) :
    List String :=
  (classifiers.zipIdx.filter fun p => leads classifiers facets selector p.2).map fun p => p.1.name

/-- However many keys lead to a rule in an index, its name is noted once. -/
theorem route_eq : route classifiers facets selector =
    (leadNames classifiers facets selector).eraseDups := by
  rw [← distinct_eq_eraseDups, route, leadNames, distinct, distinct, visits, List.filter_flatMap,
    List.map_flatMap, List.foldl_flatMap, List.foldl_map, List.foldl_filter]
  refine List.foldl_ext _ _ _ fun seen p hp => ?_
  obtain ⟨c, i⟩ := p
  have hc : classifiers[i]? = some c := List.mk_mem_zipIdx_iff_getElem?.1 hp
  have hnames : (((c.elementKeys facets).map fun key => (c.name, (⟨i, key⟩ : Placement))).filter
      fun visit => (Placement.slots classifiers selector).contains visit.2).map Prod.fst =
      ((c.elementKeys facets).filter fun key =>
        (Placement.slots classifiers selector).contains ⟨i, key⟩).map fun _ => c.name := by
    rw [List.filter_map, List.map_map]
    rfl
  have hleads : ((c.elementKeys facets).filter fun key =>
      (Placement.slots classifiers selector).contains ⟨i, key⟩) ≠ [] ↔
      leads classifiers facets selector i = true := by
    rw [leads_iff, ne_eq, List.filter_eq_nil_iff]
    simp only [hc, Option.some.injEq, exists_eq_left', List.contains_iff_mem, not_forall, not_not,
      exists_prop]
  rw [hnames, foldl_addName_const]
  by_cases h : leads classifiers facets selector i = true
  · rw [if_neg (hleads.2 h), if_pos h]
  · rw [if_pos (not_not.1 fun hne => h (hleads.1 hne)), if_neg h]

theorem route_ne_nil (h : isCandidate classifiers facets selector = true) :
    route classifiers facets selector ≠ [] := by
  obtain ⟨i, hi⟩ := isCandidate_iff_exists_leads.1 h
  obtain ⟨c, hc, -⟩ := leads_iff.1 hi
  have hmem : c.name ∈ route classifiers facets selector := by
    rw [route_eq, List.mem_eraseDups, leadNames, List.mem_map]
    exact ⟨(c, i), List.mem_filter.2 ⟨List.mk_mem_zipIdx_iff_getElem?.2 hc, hi⟩, rfl⟩
  exact List.ne_nil_of_mem hmem

/-! ## Asking in turn -/

variable {set : RuleSet δ} {host : Host ε} {e : ε}

/-- A trace of rules asks what a lookup of them asks, and accepts what the lookup finds. -/
theorem map_accepted_traceEach (host : Host ε) (e : ε) (via : Rule δ → List String)
    {rules : List (Rule δ)} (h : ∀ r ∈ rules, set.get? r.id = some r) :
    (set.traceEach host e (rules.map fun r => (r.id, via r))).map
        (fun cs => (cs.filter (·.accepted)).map Candidate.id) =
      (testEach host e rules).map (List.map Rule.id) := by
  induction rules with
  | nil => rfl
  | cons r rest ih =>
    have hrest := ih fun q hq => h q (List.mem_cons_of_mem r hq)
    simp only [List.map_cons, traceEach, testEach, h r List.mem_cons_self]
    rw [Consult.map_bind, Consult.map_bind]
    refine Consult.bind_congr fun accepted _ => ?_
    -- both sides add the id of `r`, or do not, to what the rest gives
    calc _ = ((set.traceEach host e (rest.map fun r => (r.id, via r))).map
            fun cs => (cs.filter (·.accepted)).map Candidate.id) >>= fun ids =>
              Pure.pure (if accepted then r.id :: ids else ids) := by
          rw [Consult.map_bind, Consult.bind_map]
          refine Consult.bind_congr fun others _ => ?_
          cases accepted <;> rfl
      _ = ((testEach host e rest).map (List.map Rule.id)) >>= fun ids =>
              Pure.pure (if accepted then r.id :: ids else ids) := by rw [hrest]
      _ = _ := by
          rw [Consult.map_bind, Consult.bind_map]
          refine Consult.bind_congr fun others _ => ?_
          cases accepted <;> rfl

theorem of_traceEach_eq_ok {via : Rule δ → List String} {rules : List (Rule δ)}
    (h : ∀ r ∈ rules, set.get? r.id = some r) {cs : List Candidate}
    (hcs : (set.traceEach host e (rules.map fun r => (r.id, via r))).result = .ok cs) :
    (∀ r ∈ rules, host.Answers e r.selector) ∧
      cs = rules.map fun r => ⟨r.id, r.selector, via r, host.accepts e r.selector⟩ := by
  induction rules generalizing cs with
  | nil => cases hcs; exact ⟨nofun, rfl⟩
  | cons r rest ih =>
    simp only [List.map_cons, traceEach, h r List.mem_cons_self] at hcs
    obtain ⟨accepted, htest, hcs⟩ := Consult.result_bind_eq_ok hcs
    obtain ⟨others, hothers, hcs⟩ := Consult.result_bind_eq_ok hcs
    cases hcs
    obtain ⟨hanswers, rfl⟩ := ih (fun q hq => h q (List.mem_cons_of_mem r hq)) hothers
    refine ⟨List.forall_mem_cons.2 ⟨⟨accepted, htest⟩, hanswers⟩, ?_⟩
    rw [List.map_cons, Host.accepts_of_test htest]

/-! ## What a trace says -/

/-- The trace of an element says what the live rules and the host say of it. -/
structure Accounts (set : RuleSet δ) (host : Host ε) (e : ε) (t : MatchTrace) : Prop where
  /-- The candidates are those of a lookup. -/
  ids_eq : t.candidates.map Candidate.id = set.candidates (host.facets e)
  ascending : t.candidates.Pairwise (·.id < ·.id)
  /-- A live rule is a candidate if some index leads to it. -/
  mem_iff : ∀ r ∈ set.toList, r.id ∈ t.candidates.map Candidate.id ↔
    ∃ i, leads set.classifiers (host.facets e) r.selector i = true
  rule : ∀ c ∈ t.candidates, ∃ r, set.get? c.id = some r ∧ c.selector = r.selector
  /-- Every candidate is accepted or rejected, as the host says. -/
  verdict : ∀ c ∈ t.candidates, host.test e c.selector = .ok c.accepted
  length_eq : t.accepted.length + t.rejected = t.candidates.length
  via_ne_nil : ∀ c ∈ t.candidates, c.via ≠ []
  via_nodup : ∀ c ∈ t.candidates, c.via.Nodup
  /-- The indexes that led to a candidate are those with one of its groups under a key of the
  element, each name where it comes first. -/
  via_eq : ∀ c ∈ t.candidates,
    c.via = (leadNames set.classifiers (host.facets e) c.selector).eraseDups
  /-- Those are the indexes that hold its id under a key of the element. -/
  held_iff : ∀ c ∈ t.candidates, ∀ (i : Nat) (ix : Index), set.indexes[i]? = some ix →
    (leads set.classifiers (host.facets e) c.selector i = true ↔
      ∃ key ∈ ix.classifier.elementKeys (host.facets e), c.id ∈ ix.lookup key)
  /-- Each index is looked up under each key of the element, and a look finds every group of a
  live rule that is placed there. -/
  lookups_eq : t.lookups = set.classifiers.zipIdx.flatMap fun (c, i) =>
    (c.elementKeys (host.facets e)).map fun key => ⟨c.name, key,
      (set.toList.flatMap fun r => Placement.slots set.classifiers r.selector).count ⟨i, key⟩⟩

namespace WellFiled

theorem map_id_candidates (h : WellFiled set) (facets : Facets) :
    set.candidates facets = (set.toList.filter fun r =>
      isCandidate set.classifiers facets r.selector).map Rule.id := by
  have hasc : (set.candidates facets).Pairwise (· < ·) :=
    Std.TreeSet.ordered_toList.imp fun hlt => Nat.compare_eq_lt.1 hlt
  have hasc' : ((set.toList.filter fun r =>
      isCandidate set.classifiers facets r.selector).map Rule.id).Pairwise (· < ·) := by
    rw [List.pairwise_map]
    exact h.pairwise_toList.filter _
  refine @Ascending.eq_of_mem_iff Nat id _ _ hasc hasc' fun i => ?_
  rw [h.mem_candidates, List.mem_map]
  simp only [toList, List.mem_filter, List.mem_map]
  constructor
  · rintro ⟨p, hp, hc, rfl⟩
    exact ⟨p.rule, ⟨⟨p, hp, rfl⟩, hc⟩, rfl⟩
  · rintro ⟨_, ⟨⟨p, hp, rfl⟩, hc⟩, rfl⟩
    exact ⟨p, hp, hc, rfl⟩

theorem map_looks (h : WellFiled set) (facets : Facets) :
    ((set.lookups facets).map fun (index, key, ids) => IndexLookup.mk index key ids.length) =
      set.classifiers.zipIdx.flatMap fun (c, i) => (c.elementKeys facets).map fun key =>
        ⟨c.name, key,
          (set.toList.flatMap fun r => Placement.slots set.classifiers r.selector).count
            ⟨i, key⟩⟩ := by
  rw [lookups_eq, visits, List.map_map, List.map_flatMap]
  apply List.flatMap_congr
  rintro ⟨c, i⟩ -
  rw [List.map_map]
  exact List.map_congr_left fun key _ => congrArg (IndexLookup.mk c.name key) (h.length_posting _)

theorem leads_iff_mem_lookup (h : WellFiled set) {r : Rule δ} (hr : r ∈ set.toList)
    (facets : Facets) {i : Nat} {ix : Index} (hix : set.indexes[i]? = some ix) :
    leads set.classifiers facets r.selector i = true ↔
      ∃ key ∈ ix.classifier.elementKeys facets, r.id ∈ ix.lookup key := by
  have hc : set.classifiers[i]? = some ix.classifier := by
    rw [classifiers, List.getElem?_map, hix]
    rfl
  simp only [leads_iff, hc, Option.some.injEq, exists_eq_left', ← h.mem_posting_iff hr, posting,
    hix, Option.elim_some]

/-- A trace meets the candidates of a lookup, each with its route. -/
theorem trace_eq (h : WellFiled set) (host : Host ε) (e : ε) :
    set.trace host e = do
      let candidates ← set.traceEach host e ((set.toList.filter fun r =>
        isCandidate set.classifiers (host.facets e) r.selector).map fun r =>
          (r.id, route set.classifiers (host.facets e) r.selector))
      return ⟨(set.lookups (host.facets e)).map fun (index, key, ids) => ⟨index, key, ids.length⟩,
        candidates⟩ := by
  rw [trace, h.toList_paths]

theorem get?_of_mem_filter (h : WellFiled set) {p : Rule δ → Bool} :
    ∀ r ∈ set.toList.filter p, set.get? r.id = some r := fun _ hr =>
  h.get?_eq_some_iff.2 ⟨List.mem_of_mem_filter hr, rfl⟩

theorem map_accepted_trace (h : WellFiled set) (host : Host ε) (e : ε) :
    (set.trace host e).map MatchTrace.accepted =
      (set.matching host e).map (List.map Rule.id) := by
  rw [h.trace_eq, matching_eq_testEach h, ← map_accepted_traceEach host e _ h.get?_of_mem_filter,
    Consult.map_bind]
  simp only [Consult.map_pure]
  rw [Consult.bind_pure]
  rfl

theorem accounts_of_trace_eq_ok (h : WellFiled set) {t : MatchTrace}
    (ht : (set.trace host e).result = .ok t) : Accounts set host e t := by
  rw [h.trace_eq] at ht
  obtain ⟨cs, hcs, ht⟩ := Consult.result_bind_eq_ok ht
  cases ht
  obtain ⟨hanswers, rfl⟩ := of_traceEach_eq_ok h.get?_of_mem_filter hcs
  have hids : (((set.toList.filter fun r =>
      isCandidate set.classifiers (host.facets e) r.selector).map fun r =>
        (⟨r.id, r.selector, route set.classifiers (host.facets e) r.selector,
          host.accepts e r.selector⟩ : Candidate))).map Candidate.id =
      set.candidates (host.facets e) := by
    rw [h.map_id_candidates, List.map_map]
    rfl
  refine ⟨hids, ?_, fun r hr => ?_, ?_, ?_, MatchTrace.length_accepted_add_rejected _, ?_, ?_, ?_,
    ?_, h.map_looks _⟩
  · rw [List.pairwise_map]
    exact h.pairwise_toList.filter _
  · rw [hids, h.map_id_candidates, ← isCandidate_iff_exists_leads, List.mem_map]
    constructor
    · rintro ⟨q, hq, hid⟩
      obtain ⟨hq, hc⟩ := List.mem_filter.1 hq
      rwa [Ascending.eq_of_key_eq h.pairwise_toList hr hq hid.symm]
    · intro hc
      exact ⟨r, List.mem_filter.2 ⟨hr, hc⟩, rfl⟩
  all_goals simp only [List.forall_mem_map]
  · exact fun r hr => ⟨r, h.get?_of_mem_filter r hr, rfl⟩
  · intro r hr
    obtain ⟨accepted, htest⟩ := hanswers r hr
    rw [Host.accepts_of_test htest]
    exact htest
  · exact fun r hr => route_ne_nil (List.mem_filter.1 hr).2
  · exact fun r _ => nodup_distinct _
  · exact fun r _ => route_eq
  · exact fun r hr _ _ hix => h.leads_iff_mem_lookup (List.mem_of_mem_filter hr) _ hix

end WellFiled

/-- After any history, and whatever the host answers, a trace makes the calls of a lookup, fails
as it fails, accepts the rules that it finds, and otherwise accounts for them. -/
theorem trace_agrees_run [BEq δ] (classifiers : List Classifier) (edits : List (Edit δ))
    (host : Host ε) (e : ε) :
    let set := (withClassifiers classifiers).run edits
    (set.trace host e).calls = (set.matching host e).calls ∧
    (set.trace host e).result.map MatchTrace.accepted =
      (set.matching host e).result.map (List.map Rule.id) ∧
    ∀ t, (set.trace host e).result = .ok t → Accounts set host e t := by
  intro set
  have h : WellFiled set := wellFiled_run classifiers edits
  have hmap := h.map_accepted_trace host e
  exact ⟨congrArg Consult.calls hmap, congrArg Consult.result hmap,
    fun t ht => h.accounts_of_trace_eq_ok ht⟩

/-- Of the candidates for a paragraph, one is reached by two indexes and one is rejected. -/
theorem trace_agrees_run_page :
    let set := (withClassifiers Classifier.builtin).run pageEdits
    ∃ t, (set.trace page.lenientHost 1).result = .ok t ∧
      (set.trace page.lenientHost 1).calls = (set.matching page.lenientHost 1).calls ∧
      .ok t.accepted = (set.matching page.lenientHost 1).result.map (List.map Rule.id) ∧
      Accounts set page.lenientHost 1 t ∧ t.accepted = [0, 3] ∧
      t.candidates.map Candidate.via = [["class", "tag"], ["universal"], ["tag"]] := by
  intro set
  obtain ⟨hcalls, hresult, haccounts⟩ :=
    trace_agrees_run Classifier.builtin pageEdits page.lenientHost 1
  have hsays : ((set.trace page.lenientHost 1).result.map fun t =>
      (t.accepted, t.candidates.map Candidate.via)) =
      .ok ([0, 3], [["class", "tag"], ["universal"], ["tag"]]) := by decide +kernel
  cases ht : (set.trace page.lenientHost 1).result with
  | error cause =>
    rw [ht] at hsays
    cases hsays
  | ok t =>
    rw [ht] at hsays hresult
    obtain ⟨haccepted, hvia⟩ := Prod.mk.inj (Except.ok.inj hsays)
    exact ⟨t, rfl, hcalls, hresult, haccounts t ht, haccepted, hvia⟩

end RuleSet

end SelectorIndex
