import SelectorIndex.Proofs.Ledgers
import SelectorIndex.Proofs.Paths
import SelectorIndex.Proofs.Queries
import SelectorIndex.Proofs.Sizes

/-!
# Rules under other ids

Two sets with the same selectors and payloads in the same order differ in the
ids of their rules only, and no lookup can tell them apart by anything else:
`Renames` relates the two, and each kind of answer follows the renaming, with the
same calls of the host (`AnswersAlike`). So what a history leaves behind is seen
through its live rules alone, however they came to be live
(`same_rules_answer_alike`).
-/

namespace SelectorIndex

variable {ε δ : Type}

/-! ## Answers under a renaming -/

namespace Consult

variable {α β γ : Type}

/-- The same calls, with another reading of the result. -/
def map (f : α → β) (x : Consult ε α) : Consult ε β := ⟨x.calls, x.result.map f⟩

@[simp] theorem map_pure (f : α → β) (a : α) :
    (Pure.pure a : Consult ε α).map f = Pure.pure (f a) :=
  rfl

theorem map_bind (x : Consult ε α) (f : α → Consult ε β) (g : β → γ) :
    (x >>= f).map g = x >>= fun a => (f a).map g := by
  cases h : x.result with
  | error cause =>
    rw [bind_of_error h, bind_of_error h]
    rfl
  | ok a =>
    rw [bind_of_ok h, bind_of_ok h]
    rfl

theorem bind_map (x : Consult ε α) (f : α → β) (g : β → Consult ε γ) :
    x.map f >>= g = x >>= fun a => g (f a) := by
  cases h : x.result with
  | error cause =>
    have hmap : (x.map f).result = .error cause := by rw [map, h]; rfl
    rw [bind_of_error hmap, bind_of_error h]
    rfl
  | ok a =>
    have hmap : (x.map f).result = .ok (f a) := by rw [map, h]; rfl
    rw [bind_of_ok hmap, bind_of_ok h]
    rfl

/-- Only what the first part can result in matters to the second. -/
theorem bind_congr {x : Consult ε α} {f g : α → Consult ε β}
    (h : ∀ a, x.result = .ok a → f a = g a) : x >>= f = x >>= g := by
  cases hx : x.result with
  | error cause => rw [bind_of_error hx, bind_of_error hx]
  | ok a => rw [bind_of_ok hx, bind_of_ok hx, h a hx]

end Consult

def Rule.rename (ρ : RuleId → RuleId) (r : Rule δ) : Rule δ := { r with id := ρ r.id }

@[simp] theorem Rule.selector_rename (ρ : RuleId → RuleId) (r : Rule δ) :
    (r.rename ρ).selector = r.selector := rfl

/-- What does not look at ids keeps the same rules under other ids. -/
theorem Rule.filter_rename {ρ : RuleId → RuleId} {p : Rule δ → Bool}
    (hp : ∀ r, p (r.rename ρ) = p r) (rules : List (Rule δ)) :
    (rules.map (rename ρ)).filter p = (rules.filter p).map (rename ρ) := by
  rw [List.filter_map]
  exact congrArg (List.map (rename ρ)) (List.filter_congr fun r _ => hp r)

def QueryMatch.rename (ρ : RuleId → RuleId) (m : QueryMatch ε δ) : QueryMatch ε δ :=
  { m with rule := m.rule.rename ρ }

def Candidate.rename (ρ : RuleId → RuleId) (c : Candidate) : Candidate := { c with id := ρ c.id }

def MatchTrace.rename (ρ : RuleId → RuleId) (t : MatchTrace) : MatchTrace :=
  { t with candidates := t.candidates.map (Candidate.rename ρ) }

namespace RuleSet

/-- Whatever is asked, both sets give the same answers by the same calls, up to the ids of
rules. -/
structure AnswersAlike (ρ : RuleId → RuleId) (a b : RuleSet δ) : Prop where
  stats_eq : b.stats = a.stats
  classify_eq : ∀ selector, b.classify selector = a.classify selector
  matching_eq : ∀ {ε : Type} (host : Host ε) (e : ε),
    b.matching host e = (a.matching host e).map (List.map (Rule.rename ρ))
  trace_eq : ∀ {ε : Type} (host : Host ε) (e : ε),
    b.trace host e = (a.trace host e).map (MatchTrace.rename ρ)
  queryAll_eq : ∀ {ε : Type} (host : Host ε) (root : ε),
    b.queryAll host root = (a.queryAll host root).map (List.map (QueryMatch.rename ρ))

/-- The second set holds the rules of the first under other ids, in the same order. -/
structure Renames (ρ : RuleId → RuleId) (a b : RuleSet δ) : Prop where
  left : WellFiled a
  right : WellFiled b
  classifiers_eq : b.classifiers = a.classifiers
  toList_eq : b.toList = a.toList.map (Rule.rename ρ)

variable {ρ : RuleId → RuleId} {a b : RuleSet δ} {host : Host ε}

/-! ## Sizes and slots -/

theorem keysIn_rename (classifiers : List Classifier) (rules : List (Rule δ)) (i : Nat) :
    keysIn classifiers (rules.map (Rule.rename ρ)) i = keysIn classifiers rules i := by
  rw [keysIn, List.flatMap_map, keysIn]
  rfl

theorem Renames.stats_eq (h : Renames ρ a b) : b.stats = a.stats := by
  rw [h.right.stats_eq, h.left.stats_eq, h.classifiers_eq, h.toList_eq]
  simp only [keysIn_rename]

theorem Renames.classify_eq (h : Renames ρ a b) (selector : String) :
    b.classify selector = a.classify selector := by
  rw [classify, h.classifiers_eq, classify]

/-! ## Lookups -/

theorem testEach_rename (host : Host ε) (e : ε) (rules : List (Rule δ)) :
    testEach host e (rules.map (Rule.rename ρ)) =
      (testEach host e rules).map (List.map (Rule.rename ρ)) := by
  induction rules with
  | nil => rfl
  | cons r rest ih =>
    rw [List.map_cons, testEach, testEach, ih, Consult.map_bind]
    refine Consult.bind_congr fun accepted _ => ?_
    rw [Consult.bind_map, Consult.map_bind]
    refine Consult.bind_congr fun others _ => ?_
    cases accepted <;> rfl

theorem Renames.matching_eq (h : Renames ρ a b) (host : Host ε) (e : ε) :
    b.matching host e = (a.matching host e).map (List.map (Rule.rename ρ)) := by
  rw [matching_eq_testEach h.right, matching_eq_testEach h.left, ← testEach_rename, h.toList_eq,
    h.classifiers_eq, Rule.filter_rename fun r => by rw [Rule.selector_rename]]

/-! ## Traces -/

theorem traceEach_rename (host : Host ε) (e : ε) (via : String → List String)
    {rules : List (Rule δ)} (ha : ∀ r ∈ rules, a.get? r.id = some r)
    (hb : ∀ r ∈ rules, b.get? (ρ r.id) = some (r.rename ρ)) :
    b.traceEach host e (rules.map fun r => (ρ r.id, via r.selector)) =
      (a.traceEach host e (rules.map fun r => (r.id, via r.selector))).map
        (List.map (Candidate.rename ρ)) := by
  induction rules with
  | nil => rfl
  | cons r rest ih =>
    have hrest := ih (fun q hq => ha q (List.mem_cons_of_mem r hq))
      fun q hq => hb q (List.mem_cons_of_mem r hq)
    simp only [List.map_cons, traceEach, ha r List.mem_cons_self, hb r List.mem_cons_self]
    rw [hrest, Consult.map_bind]
    refine Consult.bind_congr fun accepted _ => ?_
    rw [Consult.bind_map, Consult.map_bind]
    rfl

theorem Renames.length_posting_eq (h : Renames ρ a b) (slot : Placement) :
    (posting b.indexes slot).length = (posting a.indexes slot).length := by
  rw [h.right.length_posting, h.left.length_posting, h.toList_eq, h.classifiers_eq,
    List.flatMap_map]
  rfl

/-- The looks of both sets differ in the ids they find, and agree in their number. -/
theorem Renames.map_lookups_eq (h : Renames ρ a b) (facets : Facets) {α : Type}
    {f : String × String × List RuleId → α}
    (hf : ∀ index key ids ids', List.length ids = List.length ids' →
      f (index, key, ids) = f (index, key, ids')) :
    (b.lookups facets).map f = (a.lookups facets).map f := by
  rw [lookups_eq, lookups_eq, h.classifiers_eq, List.map_map, List.map_map]
  exact List.map_congr_left fun visit _ => hf _ _ _ _ (h.length_posting_eq visit.2)

theorem Renames.get?_eq (h : Renames ρ a b) {r : Rule δ} (hr : r ∈ a.toList) :
    b.get? (ρ r.id) = some (r.rename ρ) :=
  h.right.get?_eq_some_iff.2 ⟨h.toList_eq ▸ List.mem_map_of_mem hr, rfl⟩

theorem Renames.trace_eq (h : Renames ρ a b) (host : Host ε) (e : ε) :
    b.trace host e = (a.trace host e).map (MatchTrace.rename ρ) := by
  have hpaths : (paths (b.lookups (host.facets e))).toList =
      (a.toList.filter fun r => isCandidate a.classifiers (host.facets e) r.selector).map
        fun r => (ρ r.id, route a.classifiers (host.facets e) r.selector) := by
    rw [h.right.toList_paths, h.classifiers_eq, h.toList_eq,
      Rule.filter_rename fun r => by rw [Rule.selector_rename], List.map_map]
    simp only [Function.comp_def, Rule.rename]
  rw [trace, trace, h.map_lookups_eq _ fun index key _ _ => congrArg (IndexLookup.mk index key),
    hpaths, h.left.toList_paths, traceEach_rename host e _
    (fun r hr => h.left.get?_eq_some_iff.2 ⟨List.mem_of_mem_filter hr, rfl⟩)
    (fun r hr => h.get?_eq (List.mem_of_mem_filter hr)), Consult.bind_map, Consult.map_bind]
  rfl

/-! ## Queries -/

@[simp] theorem isFiled_rename (classifiers : List Classifier) (r : Rule δ) :
    isFiled classifiers (r.rename ρ) = isFiled classifiers r := by
  rw [isFiled, isFiled, Rule.selector_rename]

@[simp] theorem isHit_rename (classifiers : List Classifier) (host : Host ε) (e : ε)
    (r : Rule δ) : isHit classifiers host e (r.rename ρ) = isHit classifiers host e r := by
  rw [isHit, isHit, Rule.selector_rename]

theorem matchOf_gathered_rename (classifiers : List Classifier) (host : Host ε)
    (isolated : List String) (alone : String → List ε) (es : List ε) (r : Rule δ) :
    matchOf (r.rename ρ) (gathered classifiers host isolated alone es (r.rename ρ)) =
      (matchOf r (gathered classifiers host isolated alone es r)).map (QueryMatch.rename ρ) := by
  have hgathered : gathered classifiers host isolated alone es (r.rename ρ) =
      gathered classifiers host isolated alone es r := by
    simp only [gathered, isFiled_rename, isHit_rename, Rule.selector_rename]
  rw [hgathered]
  cases gathered classifiers host isolated alone es r <;> rfl

def renameHit (ρ : RuleId → RuleId) (hit : ε × List (Rule δ)) : ε × List (Rule δ) :=
  (hit.1, hit.2.map (Rule.rename ρ))

namespace Renames

theorem queryPlan_eq (h : Renames ρ a b) : b.queryPlan = a.queryPlan := by
  have hselectors : (Rule.selector ∘ Rule.rename ρ : Rule δ → String) = Rule.selector := rfl
  rw [queryPlan, queryPlan, h.right.filed_eq, h.left.filed_eq, h.toList_eq, h.classifiers_eq,
    Rule.filter_rename (isFiled_rename _), List.map_map, hselectors]

theorem matchEach_eq (h : Renames ρ a b) (host : Host ε) (es : List ε) :
    b.matchEach host es = (a.matchEach host es).map (List.map (renameHit ρ)) := by
  induction es with
  | nil => rfl
  | cons e es ih =>
    rw [matchEach, matchEach, ih, h.matching_eq, Consult.bind_map, Consult.map_bind]
    refine Consult.bind_congr fun rules _ => ?_
    rw [Consult.bind_map, Consult.map_bind]
    rfl

theorem queryJoined_eq (h : Renames ρ a b) (host : Host ε) (root : ε) (selectors : List String) :
    b.queryJoined host root selectors =
      (a.queryJoined host root selectors).map (List.map (renameHit ρ)) := by
  cases selectors with
  | nil => rfl
  | cons s rest =>
    rw [queryJoined, queryJoined, Consult.map_bind]
    · exact Consult.bind_congr fun elements _ => h.matchEach_eq host elements
    · exact nofun
    · exact nofun

theorem map_renameHit (h : Renames ρ a b) (host : Host ε) (es : List ε) :
    (es.map fun e => (e, a.toList.filter (isHit a.classifiers host e))).map (renameHit ρ) =
      es.map fun e => (e, b.toList.filter (isHit b.classifiers host e)) := by
  rw [List.map_map]
  refine List.map_congr_left fun e _ => ?_
  rw [h.toList_eq, h.classifiers_eq, Rule.filter_rename (isHit_rename _ host e),
    Function.comp_apply, renameHit]

end Renames

theorem Renames.queryAll_eq (h : Renames ρ a b) (host : Host ε) (root : ε) :
    b.queryAll host root = (a.queryAll host root).map (List.map (QueryMatch.rename ρ)) := by
  rw [queryAll, queryAll, h.queryPlan_eq, h.queryJoined_eq, Consult.bind_map, Consult.map_bind]
  refine Consult.bind_congr fun hits hhits => ?_
  rw [Consult.map_bind]
  refine Consult.bind_congr fun alone halone => ?_
  obtain ⟨es, rfl⟩ : ∃ es : List ε,
      hits = es.map fun e => (e, a.toList.filter (isHit a.classifiers host e)) := by
    cases hj : a.queryPlan.joined with
    | nil =>
      rw [hj] at hhits
      cases hhits
      exact ⟨[], rfl⟩
    | cons s rest =>
      rw [hj] at hhits
      obtain ⟨es, -, hhits⟩ := Consult.result_bind_eq_ok hhits
      exact ⟨es, h.left.of_matchEach_eq_ok hhits⟩
  rw [(of_queryIsolated_eq_ok halone).2, h.map_renameHit, Consult.map_pure,
    h.right.map_snd_found, h.left.map_snd_found, h.toList_eq, h.classifiers_eq,
    List.filterMap_map, List.map_filterMap]
  simp only [Function.comp_def, matchOf_gathered_rename]

/-- No lookup tells the two sets apart. -/
theorem Renames.answersAlike (h : Renames ρ a b) : AnswersAlike ρ a b :=
  ⟨h.stats_eq, h.classify_eq, h.matching_eq, h.trace_eq, h.queryAll_eq⟩

/-! ## Which sets are renamings -/

theorem exists_rename {l m : List (Rule δ)} (hl : l.Pairwise (·.id < ·.id))
    (h : l.map Rule.item = m.map Rule.item) : ∃ ρ, m = l.map (Rule.rename ρ) := by
  induction hl generalizing m with
  | nil => exact ⟨id, List.map_eq_nil_iff.1 h.symm⟩
  | @cons r l hlt _ ih =>
    cases m with
    | nil => cases h
    | cons q m =>
      obtain ⟨hitem, hrest⟩ := List.cons_eq_cons.1 h
      obtain ⟨hselector, hdata⟩ := Prod.mk.inj hitem
      obtain ⟨ρ, rfl⟩ := ih hrest
      refine ⟨Function.update ρ r.id q.id, ?_⟩
      rw [List.map_cons, Rule.rename, Function.update_self, hselector, hdata]
      refine congrArg (q :: ·) (List.map_congr_left fun r' hr' => ?_)
      rw [Rule.rename, Rule.rename, Function.update_of_ne (Nat.ne_of_gt (hlt r' hr'))]

/-- Sets with the same items in the same order are renamings of each other, and the renaming
keeps the order of the live ids. -/
theorem exists_renames (ha : WellFiled a) (hb : WellFiled b)
    (hclassifiers : b.classifiers = a.classifiers)
    (hitems : a.toList.map Rule.item = b.toList.map Rule.item) :
    ∃ ρ, Renames ρ a b ∧ StrictMonoOn ρ {id | ∃ r, a.get? id = some r} := by
  obtain ⟨ρ, hρ⟩ := exists_rename ha.pairwise_toList hitems
  refine ⟨ρ, ⟨ha, hb, hclassifiers, hρ⟩, ?_⟩
  rintro i ⟨r, hget⟩ j ⟨q, hget'⟩ hij
  obtain ⟨hr, rfl⟩ := ha.get?_eq_some_iff.1 hget
  obtain ⟨hq, rfl⟩ := ha.get?_eq_some_iff.1 hget'
  have hasc := hb.pairwise_toList
  rw [hρ, List.pairwise_map] at hasc
  exact Ascending.lt_of_lt ha.pairwise_toList hasc hr hq hij

/-! ## Additions undone -/

/-- The two sets hold the same rules, placed and posted alike. -/
structure SameContents (a b : RuleSet δ) : Prop where
  rules : a.rules.Equiv b.rules
  classifiers_eq : a.classifiers = b.classifiers
  postings : ∀ (i : Nat) (ix jx : Index), a.indexes[i]? = some ix → b.indexes[i]? = some jx →
    ix.postings.Equiv jx.postings

theorem WellFiled.toList_rules (h : WellFiled a) :
    a.rules.toList = a.toList.map fun r =>
      (r.id, ⟨r, Placement.slots a.classifiers r.selector⟩) := by
  rw [toList, placed, List.map_map, List.map_map]
  conv_lhs => rw [← List.map_id a.rules.toList]
  refine List.map_congr_left fun q hq => ?_
  have hid := h.id_eq q hq
  have hplacements := h.placements_eq q.2 (List.mem_map_of_mem hq)
  rw [Function.comp_apply, Function.comp_apply, hid, ← hplacements]
  rfl

theorem WellFiled.getElem?_postings (h : WellFiled a) {i : Nat} {ix : Index}
    (hix : a.indexes[i]? = some ix) (key : String) :
    ix.postings[key]? = Index.posting? (posting a.indexes ⟨i, key⟩) := by
  have hne := h.ne_nil ix (List.mem_of_getElem? hix) key
  rw [posting, hix, Option.elim_some, Index.lookup]
  cases hk : ix.postings[key]? with
  | none => rfl
  | some ids =>
    cases ids with
    | nil => exact absurd hk hne
    | cons id rest => rfl

/-- The live rules say everything about a set but its next id. -/
theorem WellFiled.sameContents (ha : WellFiled a) (hb : WellFiled b)
    (hclassifiers : a.classifiers = b.classifiers) (hlist : a.toList = b.toList) :
    SameContents a b := by
  have hrules : a.rules.toList = b.rules.toList := by
    rw [ha.toList_rules, hb.toList_rules, hclassifiers, hlist]
  refine ⟨Std.TreeMap.equiv_iff_toList_eq.2 hrules, hclassifiers, fun i ix jx hix hjx => ?_⟩
  refine Std.TreeMap.Equiv.of_forall_constGet?_eq fun key => ?_
  rw [ha.getElem?_postings hix, hb.getElem?_postings hjx, ha.posting_eq, hb.posting_eq, placed,
    placed, hrules]

/-- Taking out a selector that was just added takes out the rule that was added. -/
theorem WellFiled.remove_add (h : WellFiled a) (selector : String) (data : δ) :
    ((a.add selector data).2.remove selector).1 = some ⟨a.nextId, selector, data⟩ ∧
      ((a.add selector data).2.remove selector).2.toList = a.toList := by
  have hadd := h.add selector data
  have htake := hadd.takesLast_remove selector
  have hlt : ∀ r ∈ a.toList, r.id < a.nextId := h.exactlyFiled.id_lt
  have hmem {r : Rule δ} : r ∈ (a.add selector data).2.toList ↔
      r ∈ a.toList ∨ r = ⟨a.nextId, selector, data⟩ := by
    rw [h.toList_add, List.mem_append, List.mem_singleton]
  have hfst : ((a.add selector data).2.remove selector).1 = some ⟨a.nextId, selector, data⟩ := by
    cases hout : ((a.add selector data).2.remove selector).1 with
    | none => exact absurd rfl (htake.none_iff.1 hout _ (hmem.2 (.inr rfl)))
    | some r =>
      obtain ⟨hr, -, hlast⟩ := htake.last r hout
      have hle : a.nextId ≤ r.id := hlast _ (hmem.2 (.inr rfl)) rfl
      exact congrArg some ((hmem.1 hr).resolve_left fun hold =>
        absurd (hlt r hold) (Nat.not_lt_of_le hle))
  refine ⟨hfst, Ascending.eq_of_mem_iff (hadd.removeWhere selector _).pairwise_toList
    h.pairwise_toList fun r => (htake.rest r).trans ?_⟩
  rw [hmem, hfst]
  simp only [Option.some.injEq, forall_eq']
  constructor
  · rintro ⟨hr | rfl, hne⟩
    · exact hr
    · exact absurd rfl hne
  · intro hr
    exact ⟨.inl hr, Nat.ne_of_gt (hlt r hr)⟩

/-! ## Histories -/

/-- Histories that leave the same items in the same order leave sets that answer alike: ids are
renamed, and nothing else shows. An addition that is undone leaves nothing but its id. -/
theorem same_rules_answer_alike [BEq δ] (classifiers : List Classifier) :
    (∀ edits edits' : List (Edit δ),
      let a := (withClassifiers classifiers).run edits
      let b := (withClassifiers classifiers).run edits'
      a.toList.map Rule.item = b.toList.map Rule.item →
        ∃ ρ, StrictMonoOn ρ {id | ∃ r, a.get? id = some r} ∧
          b.toList = a.toList.map (Rule.rename ρ) ∧ AnswersAlike ρ a b) ∧
    ∀ (edits : List (Edit δ)) (selector : String) (data : δ),
      let set := (withClassifiers classifiers).run edits
      let out := (set.add selector data).2.remove selector
      out.1 = some ⟨set.nextId, selector, data⟩ ∧ SameContents out.2 set ∧
        out.2.nextId = set.nextId + 1 := by
  constructor
  · intro edits edits' a b hitems
    have hclassifiers : b.classifiers = a.classifiers := by simp only [a, b, classifiers_run]
    obtain ⟨ρ, h, hmono⟩ := exists_renames (wellFiled_run classifiers edits)
      (wellFiled_run classifiers edits') hclassifiers hitems
    exact ⟨ρ, hmono, h.toList_eq, h.answersAlike⟩
  · intro edits selector data set out
    have h : WellFiled set := wellFiled_run classifiers edits
    have hclassifiers : out.2.classifiers = set.classifiers :=
      (classifiers_removeWhere _ selector _).trans (classifiers_add set selector data)
    obtain ⟨hfst, hlist⟩ := h.remove_add selector data
    refine ⟨hfst, ?_, nextId_removeWhere _ selector _⟩
    exact ((h.add selector data).removeWhere selector _).sameContents h hclassifiers hlist

/-- A history that leaves what `pageEdits` leaves, under other ids. -/
def pageDetour : List (Edit Nat) :=
  [.add "p" 9, .add ".a, p" 0, .add "[x" 1, .removeWithData "p" 9, .add "p" 3]

theorem same_rules_answer_alike_detour :
    let a := (withClassifiers Classifier.builtin).run pageEdits
    let b := (withClassifiers Classifier.builtin).run pageDetour
    a.toList.map Rule.item = b.toList.map Rule.item ∧
    a.toList.map Rule.id = [0, 1, 3] ∧ b.toList.map Rule.id = [1, 2, 3] ∧
    ∃ ρ, StrictMonoOn ρ {id | ∃ r, a.get? id = some r} ∧
      b.toList = a.toList.map (Rule.rename ρ) ∧ AnswersAlike ρ a b := by
  intro a b
  have hitems : a.toList.map Rule.item = b.toList.map Rule.item := by decide +kernel
  refine ⟨hitems, by decide +kernel, by decide +kernel, ?_⟩
  exact (same_rules_answer_alike Classifier.builtin).1 pageEdits pageDetour hitems

end RuleSet

end SelectorIndex
