import SelectorIndex.Proofs.Candidates

/-!
# How lookups reach rules

A trace looks into every slot that an element is looked up under (`visits`) and
notes for each rule the indexes that led to it. What it notes is a function of
the selector alone (`route`): so it meets exactly the candidates, in the order of
ids, each with its route (`WellFiled.toList_paths`).
-/

namespace SelectorIndex

namespace RuleSet

variable {δ : Type}

/-- The slots that an element with these facets is looked up under, in the order of lookups, each
with the name of its index. -/
def visits (classifiers : List Classifier) (facets : Facets) : List (String × Placement) :=
  classifiers.zipIdx.flatMap fun (c, i) => (c.elementKeys facets).map fun key => (c.name, ⟨i, key⟩)

theorem exists_mem_visits_iff {classifiers : List Classifier} {facets : Facets}
    {slot : Placement} :
    (∃ name, (name, slot) ∈ visits classifiers facets) ↔
      Placement.visited classifiers facets slot = true := by
  obtain ⟨i, key⟩ := slot
  simp only [visits, Placement.visited_iff, List.mem_flatMap, List.mem_map, Prod.exists,
    List.mk_mem_zipIdx_iff_getElem?, Prod.mk.injEq, Placement.mk.injEq]
  constructor
  · rintro ⟨name, c, j, hc, k, hk, rfl, rfl, rfl⟩
    exact ⟨c, hc, hk⟩
  · rintro ⟨c, hc, hk⟩
    exact ⟨c.name, c, i, hc, key, hk, rfl, rfl, rfl⟩

/-- A trace looks into each slot once, in the order of lookups. -/
theorem lookups_eq (set : RuleSet δ) (facets : Facets) :
    set.lookups facets = (visits set.classifiers facets).map fun (name, slot) =>
      (name, slot.key, posting set.indexes slot) := by
  have hindexes : set.lookups facets = set.indexes.zipIdx.flatMap fun (ix, i) =>
      (ix.classifier.elementKeys facets).map fun key =>
        (ix.classifier.name, key, posting set.indexes ⟨i, key⟩) := by
    rw [lookups]
    conv_lhs => rw [← List.zipIdx_map_fst 0 set.indexes, List.flatMap_map]
    refine List.flatMap_congr fun (ix, i) hix => List.map_congr_left fun key _ => ?_
    simp only [posting, List.mk_mem_zipIdx_iff_getElem?.1 hix, Option.elim_some]
  rw [hindexes, visits, classifiers, List.zipIdx_map, List.flatMap_map, List.map_flatMap]
  refine List.flatMap_congr fun (ix, i) _ => ?_
  simp only [Prod.map, id_eq, List.map_map]
  rfl

/-! ## Names on the way -/

/-- The names in the order of their first occurrences. -/
def distinct (names : List String) : List String :=
  names.foldl (fun seen name => addName name seen) []

theorem addName_addName (name : String) (names : List String) :
    addName name (addName name names) = addName name names := by
  have hmem : (addName name names).contains name = true := by
    rw [addName]
    split
    · assumption
    · simp
  rw [addName, if_pos hmem]

theorem getElem?_foldl_alter (name : String) (ids : List RuleId)
    (via : Std.TreeMap RuleId (List String)) (id : RuleId) :
    (ids.foldl (fun via id => via.alter id fun names => some (addName name (names.getD [])))
        via)[id]? =
      if id ∈ ids then some (addName name (via[id]?.getD [])) else via[id]? := by
  induction ids generalizing via with
  | nil => simp
  | cons i ids ih =>
    rw [List.foldl_cons, ih, Std.TreeMap.getElem?_alter]
    simp only [Std.LawfulEqCmp.compare_eq_iff_eq, List.mem_cons]
    by_cases hi : i = id
    · simp [hi, addName_addName]
    · simp [hi, Ne.symm hi]

/-- The names of the looks that found an id, in the order of lookups. -/
def namesOf (id : RuleId) (looks : List (String × String × List RuleId)) : List String :=
  (looks.filter fun look => look.2.2.contains id).map Prod.fst

theorem getElem?_paths (looks : List (String × String × List RuleId)) (id : RuleId) :
    (paths looks)[id]? =
      if namesOf id looks = [] then none else some (distinct (namesOf id looks)) := by
  have hfold (via : Std.TreeMap RuleId (List String)) :
      (looks.foldl (fun via look => look.2.2.foldl (fun via id =>
        via.alter id fun names => some (addName look.1 (names.getD []))) via) via)[id]? =
        if namesOf id looks = [] then via[id]?
        else some ((namesOf id looks).foldl (fun seen name => addName name seen)
          (via[id]?.getD [])) := by
    induction looks generalizing via with
    | nil => simp [namesOf]
    | cons look looks ih =>
      rw [List.foldl_cons, ih, getElem?_foldl_alter]
      by_cases hid : id ∈ look.2.2
      · have hnames : namesOf id (look :: looks) = look.1 :: namesOf id looks := by
          simp [namesOf, hid]
        rw [hnames, if_pos hid, if_neg (List.cons_ne_nil _ _), List.foldl_cons,
          Option.getD_some]
        split
        · rename_i hnil
          rw [hnil, List.foldl_nil]
        · rfl
      · have hnames : namesOf id (look :: looks) = namesOf id looks := by simp [namesOf, hid]
        rw [hnames, if_neg hid]
  exact (hfold ∅).trans (by simp [distinct])

/-- The indexes that lead an element with these facets to rules with this selector. -/
def route (classifiers : List Classifier) (facets : Facets) (selector : String) : List String :=
  distinct (((visits classifiers facets).filter fun visit =>
    (Placement.slots classifiers selector).contains visit.2).map Prod.fst)

/-! ## The rules that are reached -/

namespace WellFiled

variable {set : RuleSet δ}

theorem mem_posting_iff (h : WellFiled set) {r : Rule δ} (hr : r ∈ set.toList)
    (slot : Placement) :
    r.id ∈ posting set.indexes slot ↔ slot ∈ Placement.slots set.classifiers r.selector := by
  obtain ⟨p, hp, rfl⟩ := List.mem_map.1 hr
  rw [h.posting_eq, mem_filings, ← h.placements_eq p hp]
  constructor
  · rintro ⟨q, hq, hslot, hid⟩
    have := Ascending.eq_of_key_eq h.pairwise_placed hq hp hid
    subst this
    exact hslot
  · intro hslot
    exact ⟨p, hp, hslot, rfl⟩

/-- The looks that find a live rule are those into the slots of its selector. -/
theorem namesOf_lookups (h : WellFiled set) (facets : Facets) {r : Rule δ}
    (hr : r ∈ set.toList) :
    namesOf r.id (set.lookups facets) =
      ((visits set.classifiers facets).filter fun visit =>
        (Placement.slots set.classifiers r.selector).contains visit.2).map Prod.fst := by
  rw [lookups_eq, namesOf, List.filter_map, List.map_map]
  refine congrArg (List.map Prod.fst) (List.filter_congr fun visit _ => ?_)
  rw [Bool.eq_iff_iff, List.contains_iff_mem, Function.comp_apply, List.contains_iff_mem,
    ← h.mem_posting_iff hr]

/-- The rules that a trace meets are the candidates, each with its route. -/
theorem toList_paths (h : WellFiled set) (facets : Facets) :
    (paths (set.lookups facets)).toList =
      (set.toList.filter fun r => isCandidate set.classifiers facets r.selector).map fun r =>
        (r.id, route set.classifiers facets r.selector) := by
  have hcandidate {r : Rule δ} (hr : r ∈ set.toList) :
      namesOf r.id (set.lookups facets) ≠ [] ↔
        isCandidate set.classifiers facets r.selector = true := by
    rw [h.namesOf_lookups facets hr, ne_eq, List.map_eq_nil_iff, List.filter_eq_nil_iff]
    simp only [isCandidate, List.any_eq_true, ← exists_mem_visits_iff, List.contains_iff_mem,
      not_forall, not_not, exists_prop, Prod.exists]
    constructor
    · rintro ⟨name, slot, hvisit, hslot⟩
      exact ⟨slot, hslot, name, hvisit⟩
    · rintro ⟨slot, hslot, name, hvisit⟩
      exact ⟨name, slot, hvisit, hslot⟩
  refine Ascending.toList_eq ?_ fun id names => ?_
  · rw [List.pairwise_map]
    exact h.pairwise_toList.filter _
  · simp only [getElem?_paths, List.mem_map, List.mem_filter, Prod.mk.injEq]
    constructor
    · intro hnames
      split at hnames
      · cases hnames
      · rename_i hne
        cases hnames
        -- an id that some look found is the id of a live rule
        obtain ⟨name, hname⟩ := List.exists_mem_of_ne_nil _ hne
        obtain ⟨look, hlook, -⟩ := List.mem_map.1 hname
        obtain ⟨hlook, hid⟩ := List.mem_filter.1 hlook
        rw [lookups_eq] at hlook
        obtain ⟨⟨_, slot⟩, -, rfl⟩ := List.mem_map.1 hlook
        have hid : id ∈ posting set.indexes slot := List.contains_iff_mem.1 hid
        rw [h.posting_eq] at hid
        obtain ⟨p, hp, -, rfl⟩ := mem_filings.1 hid
        have hr : p.rule ∈ set.toList := List.mem_map_of_mem hp
        exact ⟨p.rule, ⟨hr, (hcandidate hr).1 hne⟩, rfl, by rw [h.namesOf_lookups facets hr]; rfl⟩
    · rintro ⟨r, ⟨hr, hc⟩, rfl, rfl⟩
      rw [if_neg ((hcandidate hr).2 hc), h.namesOf_lookups facets hr]
      rfl

/-- A look finds an id for every group of a live rule in its slot. -/
theorem length_posting (h : WellFiled set) (slot : Placement) :
    (posting set.indexes slot).length =
      (set.toList.flatMap fun r => Placement.slots set.classifiers r.selector).count slot := by
  rw [h.posting_eq, filings, toList, List.flatMap_map, List.length_flatMap, List.count_flatMap]
  refine congrArg List.sum (List.map_congr_left fun p hp => ?_)
  rw [List.length_replicate, Function.comp_apply, h.placements_eq p hp]

end WellFiled

end RuleSet

end SelectorIndex
