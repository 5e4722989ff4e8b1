import SelectorIndex.Proofs.Paths
import Mathlib.Algebra.BigOperators.Group.List.Lemmas
import Mathlib.Algebra.BigOperators.Group.Finset.Piecewise

/-!
# Exact filing and the sizes of indexes

What the invariant on postings says of everything that reads them: each
posting list, the removals of a rule, the ids that lookups meet, and the sizes
that an index reports. `ExactlyFiled` collects it, and every history leaves a set
in that state.
-/

namespace SelectorIndex

namespace RuleSet

variable {δ : Type}

/-! ## Removals -/

/-- Whether each removal of an id from slots in turn finds an entry there. -/
def removals (id : RuleId) : List Index → List Placement → List Bool
  | _, [] => []
  | indexes, p :: ps => (indexes[p.index]?).any (fun ix => (ix.remove p.key id).1) ::
      removals id (erasePosting id indexes p) ps

theorem removals_eq_true {id : RuleId} {indexes : List Index} {ps : List Placement}
    (h : ∀ slot, ps.count slot ≤ (posting indexes slot).count id) :
    ∀ found ∈ removals id indexes ps, found = true := by
  induction ps generalizing indexes with
  | nil => exact nofun
  | cons p ps ih =>
    have hp : id ∈ posting indexes p := List.count_pos_iff.1 (by
      have := h p
      rw [List.count_cons_self] at this
      omega)
    refine List.forall_mem_cons.2 ⟨?_, ih fun slot => ?_⟩
    · cases hix : indexes[p.index]? with
      | none => simp [posting, hix] at hp
      | some ix => simpa [posting, hix, Index.remove] using hp
    · have := h slot
      rw [posting_erasePosting]
      by_cases hs : p = slot
      · rw [if_pos hs, List.count_erase_self]
        rw [hs, List.count_cons_self] at this
        omega
      · rw [if_neg hs]
        rwa [List.count_cons_of_ne hs] at this

/-! ## Sizes -/

/-- The keys under which the groups of rules are filed in one index, in turn. -/
def keysIn (classifiers : List Classifier) (rules : List (Rule δ)) (i : Nat) : List String :=
  (rules.flatMap fun r => Placement.slots classifiers r.selector).filterMap fun p =>
    if p.index = i then some p.key else none

theorem count_filterMap_key (slots : List Placement) (i : Nat) (key : String) :
    (slots.filterMap fun p => if p.index = i then some p.key else none).count key =
      slots.count ⟨i, key⟩ := by
  induction slots with
  | nil => rfl
  | cons p slots ih =>
    obtain ⟨j, k⟩ := p
    by_cases hj : j = i
    · subst hj
      simp [List.count_cons, ih]
    · simp [hj, ih]

namespace WellFiled

variable {set : RuleSet δ}

theorem lookup_eq (h : WellFiled set) {i : Nat} {ix : Index} (hix : set.indexes[i]? = some ix)
    (key : String) :
    ix.lookup key = set.toList.flatMap fun r =>
      List.replicate ((Placement.slots set.classifiers r.selector).count ⟨i, key⟩) r.id := by
  have := h.posting_eq ⟨i, key⟩
  rw [posting, hix] at this
  rw [Option.elim_some] at this
  rw [this, filings, toList, List.flatMap_map]
  exact List.flatMap_congr fun p hp => by rw [h.placements_eq p hp]

theorem length_lookup (h : WellFiled set) {i : Nat} {ix : Index} (hix : set.indexes[i]? = some ix)
    (key : String) :
    (ix.lookup key).length = (keysIn set.classifiers set.toList i).count key := by
  have := h.length_posting ⟨i, key⟩
  rwa [posting, hix, Option.elim_some, ← count_filterMap_key] at this

theorem mem_postings_iff (h : WellFiled set) {i : Nat} {ix : Index}
    (hix : set.indexes[i]? = some ix) (key : String) :
    key ∈ ix.postings ↔ key ∈ keysIn set.classifiers set.toList i := by
  rw [← List.count_pos_iff, ← h.length_lookup hix, List.length_pos_iff,
    Std.TreeMap.mem_iff_isSome_getElem?, Index.lookup]
  have := h.ne_nil ix (List.mem_of_getElem? hix) key
  cases hk : ix.postings[key]? with
  | none => simp
  | some ids => simpa [hk] using this

/-- The keys of an index, each once. -/
theorem keys_perm (h : WellFiled set) {i : Nat} {ix : Index} (hix : set.indexes[i]? = some ix) :
    ix.postings.keys.Perm (keysIn set.classifiers set.toList i).dedup := by
  refine (List.perm_ext_iff_of_nodup ix.postings.nodup_keys (List.nodup_dedup _)).2 fun key => ?_
  rw [Std.TreeMap.mem_keys, h.mem_postings_iff hix, List.mem_dedup]

theorem keys_stats (h : WellFiled set) {i : Nat} {ix : Index} (hix : set.indexes[i]? = some ix) :
    ix.stats.keys = (keysIn set.classifiers set.toList i).dedup.length := by
  rw [← (h.keys_perm hix).length_eq]
  simp [Index.stats]

theorem entries_stats (h : WellFiled set) {i : Nat} {ix : Index}
    (hix : set.indexes[i]? = some ix) :
    ix.stats.entries = (keysIn set.classifiers set.toList i).length := by
  have hmap : ix.postings.toList.map (fun q => q.2.length) =
      ix.postings.keys.map fun key => (keysIn set.classifiers set.toList i).count key := by
    rw [← Std.TreeMap.map_fst_toList_eq_keys, List.map_map]
    refine List.map_congr_left fun q hq => ?_
    rw [Function.comp_apply, ← h.length_lookup hix, Index.lookup,
      Std.TreeMap.mem_toList_iff_getElem?_eq_some.1 hq, Option.getD_some]
  calc ix.stats.entries
      = (ix.postings.toList.map fun q => q.2.length).sum := List.length_flatMap
    _ = ((keysIn set.classifiers set.toList i).dedup.map fun key =>
          (keysIn set.classifiers set.toList i).count key).sum := by
        rw [hmap, ((h.keys_perm hix).map _).sum_eq]
    _ = (keysIn set.classifiers set.toList i).length := List.sum_map_count_dedup_eq_length _

end WellFiled

/-! ## Listed placements -/

theorem sum_count_eq_countP {n : Nat} {l : List Nat} (h : ∀ i ∈ l, i < n) (q : Nat → Bool) :
    ((List.range n).map fun i => if q i then l.count i else 0).sum = l.countP q := by
  show ∑ i ∈ Finset.range n, (if q i then l.count i else 0) = _
  induction l with
  | nil => simp
  | cons i l ih =>
    have hi : i ∈ Finset.range n := Finset.mem_range.2 (h i List.mem_cons_self)
    have hl := ih fun j hj => h j (List.mem_cons_of_mem i hj)
    have hsplit (j : Nat) : (if q j then (i :: l).count j else 0) =
        (if q j then l.count j else 0) + if i = j then (if q j then 1 else 0) else 0 := by
      by_cases hj : i = j <;> by_cases hq : q j <;> simp [hj, hq]
    rw [Finset.sum_congr rfl fun j _ => hsplit j, Finset.sum_add_distrib, hl,
      Finset.sum_ite_eq, if_pos hi, List.countP_cons]

def indexName (classifiers : List Classifier) (i : Nat) : String :=
  (classifiers[i]?).elim "" Classifier.name

/-- The numbers of the indexes that the groups of rules are filed in. -/
def indexNumbers (classifiers : List Classifier) (rules : List (Rule δ)) : List Nat :=
  (rules.flatMap fun r => Placement.slots classifiers r.selector).map Placement.index

theorem length_keysIn (classifiers : List Classifier) (rules : List (Rule δ)) (i : Nat) :
    (keysIn classifiers rules i).length = (indexNumbers classifiers rules).count i := by
  rw [keysIn, indexNumbers]
  induction rules.flatMap fun r => Placement.slots classifiers r.selector with
  | nil => rfl
  | cons p slots ih => by_cases hp : p.index = i <;> simp [hp, ih]

theorem countP_classify (set : RuleSet δ) (name : String) :
    (set.toList.flatMap fun r => set.classify r.selector).countP (·.index == name) =
      (indexNumbers set.classifiers set.toList).countP fun i =>
        indexName set.classifiers i == name := by
  rw [indexNumbers, List.countP_map, List.countP_flatMap, List.countP_flatMap]
  refine congrArg List.sum (List.map_congr_left fun r _ => ?_)
  simp only [Function.comp_apply, classify, Placement.slots, List.countP_map]
  rfl

theorem WellFiled.sum_entries {set : RuleSet δ} (h : WellFiled set) (name : String) :
    (set.stats.map fun s => if s.name == name then s.entries else 0).sum =
      (set.toList.flatMap fun r => set.classify r.selector).countP (·.index == name) := by
  have hlt : ∀ i ∈ indexNumbers set.classifiers set.toList, i < set.indexes.length := by
    intro i hi
    obtain ⟨p, hp, rfl⟩ := List.mem_map.1 hi
    obtain ⟨r, -, hp⟩ := List.mem_flatMap.1 hp
    exact WellFiled.length_indexes set ▸ Placement.index_lt_of_mem_slots hp
  rw [countP_classify, ← sum_count_eq_countP hlt]
  refine congrArg List.sum (List.ext_getElem (by simp [stats]) fun i hi _ => ?_)
  have hix := List.getElem?_eq_getElem (l := set.indexes) (i := i) (by simpa [stats] using hi)
  have hentries := h.entries_stats hix
  rw [length_keysIn] at hentries
  simp only [stats, List.getElem_map, List.getElem_range, hentries, indexName, classifiers,
    List.getElem?_map, hix, Option.map_some, Option.elim_some]
  rfl

/-! ## Exact filing -/

/-- The indexes of a set say what classifying its live rules afresh would say. -/
structure ExactlyFiled (set : RuleSet δ) : Prop where
  /-- Under a key stand the ids of the live rules in ascending order, each once for every group
  that its selector has there. -/
  lookup_eq : ∀ (i : Nat) (ix : Index), set.indexes[i]? = some ix → ∀ key,
    ix.lookup key = set.toList.flatMap fun r =>
      List.replicate ((Placement.slots set.classifiers r.selector).count ⟨i, key⟩) r.id
  ascending : set.toList.Pairwise (·.id < ·.id)
  ne_nil : ∀ ix ∈ set.indexes, ∀ key : String, ix.postings[key]? ≠ some []
  id_lt : ∀ r ∈ set.toList, r.id < set.nextId
  posted_live : ∀ ix ∈ set.indexes, ∀ key, ∀ id ∈ ix.lookup key,
    id < set.nextId ∧ ∃ r, set.get? id = some r
  /-- A removal of a live rule finds an entry for each of its slots. -/
  removals_found : ∀ p ∈ set.placed,
    ∀ found ∈ removals p.rule.id set.indexes p.placements, found = true
  /-- No lookup meets an id without a rule. -/
  candidates_live : ∀ facets, ∀ id ∈ set.candidates facets, ∃ r, set.get? id = some r
  paths_live : ∀ facets, ∀ id ∈ paths (set.lookups facets), ∃ r, set.get? id = some r
  stats_eq : ∀ (i : Nat) (ix : Index), set.indexes[i]? = some ix →
    ix.stats = ⟨ix.classifier.name, (keysIn set.classifiers set.toList i).dedup.length,
      (keysIn set.classifiers set.toList i).length⟩
  /-- The placements listed under the name of an index add up to its reported entries. -/
  sum_entries : ∀ name,
    (set.stats.map fun s => if s.name == name then s.entries else 0).sum =
      (set.toList.flatMap fun r => set.classify r.selector).countP (·.index == name)

namespace WellFiled

variable {set : RuleSet δ}

theorem posted_live (h : WellFiled set) {ix : Index} (hix : ix ∈ set.indexes) {key : String}
    {id : RuleId} (hid : id ∈ ix.lookup key) :
    id < set.nextId ∧ ∃ r, set.get? id = some r := by
  obtain ⟨i, hi⟩ := List.mem_iff_getElem?.1 hix
  have hid : id ∈ posting set.indexes ⟨i, key⟩ := by simpa [posting, hi] using hid
  rw [h.posting_eq] at hid
  obtain ⟨p, hp, -, rfl⟩ := mem_filings.1 hid
  exact ⟨h.id_lt p hp, p.rule, h.get?_of_mem hp⟩

theorem removals_found (h : WellFiled set) {p : PlacedRule δ} (hp : p ∈ set.placed) :
    ∀ found ∈ removals p.rule.id set.indexes p.placements, found = true := by
  refine removals_eq_true fun slot => ?_
  obtain ⟨front, back, hsplit⟩ := List.append_of_mem hp
  rw [h.posting_eq, hsplit, filings_append, filings_cons, List.count_append, List.count_append,
    List.count_replicate_self]
  omega

theorem exactlyFiled (h : WellFiled set) : ExactlyFiled set where
  lookup_eq _ _ hix key := h.lookup_eq hix key
  ascending := h.pairwise_toList
  ne_nil := h.ne_nil
  id_lt r hr := by
    obtain ⟨p, hp, rfl⟩ := List.mem_map.1 hr
    exact h.id_lt p hp
  posted_live _ hix _ _ hid := h.posted_live hix hid
  removals_found _ hp := h.removals_found hp
  candidates_live facets id hid := by
    obtain ⟨p, hp, -, rfl⟩ := h.mem_candidates.1 hid
    exact ⟨p.rule, h.get?_of_mem hp⟩
  paths_live facets id hid := by
    rw [← Std.TreeMap.mem_keys, ← Std.TreeMap.map_fst_toList_eq_keys, h.toList_paths,
      List.map_map, List.mem_map] at hid
    obtain ⟨r, hr, rfl⟩ := hid
    obtain ⟨p, hp, rfl⟩ := List.mem_map.1 (List.mem_of_mem_filter hr)
    exact ⟨p.rule, h.get?_of_mem hp⟩
  stats_eq i ix hix := by
    rw [← h.keys_stats hix, ← h.entries_stats hix]
    rfl
  sum_entries := h.sum_entries

/-- The sizes of the indexes, read off the live rules. -/
theorem stats_eq (h : WellFiled set) :
    set.stats = set.classifiers.zipIdx.map fun (c, i) =>
      ⟨c.name, (keysIn set.classifiers set.toList i).dedup.length,
        (keysIn set.classifiers set.toList i).length⟩ := by
  rw [stats, classifiers, List.zipIdx_map, List.map_map]
  conv_lhs => rw [← List.zipIdx_map_fst 0 set.indexes, List.map_map]
  refine List.map_congr_left fun numbered hnumbered => ?_
  exact h.exactlyFiled.stats_eq numbered.2 numbered.1 (List.mem_zipIdx_iff_getElem?.1 hnumbered)

end WellFiled

/-- After any history the indexes are exactly filed, and every id comes from an addition of its
own. -/
theorem exactlyFiled_run [BEq δ] (classifiers : List Classifier) (edits : List (Edit δ)) :
    ExactlyFiled ((withClassifiers classifiers).run edits) ∧
      ((withClassifiers classifiers).run edits).nextId = (edits.map Edit.adds).sum :=
  ⟨(wellFiled_run classifiers edits).exactlyFiled,
    by rw [nextId_run, withClassifiers, Nat.zero_add]⟩

end RuleSet

end SelectorIndex
