import SelectorIndex.RuleSet.Lookup
import SelectorIndex.Proofs.Ascending
import SelectorIndex.Proofs.Edits
import Mathlib.Data.List.Count
import Mathlib.Data.List.Dedup

/-!
# What is filed where

The postings of a set are a function of its live rules: under each slot stand
the ids of the rules that have a group there, in ascending order, an id once
for each of its groups. `WellFiled` is the invariant, `wellFiled_run` says that
every history of edits keeps it.
-/

namespace SelectorIndex

namespace Placement

def slots (classifiers : List Classifier) (selector : String) : List Placement :=
  (ofSelector classifiers selector).map Prod.snd

theorem index_lt_of_ofToken? {classifiers : List Classifier} {token : String} {p : Placement}
    (h : ofToken? classifiers token = some p) : p.index < classifiers.length := by
  fun_induction ofToken? classifiers token generalizing p with
  | case1 => cases h
  | case2 c cs token key hk => cases h; simp
  | case3 c cs token hk ih =>
    obtain ⟨q, hq, rfl⟩ := Option.map_eq_some_iff.1 h
    have := ih hq
    simp only [List.length_cons]
    omega

theorem mem_slots {classifiers : List Classifier} {selector : String} {p : Placement} :
    p ∈ slots classifiers selector ↔
      ∃ g ∈ Selector.groups selector, ofGroup? classifiers g.text = some p := by
  simp [slots, ofSelector]

theorem index_lt_of_mem_slots {classifiers : List Classifier} {selector : String} {p : Placement}
    (h : p ∈ slots classifiers selector) : p.index < classifiers.length := by
  obtain ⟨g, -, hg⟩ := mem_slots.1 h
  obtain ⟨token, -, ht⟩ := Option.bind_eq_some_iff.1 hg
  exact index_lt_of_ofToken? ht

end Placement

namespace RuleSet

variable {δ : Type}

/-! ## Posting lists -/

/-- The ids filed in a slot. -/
def posting (indexes : List Index) (slot : Placement) : List RuleId :=
  (indexes[slot.index]?).elim [] (·.lookup slot.key)

/-- The ids that rules placed in turn leave in a slot. -/
def filings (placed : List (PlacedRule δ)) (slot : Placement) : List RuleId :=
  placed.flatMap fun p => List.replicate (p.placements.count slot) p.rule.id

theorem posting_insertPosting {id : RuleId} {indexes : List Index} {p : Placement}
    (hp : p.index < indexes.length) (slot : Placement) :
    posting (insertPosting id indexes p) slot =
      posting indexes slot ++ if p = slot then [id] else [] := by
  obtain ⟨i, key⟩ := p
  obtain ⟨j, k⟩ := slot
  simp only [posting, insertPosting, List.getElem?_modify, Placement.mk.injEq]
  by_cases hij : i = j
  · subst hij
    rw [List.getElem?_eq_getElem hp]
    by_cases hk : key = k <;> simp [Index.lookup_insert, hk]
  · simp [hij]

theorem posting_erasePosting (id : RuleId) (indexes : List Index) (p slot : Placement) :
    posting (erasePosting id indexes p) slot =
      if p = slot then (posting indexes slot).erase id else posting indexes slot := by
  obtain ⟨i, key⟩ := p
  obtain ⟨j, k⟩ := slot
  simp only [posting, erasePosting, Index.remove, List.getElem?_modify, Placement.mk.injEq]
  by_cases hij : i = j
  · subst hij
    cases indexes[i]? with
    | none => simp
    | some ix => by_cases hk : key = k <;> simp [Index.lookup_erase, hk]
  · simp [hij]

@[simp] theorem length_insertPosting (id : RuleId) (indexes : List Index) (p : Placement) :
    (insertPosting id indexes p).length = indexes.length := List.length_modify _ _ _

theorem posting_foldl_insertPosting (id : RuleId) {indexes : List Index} {ps : List Placement}
    (h : ∀ p ∈ ps, p.index < indexes.length) (slot : Placement) :
    posting (ps.foldl (insertPosting id) indexes) slot =
      posting indexes slot ++ List.replicate (ps.count slot) id := by
  induction ps generalizing indexes with
  | nil => simp
  | cons p ps ih =>
    have hp : p.index < indexes.length := h p List.mem_cons_self
    have hps : ∀ q ∈ ps, q.index < (insertPosting id indexes p).length := fun q hq => by
      rw [length_insertPosting]
      exact h q (List.mem_cons_of_mem p hq)
    rw [List.foldl_cons, ih hps, posting_insertPosting hp, List.append_assoc, List.count_cons]
    by_cases hs : p = slot
    · simp [hs, List.replicate_succ]
    · simp [hs]

/-- Erasing in turn erases from each slot as often as the slot occurs. -/
theorem posting_foldl_erasePosting (id : RuleId) (indexes : List Index) (ps : List Placement)
    (slot : Placement) :
    posting (ps.foldl (erasePosting id) indexes) slot =
      (List.erase · id)^[ps.count slot] (posting indexes slot) := by
  induction ps generalizing indexes with
  | nil => rfl
  | cons p ps ih =>
    rw [List.foldl_cons, ih, posting_erasePosting, List.count_cons]
    by_cases hs : p = slot
    · simp [hs]
    · simp [hs]

theorem iterate_erase {id : RuleId} {front back : List RuleId} (h : id ∉ front) (n : Nat) :
    (List.erase · id)^[n] (front ++ List.replicate n id ++ back) = front ++ back := by
  induction n with
  | zero => simp
  | succ n ih =>
    have : (front ++ List.replicate (n + 1) id ++ back).erase id =
        front ++ List.replicate n id ++ back := by
      rw [List.append_assoc, List.erase_append_right _ h, List.replicate_succ, List.cons_append,
        List.erase_cons_head, ← List.append_assoc]
    rw [Function.iterate_succ_apply, this, ih]

/-! ## The invariant -/

/-- The postings are what the live rules, placed in turn, leave in them. -/
structure WellFiled (set : RuleSet δ) : Prop where
  /-- A rule is kept under its own id. -/
  id_eq : ∀ q ∈ set.rules.toList, q.2.rule.id = q.1
  /-- A rule is placed where its selector says. -/
  placements_eq : ∀ p ∈ set.placed,
    p.placements = Placement.slots set.classifiers p.rule.selector
  id_lt : ∀ p ∈ set.placed, p.rule.id < set.nextId
  posting_eq : ∀ slot, posting set.indexes slot = filings set.placed slot
  /-- A key without ids is not kept. -/
  ne_nil : ∀ ix ∈ set.indexes, ∀ key : String, ix.postings[key]? ≠ some []

theorem map_classifier_modify (indexes : List Index) (i : Nat) {f : Index → Index}
    (hf : ∀ ix, (f ix).classifier = ix.classifier) :
    (indexes.modify i f).map Index.classifier = indexes.map Index.classifier := by
  apply List.ext_getElem?
  intro j
  simp only [List.getElem?_map, List.getElem?_modify]
  cases indexes[j]? with
  | none => rfl
  | some ix => by_cases h : i = j <;> simp [h, hf]

theorem map_classifier_foldl {f : Placement → Index → Index}
    (hf : ∀ p ix, (f p ix).classifier = ix.classifier) (indexes : List Index)
    (ps : List Placement) :
    (ps.foldl (fun indexes p => indexes.modify p.index (f p)) indexes).map Index.classifier =
      indexes.map Index.classifier := by
  induction ps generalizing indexes with
  | nil => rfl
  | cons p ps ih => rw [List.foldl_cons, ih, map_classifier_modify indexes p.index (hf p)]

theorem indexes_add (set : RuleSet δ) (selector : String) (data : δ) :
    (set.add selector data).2.indexes =
      (Placement.slots set.classifiers selector).foldl (insertPosting set.nextId) set.indexes :=
  rfl

@[simp] theorem classifiers_add (set : RuleSet δ) (selector : String) (data : δ) :
    (set.add selector data).2.classifiers = set.classifiers :=
  map_classifier_foldl (f := fun p ix => ix.insert p.key set.nextId) (fun _ _ => rfl) _ _

@[simp] theorem classifiers_removeWhere (set : RuleSet δ) (selector : String)
    (eligible : δ → Bool) :
    (set.removeWhere selector eligible).2.classifiers = set.classifiers := by
  unfold removeWhere
  split
  · rfl
  · rename_i q _
    exact map_classifier_foldl (f := fun p ix => (ix.remove p.key q.rule.id).2)
      (fun _ _ => rfl) _ _

/-- What holds of every index and survives a change of one holds after any changes. -/
theorem forall_mem_foldl {P : Index → Prop} {f : Placement → Index → Index}
    (hf : ∀ p ix, P ix → P (f p ix)) {indexes : List Index} (h : ∀ ix ∈ indexes, P ix)
    (ps : List Placement) :
    ∀ ix ∈ ps.foldl (fun indexes p => indexes.modify p.index (f p)) indexes, P ix := by
  induction ps generalizing indexes with
  | nil => exact h
  | cons p ps ih =>
    refine ih fun ix hix => ?_
    obtain ⟨j, hj⟩ := List.mem_iff_getElem?.1 hix
    rw [List.getElem?_modify] at hj
    obtain ⟨ix', hix', rfl⟩ := Option.map_eq_some_iff.1 hj
    have := h ix' (List.mem_of_getElem? hix')
    split
    · exact hf p ix' this
    · exact this

namespace WellFiled

variable {set : RuleSet δ}

theorem pairwise_placed (h : WellFiled set) :
    set.placed.Pairwise (·.rule.id < ·.rule.id) := by
  rw [placed, List.pairwise_map]
  refine (Ascending.pairwise_toList set.rules).imp_of_mem fun {a b} ha hb hlt => ?_
  rw [h.id_eq a ha, h.id_eq b hb]
  exact hlt

theorem toList_rules_add (h : WellFiled set) (selector : String) (data : δ) :
    (set.add selector data).2.rules.toList = set.rules.toList ++
      [(set.nextId,
        ⟨⟨set.nextId, selector, data⟩, Placement.slots set.classifiers selector⟩)] := by
  refine Ascending.toList_insert_last _ fun q hq => ?_
  rw [← h.id_eq q hq]
  exact h.id_lt q.2 (List.mem_map_of_mem hq)

theorem placed_add (h : WellFiled set) (selector : String) (data : δ) :
    (set.add selector data).2.placed = set.placed ++
      [⟨⟨set.nextId, selector, data⟩, Placement.slots set.classifiers selector⟩] := by
  rw [placed, h.toList_rules_add, List.map_append]
  rfl

/-- A removal finds no rule and changes nothing, or takes out the last rule that qualifies. -/
theorem removeWhere_cases (h : WellFiled set) (selector : String) (eligible : δ → Bool) :
    ((∀ p ∈ set.placed, (p.rule.selector == selector && eligible p.rule.data) = false) ∧
      set.removeWhere selector eligible = (none, set)) ∨
    ∃ front p back, set.placed = front ++ p :: back ∧
      (p.rule.selector == selector && eligible p.rule.data) = true ∧
      (∀ q ∈ back, (q.rule.selector == selector && eligible q.rule.data) = false) ∧
      set.removeWhere selector eligible = (some p.rule, { set with
        indexes := p.placements.foldl (erasePosting p.rule.id) set.indexes
        rules := set.rules.erase p.rule.id }) ∧
      (set.removeWhere selector eligible).2.placed = front ++ back := by
  cases hfind : set.placed.reverse.find? fun p =>
      p.rule.selector == selector && eligible p.rule.data with
  | none =>
    left
    refine ⟨fun p hp => ?_, by simp only [removeWhere, hfind]⟩
    exact Bool.eq_false_iff.2 (List.find?_eq_none.1 hfind p (List.mem_reverse.2 hp))
  | some p =>
    obtain ⟨hp, back, front, happ, hback⟩ := List.find?_eq_some_iff_append.1 hfind
    have hsplit : set.placed = front.reverse ++ p :: back.reverse := by
      rw [← List.reverse_reverse set.placed, happ]
      simp
    have heq : set.removeWhere selector eligible = (some p.rule, { set with
        indexes := p.placements.foldl (erasePosting p.rule.id) set.indexes
        rules := set.rules.erase p.rule.id }) := by simp only [removeWhere, hfind]
    refine .inr ⟨front.reverse, p, back.reverse, hsplit, hp, fun q hq => ?_, heq, ?_⟩
    · exact (Bool.not_eq_true' _).mp (hback q (List.mem_reverse.1 hq))
    · have hasc := h.pairwise_placed
      have hids : (set.rules.erase p.rule.id).toList.map Prod.snd =
          set.placed.filter fun q => q.rule.id != p.rule.id := by
        rw [Ascending.toList_erase, placed, List.filter_map]
        refine congrArg (List.map Prod.snd) (List.filter_congr fun q hq => ?_)
        rw [Function.comp_apply, h.id_eq q hq]
      rw [heq]
      show (set.rules.erase p.rule.id).toList.map Prod.snd = _
      rw [hids, hsplit, List.filter_append, List.filter_cons_of_neg (by simp)]
      rw [hsplit, List.pairwise_append, List.pairwise_cons] at hasc
      obtain ⟨-, ⟨hgt, -⟩, hlt⟩ := hasc
      rw [List.filter_eq_self.2 fun q hq => ?_, List.filter_eq_self.2 fun q hq => ?_]
      · exact bne_iff_ne.2 (Nat.ne_of_gt (hgt q hq))
      · exact bne_iff_ne.2 (Nat.ne_of_lt (hlt q hq p List.mem_cons_self))

end WellFiled

/-! ## Every history keeps it -/

theorem filings_append (front back : List (PlacedRule δ)) (slot : Placement) :
    filings (front ++ back) slot = filings front slot ++ filings back slot :=
  List.flatMap_append

theorem filings_cons (p : PlacedRule δ) (rest : List (PlacedRule δ)) (slot : Placement) :
    filings (p :: rest) slot =
      List.replicate (p.placements.count slot) p.rule.id ++ filings rest slot :=
  List.flatMap_cons

theorem mem_filings {placed : List (PlacedRule δ)} {slot : Placement} {id : RuleId} :
    id ∈ filings placed slot ↔ ∃ p ∈ placed, slot ∈ p.placements ∧ p.rule.id = id := by
  simp only [filings, List.mem_flatMap, List.mem_replicate, ne_eq, List.count_eq_zero,
    Decidable.not_not]
  constructor
  · rintro ⟨p, hp, hs, rfl⟩
    exact ⟨p, hp, hs, rfl⟩
  · rintro ⟨p, hp, hs, rfl⟩
    exact ⟨p, hp, hs, rfl⟩

theorem wellFiled_withClassifiers (classifiers : List Classifier) :
    WellFiled (withClassifiers classifiers : RuleSet δ) where
  id_eq q hq := by simp [withClassifiers] at hq
  placements_eq p hp := by simp [withClassifiers, placed] at hp
  id_lt p hp := by simp [withClassifiers, placed] at hp
  posting_eq slot := by
    have : (withClassifiers classifiers : RuleSet δ).placed = [] := by
      simp [placed, withClassifiers]
    rw [this]
    simp only [posting, withClassifiers, List.getElem?_map, filings, List.flatMap_nil]
    cases (classifiers ++ [Classifier.universal])[slot.index]? with
    | none => rfl
    | some c => simp
  ne_nil ix hix key := by
    obtain ⟨c, -, rfl⟩ := List.mem_map.1 hix
    simp

namespace WellFiled

variable {set : RuleSet δ}

theorem length_indexes (set : RuleSet δ) : set.indexes.length = set.classifiers.length :=
  (List.length_map _).symm

theorem add (h : WellFiled set) (selector : String) (data : δ) :
    WellFiled (set.add selector data).2 where
  id_eq q hq := by
    rw [h.toList_rules_add] at hq
    rcases List.mem_append.1 hq with hq | hq
    · exact h.id_eq q hq
    · rw [List.mem_singleton.1 hq]
  placements_eq p hp := by
    rw [classifiers_add]
    rw [h.placed_add] at hp
    rcases List.mem_append.1 hp with hp | hp
    · exact h.placements_eq p hp
    · rw [List.mem_singleton.1 hp]
  id_lt p hp := by
    rw [h.placed_add] at hp
    show p.rule.id < set.nextId + 1
    rcases List.mem_append.1 hp with hp | hp
    · exact Nat.lt_succ_of_lt (h.id_lt p hp)
    · rw [List.mem_singleton.1 hp]
      exact Nat.lt_succ_self _
  posting_eq slot := by
    have hlt : ∀ p ∈ Placement.slots set.classifiers selector, p.index < set.indexes.length :=
      fun p hp => length_indexes set ▸ Placement.index_lt_of_mem_slots hp
    rw [h.placed_add, filings_append, ← h.posting_eq, indexes_add,
      posting_foldl_insertPosting set.nextId hlt, filings_cons, filings, List.flatMap_nil,
      List.append_nil]
  ne_nil := by
    rw [indexes_add]
    refine forall_mem_foldl (f := fun p ix => ix.insert p.key set.nextId) ?_ h.ne_nil _
    intro p ix hix key
    simp only [Index.insert, Std.TreeMap.getElem?_alter]
    split
    · simp
    · exact hix key

theorem removeWhere (h : WellFiled set) (selector : String) (eligible : δ → Bool) :
    WellFiled (set.removeWhere selector eligible).2 := by
  have hclass := classifiers_removeWhere set selector eligible
  rcases h.removeWhere_cases selector eligible with
    ⟨-, heq⟩ | ⟨front, p, back, hsplit, -, -, heq, hplaced⟩
  · rw [heq]
    exact h
  · have hmem : ∀ q ∈ front ++ back, q ∈ set.placed := fun q hq => by
      rw [hsplit]
      simp only [List.mem_append, List.mem_cons] at hq ⊢
      tauto
    refine ⟨fun q hq => ?_, fun q hq => ?_, fun q hq => ?_, fun slot => ?_, ?_⟩
    · rw [heq] at hq
      rw [Ascending.toList_erase] at hq
      exact h.id_eq q (List.mem_of_mem_filter hq)
    · rw [hplaced] at hq
      rw [hclass]
      exact h.placements_eq q (hmem q hq)
    · rw [hplaced] at hq
      rw [heq]
      exact h.id_lt q (hmem q hq)
    · -- the ids before `p` differ from its own, so only its own filings are erased
      have hfront : p.rule.id ∉ filings front slot := fun hid => by
        obtain ⟨q, hq, -, hqp⟩ := mem_filings.1 hid
        have hasc := h.pairwise_placed
        rw [hsplit] at hasc
        have hlt := (List.pairwise_append.1 hasc).2.2 q hq p List.mem_cons_self
        exact absurd hqp (Nat.ne_of_lt hlt)
      rw [hplaced, heq]
      rw [posting_foldl_erasePosting, h.posting_eq, hsplit, filings_append, filings_cons,
        ← List.append_assoc, iterate_erase hfront, filings_append]
    · rw [heq]
      refine forall_mem_foldl (f := fun q ix => (ix.remove q.key p.rule.id).2) ?_ h.ne_nil _
      intro q ix hix key
      simp only [Index.remove, Index.erase, Std.TreeMap.getElem?_alter]
      split
      · cases (ix.postings[q.key]?.getD []).erase p.rule.id <;> simp [Index.posting?]
      · exact hix key

end WellFiled

/-- Every history of edits keeps the postings in step with the live rules. -/
theorem wellFiled_run [BEq δ] (classifiers : List Classifier) (edits : List (Edit δ)) :
    WellFiled ((withClassifiers classifiers).run edits) :=
  run_induction (fun _ selector data h => h.add selector data)
    (fun _ selector eligible h => h.removeWhere selector eligible) _
    (wellFiled_withClassifiers classifiers) edits

end RuleSet

end SelectorIndex
