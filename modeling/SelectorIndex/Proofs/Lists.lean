import SelectorIndex.Proofs.Filing
import SelectorIndex.Proofs.Hosts

/-!
# Sets and lists in step

The same history leaves the same rules in a set and in a list: `Mirrors` relates
the two, every edit keeps it, and `mirrors_run` follows. What a list answers is
then an answer about the live rules of the set, read off in
`RuleList.of_testEach_eq_ok` and `RuleList.of_selectEach_eq_ok`.
-/

namespace SelectorIndex

variable {ε δ : Type}

def Rule.item (r : Rule δ) : String × δ := (r.selector, r.data)

namespace RuleList

/-! ## Edits -/

theorem eraseLast?_eq_none {α : Type} {p : α → Bool} {as : List α} (h : ∀ a ∈ as, p a = false) :
    eraseLast? p as = none := by
  induction as with
  | nil => rfl
  | cons a as ih =>
    rw [eraseLast?, ih fun b hb => h b (List.mem_cons_of_mem a hb), h a List.mem_cons_self]
    rfl

theorem eraseLast?_append {α : Type} {p : α → Bool} (front : List α) {a : α} {back : List α}
    (ha : p a = true) (hback : ∀ b ∈ back, p b = false) :
    eraseLast? p (front ++ a :: back) = some (front ++ back) := by
  induction front with
  | nil =>
    rw [List.nil_append, eraseLast?, eraseLast?_eq_none hback, ha]
    rfl
  | cons b front ih => rw [List.cons_append, eraseLast?, ih, List.cons_append]

/-- The list holds the live rules of the set, in the order of their ids. -/
def Mirrors (l : RuleList δ) (set : RuleSet δ) : Prop := l.rules = set.toList.map Rule.item

variable {l : RuleList δ} {set : RuleSet δ}

theorem Mirrors.size_eq (h : l.Mirrors set) : l.size = set.size := by
  rw [size, h, RuleSet.toList, RuleSet.placed, List.length_map, List.length_map, List.length_map,
    Std.TreeMap.length_toList]
  rfl

theorem Mirrors.add (h : l.Mirrors set) (hf : RuleSet.WellFiled set) (selector : String)
    (data : δ) : (l.add selector data).Mirrors (set.add selector data).2 := by
  rw [Mirrors, RuleSet.toList, hf.placed_add, List.map_append, List.map_append]
  exact congrArg (· ++ [(selector, data)]) h

/-- A removal takes the same rule out of both, or none. -/
theorem Mirrors.removeWhere (h : l.Mirrors set) (hf : RuleSet.WellFiled set) (selector : String)
    (eligible : δ → Bool) {p : String × δ → Bool}
    (hp : ∀ r : Rule δ, p r.item = (r.selector == selector && eligible r.data)) :
    (l.removeWhere p).2.Mirrors (set.removeWhere selector eligible).2 := by
  rw [Mirrors, RuleSet.toList] at h
  have hitem (q : PlacedRule δ) {b : Bool}
      (hq : (q.rule.selector == selector && eligible q.rule.data) = b) :
      p q.rule.item = b := (hp q.rule).trans hq
  rcases hf.removeWhere_cases selector eligible with
    ⟨hnone, heq⟩ | ⟨front, q, back, hsplit, hq, hback, -, hplaced⟩
  · have : eraseLast? p l.rules = none := by
      refine eraseLast?_eq_none fun r hr => ?_
      rw [h, List.map_map] at hr
      obtain ⟨q, hq, rfl⟩ := List.mem_map.1 hr
      exact hitem q (hnone q hq)
    rw [RuleList.removeWhere, this, heq]
    exact h
  · rw [hsplit, List.map_append, List.map_cons, List.map_append, List.map_cons] at h
    have hlast : ∀ r ∈ (back.map PlacedRule.rule).map Rule.item, p r = false := fun r hr => by
      rw [List.map_map] at hr
      obtain ⟨q', hq', rfl⟩ := List.mem_map.1 hr
      exact hitem q' (hback q' hq')
    rw [RuleList.removeWhere, h, eraseLast?_append _ (hitem q hq) hlast, Mirrors, RuleSet.toList,
      hplaced, List.map_append, List.map_append]

theorem Mirrors.addEntries (h : l.Mirrors set) (hf : RuleSet.WellFiled set)
    (entries : List (Config.Entry δ)) :
    (l.addEntries entries).Mirrors (set.addEntries entries).2 := by
  fun_induction RuleSet.addEntries set entries generalizing l with
  | case1 => exact h
  | case2 set entry rest selector hs id set' hadd ids set'' hrest ih =>
    have hset' : set' = (set.add selector entry.data).2 := congrArg Prod.snd hadd.symm
    rw [hrest, hset'] at ih
    have := ih (h.add hf selector entry.data) (hf.add selector entry.data)
    rwa [RuleList.addEntries, List.foldl_cons, hs]
  | case3 set entry rest hs ih =>
    have hskip : l.addEntries (entry :: rest) = l.addEntries rest := by
      rw [RuleList.addEntries, List.foldl_cons]
      split
      · rename_i selector heq
        exact absurd heq (hs selector)
      · rfl
    rw [hskip]
    exact ih h hf

section

variable [BEq δ]

theorem Mirrors.edit (h : l.Mirrors set) (hf : RuleSet.WellFiled set) (e : Edit δ) :
    (l.edit e).Mirrors (set.edit e) := by
  cases e with
  | add selector data => exact h.add hf selector data
  | remove selector => exact h.removeWhere hf selector _ fun r => (Bool.and_true _).symm
  | removeWithData selector data => exact h.removeWhere hf selector _ fun r => rfl
  | extend config => exact h.addEntries hf config.rules

/-- The same history leaves the same rules in a set and in a list. -/
theorem mirrors_run (classifiers : List Classifier) (edits : List (Edit δ)) :
    (({} : RuleList δ).run edits).Mirrors ((RuleSet.withClassifiers classifiers).run edits) := by
  have hrun {l : RuleList δ} {set : RuleSet δ} (h : l.Mirrors set) (hf : RuleSet.WellFiled set) :
      (l.run edits).Mirrors (set.run edits) := by
    induction edits generalizing l set with
    | nil => exact h
    | cons e rest ih =>
      refine ih (h.edit hf e) ?_
      exact RuleSet.edit_induction (fun _ selector data hf => hf.add selector data)
        (fun _ selector eligible hf => hf.removeWhere selector eligible) set hf e
  refine hrun ?_ (RuleSet.wellFiled_withClassifiers classifiers)
  simp [Mirrors, RuleSet.toList, RuleSet.placed, RuleSet.withClassifiers]

end

/-! ## Answers -/

variable {host : Host ε}

/-- A list that answers was answered about each rule, and gives those that were accepted. -/
theorem of_testEach_eq_ok {e : ε} {rules found : List (String × δ)}
    (h : (testEach host e rules).result = .ok found) :
    (∀ r ∈ rules, host.Answers e r.1) ∧ found = rules.filter fun r => host.accepts e r.1 := by
  induction rules generalizing found with
  | nil => cases h; exact ⟨nofun, rfl⟩
  | cons r rest ih =>
    obtain ⟨accepted, htest, h⟩ := Consult.result_bind_eq_ok h
    obtain ⟨others, hothers, h⟩ := Consult.result_bind_eq_ok h
    cases h
    obtain ⟨hanswers, rfl⟩ := ih hothers
    refine ⟨List.forall_mem_cons.2 ⟨⟨accepted, htest⟩, hanswers⟩, ?_⟩
    rw [List.filter_cons, Host.accepts_of_test htest]

/-- A list that answers was answered about each rule, and gives those with elements. -/
theorem of_selectEach_eq_ok {root : ε} {rules : List (String × δ)}
    {found : List (String × δ × List ε)} (h : (selectEach host root rules).result = .ok found) :
    (∀ r ∈ rules, host.select root r.1 = .ok (host.selected root r.1)) ∧
      found = (rules.filter fun r => !(host.selected root r.1).isEmpty).map fun r =>
        (r.1, r.2, host.selected root r.1) := by
  induction rules generalizing found with
  | nil => cases h; exact ⟨nofun, rfl⟩
  | cons r rest ih =>
    obtain ⟨elements, hselect, h⟩ := Consult.result_bind_eq_ok h
    obtain ⟨others, hothers, h⟩ := Consult.result_bind_eq_ok h
    cases h
    have hselected := Host.selected_of_select hselect
    obtain ⟨hall, rfl⟩ := ih hothers
    refine ⟨List.forall_mem_cons.2 ⟨by rw [hselected]; exact hselect, hall⟩, ?_⟩
    cases hempty : elements.isEmpty <;> simp [hselected, hempty]

end RuleList

end SelectorIndex
