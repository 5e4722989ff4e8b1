import SelectorIndex.Proofs.Lists
import SelectorIndex.Proofs.Candidates

/-!
# What edits hand back

An addition hands back the id of its rule, a removal the rule that it took out.
Written down in the course of a history, the two make a ledger, and the ledger
says which rules are live: those added and not taken out (`mem_toList_run`). Ids
are counted up (`handedOutAll_eq`). A list with the same history holds the same
rules after every edit, and finds a rule to remove exactly where the set does
(`inStep_run`).
-/

namespace SelectorIndex

variable {δ : Type}

def Rule.ofItem : RuleId × String × δ → Rule δ
  | (id, selector, data) => ⟨id, selector, data⟩

/-- The selector and the payload of an entry whose selector is a string. -/
def Config.Entry.item? (entry : Config.Entry δ) : Option (String × δ) :=
  match entry.selector with
  | .string selector => some (selector, entry.data)
  | _ => none

/-- What an edit adds, in order. -/
def Edit.items : Edit δ → List (String × δ)
  | add selector data => [(selector, data)]
  | extend config => config.rules.filterMap Config.Entry.item?
  | _ => []

theorem Edit.length_items (e : Edit δ) : e.items.length = e.adds := by
  cases e with
  | add selector data => rfl
  | remove selector => rfl
  | removeWithData selector data => rfl
  | extend config =>
    rw [items, adds, List.length_filterMap_eq_countP]
    refine List.countP_congr fun entry _ => ?_
    rw [Config.Entry.item?, Config.Entry.isLoaded]
    cases entry.selector <;> rfl

namespace RuleSet

/-! ## Entries of the ledger -/

/-- The ids that an edit hands back. -/
def handedOut (set : RuleSet δ) : Edit δ → List RuleId
  | .add selector data => [(set.add selector data).1]
  | .extend config => (set.extend config).1
  | _ => []

/-- The rules that an edit adds: what it says, under the ids that it hands back. -/
def addedBy (set : RuleSet δ) (e : Edit δ) : List (Rule δ) :=
  ((set.handedOut e).zip e.items).map Rule.ofItem

section

variable [BEq δ]

/-- The rule that an edit takes out and hands back. -/
def takenBy (set : RuleSet δ) : Edit δ → Option (Rule δ)
  | .remove selector => (set.remove selector).1
  | .removeWithData selector data => (set.removeWithData selector data).1
  | _ => none

def handedOutAll (set : RuleSet δ) : List (Edit δ) → List RuleId
  | [] => []
  | e :: rest => set.handedOut e ++ handedOutAll (set.edit e) rest

/-- The rules added in the course of a history. -/
def added (set : RuleSet δ) : List (Edit δ) → List (Rule δ)
  | [] => []
  | e :: rest => set.addedBy e ++ added (set.edit e) rest

/-- The rules taken out in the course of a history. -/
def taken (set : RuleSet δ) : List (Edit δ) → List (Rule δ)
  | [] => []
  | e :: rest => (set.takenBy e).toList ++ taken (set.edit e) rest

end

/-! ## Additions -/

variable {set : RuleSet δ}

namespace WellFiled

theorem toList_add (h : WellFiled set) (selector : String) (data : δ) :
    (set.add selector data).2.toList = set.toList ++ [⟨set.nextId, selector, data⟩] := by
  rw [toList, h.placed_add, List.map_append]
  rfl

/-- A configuration is added item by item, under consecutive ids. -/
theorem addEntries_spec (h : WellFiled set) (entries : List (Config.Entry δ)) :
    (set.addEntries entries).1 =
        List.range' set.nextId (entries.filterMap Config.Entry.item?).length ∧
      (set.addEntries entries).2.toList = set.toList ++
        ((set.addEntries entries).1.zip (entries.filterMap Config.Entry.item?)).map
          Rule.ofItem := by
  fun_induction addEntries set entries with
  | case1 => exact ⟨rfl, (List.append_nil _).symm⟩
  | case2 set entry rest selector hs id set' hadd ids set'' hrest ih =>
    have hset' : set' = (set.add selector entry.data).2 := congrArg Prod.snd hadd.symm
    have hid : id = set.nextId := congrArg Prod.fst hadd.symm
    have hitem : entry.item? = some (selector, entry.data) := by rw [Config.Entry.item?, hs]
    rw [hrest, hset'] at ih
    obtain ⟨hids, hlist⟩ := ih (h.add selector entry.data)
    rw [List.filterMap_cons_some hitem, hid]
    refine ⟨?_, ?_⟩
    · show set.nextId :: ids = _
      rw [show ids = _ from hids]
      rfl
    · show set''.toList = _
      rw [show set''.toList = _ from hlist, h.toList_add, List.append_assoc]
      rfl
  | case3 set entry rest hs ih =>
    have hitem : entry.item? = none := by
      unfold Config.Entry.item?
      split
      · rename_i selector heq
        exact absurd heq (hs selector)
      · rfl
    rw [List.filterMap_cons_none hitem]
    exact ih h

theorem handedOut_eq (h : WellFiled set) (e : Edit δ) :
    set.handedOut e = List.range' set.nextId e.items.length := by
  cases e with
  | add selector data => rfl
  | remove selector => rfl
  | removeWithData selector data => rfl
  | extend config => exact (h.addEntries_spec config.rules).1

theorem length_handedOut (h : WellFiled set) (e : Edit δ) :
    (set.handedOut e).length = e.items.length := by
  rw [h.handedOut_eq, List.length_range']

theorem map_id_addedBy (h : WellFiled set) (e : Edit δ) :
    (set.addedBy e).map Rule.id = set.handedOut e := by
  rw [addedBy, List.map_map]
  exact List.map_fst_zip (Nat.le_of_eq (h.length_handedOut e))

theorem map_item_addedBy (h : WellFiled set) (e : Edit δ) :
    (set.addedBy e).map Rule.item = e.items := by
  rw [addedBy, List.map_map]
  exact List.map_snd_zip (Nat.le_of_eq (h.length_handedOut e).symm)

end WellFiled

/-! ## Removals -/

/-- The last live rule that qualifies is handed back and taken out; if there is none, nothing
changes. -/
structure TakesLast (set : RuleSet δ) (qualifies : Rule δ → Prop)
    (out : Option (Rule δ) × RuleSet δ) : Prop where
  last : ∀ r, out.1 = some r →
    r ∈ set.toList ∧ qualifies r ∧ ∀ q ∈ set.toList, qualifies q → q.id ≤ r.id
  rest : ∀ r, r ∈ out.2.toList ↔ r ∈ set.toList ∧ ∀ q, out.1 = some q → q.id ≠ r.id
  none_iff : out.1 = none ↔ ∀ r ∈ set.toList, ¬ qualifies r
  unchanged : out.1 = none → out.2 = set

namespace WellFiled

theorem takesLast_removeWhere (h : WellFiled set) (selector : String) (eligible : δ → Bool) :
    TakesLast set (fun r => r.selector = selector ∧ eligible r.data = true)
      (set.removeWhere selector eligible) := by
  rcases h.removeWhere_cases selector eligible with
    ⟨hnone, heq⟩ | ⟨front, p, back, hsplit, hp, hback, heq, hplaced⟩
  · have hno : ∀ r ∈ set.toList, ¬ (r.selector = selector ∧ eligible r.data = true) := by
      intro r hr
      obtain ⟨q, hq, rfl⟩ := List.mem_map.1 hr
      have := hnone q hq
      simpa only [Bool.and_eq_false_imp, beq_iff_eq, not_and, Bool.not_eq_true] using this
    rw [heq]
    refine ⟨fun r hr => ?_, fun r => (and_iff_left fun q hq => ?_).symm, iff_of_true rfl hno,
      fun _ => rfl⟩
    · cases hr
    · cases hq
  · have hqualifies : p.rule.selector = selector ∧ eligible p.rule.data = true := by
      simpa only [Bool.and_eq_true, beq_iff_eq] using hp
    have hasc := h.pairwise_placed
    rw [hsplit, List.pairwise_append, List.pairwise_cons] at hasc
    obtain ⟨-, ⟨hgt, -⟩, hlt⟩ := hasc
    have hmem : p.rule ∈ set.toList := List.mem_map_of_mem (hsplit ▸ by simp)
    have hfst : (set.removeWhere selector eligible).1 = some p.rule := by rw [heq]
    refine ⟨fun r hr => ?_, fun r => ?_, ?_, ?_⟩
    · rw [hfst] at hr
      cases hr
      refine ⟨hmem, hqualifies, fun r hr hr' => ?_⟩
      rw [toList, hsplit] at hr
      obtain ⟨q, hq, rfl⟩ := List.mem_map.1 hr
      rcases List.mem_append.1 hq with hq | hq
      · exact Nat.le_of_lt (hlt q hq p List.mem_cons_self)
      · rcases List.mem_cons.1 hq with rfl | hq
        · exact Nat.le_refl _
        · have hno := hback q hq
          rw [Bool.and_eq_false_imp, beq_iff_eq] at hno
          exact absurd hr'.2 (Bool.eq_false_iff.1 (hno hr'.1))
    · rw [hfst, toList, hplaced, toList, hsplit]
      simp only [List.mem_map, List.mem_append, List.mem_cons, Option.some.injEq, forall_eq']
      constructor
      · rintro ⟨q, hq | hq, rfl⟩
        · exact ⟨⟨q, .inl hq, rfl⟩, Nat.ne_of_gt (hlt q hq p List.mem_cons_self)⟩
        · exact ⟨⟨q, .inr (.inr hq), rfl⟩, Nat.ne_of_lt (hgt q hq)⟩
      · rintro ⟨⟨q, hq | rfl | hq, rfl⟩, hne⟩
        · exact ⟨q, .inl hq, rfl⟩
        · exact absurd rfl hne
        · exact ⟨q, .inr hq, rfl⟩
    · rw [hfst]
      exact iff_of_false (Option.some_ne_none _) fun hno => hno p.rule hmem hqualifies
    · rw [hfst]
      exact fun h => absurd h (Option.some_ne_none _)

theorem takesLast_remove (h : WellFiled set) (selector : String) :
    TakesLast set (·.selector = selector) (set.remove selector) := by
  have := h.takesLast_removeWhere selector fun _ => true
  simp only [and_true] at this
  exact this

theorem takesLast_removeWithData [BEq δ] (h : WellFiled set) (selector : String) (data : δ) :
    TakesLast set (fun r => r.selector = selector ∧ (r.data == data) = true)
      (set.removeWithData selector data) := h.takesLast_removeWhere selector (· == data)

/-! ## One edit -/

variable [BEq δ]

theorem edit (h : WellFiled set) (e : Edit δ) : WellFiled (set.edit e) :=
  edit_induction (fun _ selector data h => h.add selector data)
    (fun _ selector eligible h => h.removeWhere selector eligible) set h e

theorem mem_toList_edit (h : WellFiled set) (e : Edit δ) (r : Rule δ) :
    r ∈ (set.edit e).toList ↔
      (r ∈ set.toList ∨ r ∈ set.addedBy e) ∧ ∀ q, set.takenBy e = some q → q.id ≠ r.id := by
  cases e with
  | add selector data =>
    show r ∈ (set.add selector data).2.toList ↔ _
    rw [h.toList_add, List.mem_append, and_iff_left nofun]
    rfl
  | remove selector =>
    exact ((h.takesLast_remove selector).rest r).trans (and_congr_left' (or_iff_left nofun).symm)
  | removeWithData selector data =>
    exact ((h.takesLast_removeWithData selector data).rest r).trans
      (and_congr_left' (or_iff_left nofun).symm)
  | extend config =>
    show r ∈ (set.addEntries config.rules).2.toList ↔ _
    rw [(h.addEntries_spec config.rules).2, List.mem_append, and_iff_left nofun]
    rfl

theorem id_lt_of_takenBy (h : WellFiled set) {e : Edit δ} {q : Rule δ}
    (hq : set.takenBy e = some q) : q.id < set.nextId := by
  have hlive : q ∈ set.toList := by
    cases e with
    | add => cases hq
    | remove selector => exact ((h.takesLast_remove selector).last q hq).1
    | removeWithData selector data =>
      exact ((h.takesLast_removeWithData selector data).last q hq).1
    | extend => cases hq
  obtain ⟨p, hp, rfl⟩ := List.mem_map.1 hlive
  exact h.id_lt p hp

end WellFiled

/-! ## A whole history -/

section

variable [BEq δ]

theorem nextId_edit (set : RuleSet δ) (e : Edit δ) :
    (set.edit e).nextId = set.nextId + e.adds := by
  have := nextId_run set [e]
  rwa [List.map_singleton, List.sum_singleton] at this

namespace WellFiled

/-- Ids are counted up from the first that is free. -/
theorem handedOutAll_eq (h : WellFiled set) (edits : List (Edit δ)) :
    set.handedOutAll edits = List.range' set.nextId (edits.map Edit.adds).sum := by
  induction edits generalizing set with
  | nil => rfl
  | cons e rest ih =>
    rw [handedOutAll, ih (h.edit e), h.handedOut_eq, Edit.length_items, nextId_edit,
      List.map_cons, List.sum_cons, List.range'_append_1]

theorem map_id_added (h : WellFiled set) (edits : List (Edit δ)) :
    (set.added edits).map Rule.id = set.handedOutAll edits := by
  induction edits generalizing set with
  | nil => rfl
  | cons e rest ih =>
    rw [added, List.map_append, h.map_id_addedBy, ih (h.edit e), handedOutAll]

theorem map_item_added (h : WellFiled set) (edits : List (Edit δ)) :
    (set.added edits).map Rule.item = edits.flatMap Edit.items := by
  induction edits generalizing set with
  | nil => rfl
  | cons e rest ih =>
    rw [added, List.map_append, h.map_item_addedBy, ih (h.edit e), List.flatMap_cons]

theorem nextId_le_of_mem_added (h : WellFiled set) {edits : List (Edit δ)} {r : Rule δ}
    (hr : r ∈ set.added edits) : set.nextId ≤ r.id := by
  have hid : r.id ∈ (set.added edits).map Rule.id := List.mem_map_of_mem hr
  rw [h.map_id_added, h.handedOutAll_eq] at hid
  exact (List.mem_range'_1.1 hid).1

/-- Live are the rules that were there or were added, and were not taken out. -/
theorem mem_toList_run (h : WellFiled set) (edits : List (Edit δ)) (r : Rule δ) :
    r ∈ (set.run edits).toList ↔
      (r ∈ set.toList ∨ r ∈ set.added edits) ∧ ∀ q ∈ set.taken edits, q.id ≠ r.id := by
  induction edits generalizing set with
  | nil => simp [run, added, taken]
  | cons e rest ih =>
    -- a rule that is added later has a greater id than one that is taken out now
    have hlater (hr : r ∈ (set.edit e).added rest) {q : Rule δ} (hq : set.takenBy e = some q) :
        q.id ≠ r.id := by
      have hle := (h.edit e).nextId_le_of_mem_added hr
      rw [nextId_edit] at hle
      exact Nat.ne_of_lt (Nat.lt_of_lt_of_le (h.id_lt_of_takenBy hq) (Nat.le_of_add_right_le hle))
    rw [run, List.foldl_cons, ← run, ih (h.edit e), h.mem_toList_edit, added, taken]
    simp only [List.mem_append, Option.mem_toList]
    constructor
    · rintro ⟨⟨hr, hnow⟩ | hr, hrest⟩
      · exact ⟨hr.elim .inl (.inr ∘ .inl), fun q hq => hq.elim (hnow q) (hrest q)⟩
      · exact ⟨.inr (.inr hr), fun q hq => hq.elim (hlater hr) (hrest q)⟩
    · rintro ⟨hr | hr | hr, htaken⟩
      · exact ⟨.inl ⟨.inl hr, fun q hq => htaken q (.inl hq)⟩, fun q hq => htaken q (.inr hq)⟩
      · exact ⟨.inl ⟨.inr hr, fun q hq => htaken q (.inl hq)⟩, fun q hq => htaken q (.inr hq)⟩
      · exact ⟨.inr hr, fun q hq => htaken q (.inr hq)⟩

end WellFiled

end

theorem WellFiled.get?_eq_some_iff (h : WellFiled set) {id : RuleId} {r : Rule δ} :
    set.get? id = some r ↔ r ∈ set.toList ∧ r.id = id := by
  constructor
  · intro hr
    obtain ⟨p, hp, rfl⟩ := Option.map_eq_some_iff.1 hr
    have hmem := Std.TreeMap.mem_toList_iff_getElem?_eq_some.2 hp
    exact ⟨List.mem_map_of_mem (List.mem_map_of_mem hmem), h.id_eq _ hmem⟩
  · rintro ⟨hr, rfl⟩
    obtain ⟨p, hp, rfl⟩ := List.mem_map.1 hr
    exact h.get?_of_mem hp

end RuleSet

/-! ## Lists in step -/

namespace RuleList

theorem isSome_eraseLast? {α : Type} (p : α → Bool) (as : List α) :
    (eraseLast? p as).isSome = as.any p := by
  induction as with
  | nil => rfl
  | cons a as ih =>
    rw [eraseLast?, List.any_cons, ← ih]
    cases eraseLast? p as with
    | none => cases hp : p a <;> simp
    | some kept => simp

theorem fst_removeWhere (l : RuleList δ) (p : String × δ → Bool) :
    (l.removeWhere p).1 = l.rules.any p := by
  rw [← isSome_eraseLast?, removeWhere]
  cases eraseLast? p l.rules <;> rfl

variable {l : RuleList δ} {set : RuleSet δ}

theorem Mirrors.isSome_eq (h : l.Mirrors set) {qualifies : Rule δ → Prop}
    {out : Option (Rule δ) × RuleSet δ} (hout : RuleSet.TakesLast set qualifies out)
    {p : String × δ → Bool} (hp : ∀ r : Rule δ, p r.item = true ↔ qualifies r) :
    out.1.isSome = (l.removeWhere p).1 := by
  rw [fst_removeWhere, h, List.any_map, Bool.eq_iff_iff, List.any_eq_true,
    Option.isSome_iff_ne_none, ne_eq, hout.none_iff]
  simp only [Function.comp_apply, hp, not_forall, not_not, exists_prop]

end RuleList

/-- A set and a list at the same point of a history. `added` and `taken` are the rules that were
added to the set and taken out of it on the way. -/
structure InStep [BEq δ] (set : RuleSet δ) (list : RuleList δ) (added taken : List (Rule δ)) :
    Prop where
  items_eq : set.toList.map Rule.item = list.rules
  size_eq : set.size = list.size
  remove_isSome : ∀ selector, (set.remove selector).1.isSome = (list.remove selector).1
  remove : ∀ selector, RuleSet.TakesLast set (·.selector = selector) (set.remove selector)
  removeWithData_isSome : ∀ selector data,
    (set.removeWithData selector data).1.isSome = (list.removeWithData selector data).1
  removeWithData : ∀ selector data,
    RuleSet.TakesLast set (fun r => r.selector = selector ∧ (r.data == data) = true)
      (set.removeWithData selector data)
  /-- Under an id stands the rule that it was handed out for, until that is taken out. -/
  get?_iff : ∀ id r, set.get? id = some r ↔
    r ∈ added ∧ r.id = id ∧ ∀ q ∈ taken, q.id ≠ id

/-- After every history, edit by edit, a set and a list hold the same rules and go on alike. The
ids handed back on the way ascend, and each stands for one item of the history. -/
theorem inStep_run [BEq δ] (classifiers : List Classifier) (edits : List (Edit δ)) :
    let start : RuleSet δ := RuleSet.withClassifiers classifiers
    InStep (start.run edits) (({} : RuleList δ).run edits) (start.added edits)
      (start.taken edits) ∧
    (start.handedOutAll edits).Pairwise (· < ·) ∧
    (start.added edits).map Rule.id = start.handedOutAll edits ∧
    (start.added edits).map Rule.item = edits.flatMap Edit.items := by
  intro start
  have hstart : start.WellFiled := RuleSet.wellFiled_withClassifiers classifiers
  have hrun : (start.run edits).WellFiled := RuleSet.wellFiled_run classifiers edits
  have hm : (({} : RuleList δ).run edits).Mirrors (start.run edits) :=
    RuleList.mirrors_run classifiers edits
  refine ⟨⟨hm.symm, ?_, fun selector => ?_, hrun.takesLast_remove, fun selector data => ?_,
    hrun.takesLast_removeWithData, fun id r => ?_⟩, ?_, hstart.map_id_added edits,
    hstart.map_item_added edits⟩
  · rw [RuleList.size, hm, RuleSet.toList, RuleSet.placed, List.length_map, List.length_map,
      List.length_map, Std.TreeMap.length_toList]
    rfl
  · exact hm.isSome_eq (hrun.takesLast_remove selector) fun r => beq_iff_eq
  · refine hm.isSome_eq (hrun.takesLast_removeWithData selector data) fun r => ?_
    rw [Bool.and_eq_true, beq_iff_eq]
    rfl
  · have hlive : r ∈ start.toList ↔ False := by simp [start, RuleSet.toList, RuleSet.placed,
      RuleSet.withClassifiers]
    rw [hrun.get?_eq_some_iff, hstart.mem_toList_run, hlive, false_or]
    constructor
    · rintro ⟨⟨hr, htaken⟩, rfl⟩
      exact ⟨hr, rfl, htaken⟩
    · rintro ⟨hr, rfl, htaken⟩
      exact ⟨⟨hr, htaken⟩, rfl⟩
  · rw [hstart.handedOutAll_eq]
    exact List.pairwise_lt_range'

end SelectorIndex
