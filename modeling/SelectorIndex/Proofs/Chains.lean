import Mathlib.Logic.Relation
import SelectorIndex.Proofs.DocumentOrder
import SelectorIndex.Proofs.Documents

/-!
# Chains in documents

A chain matches an element if its compounds can be laid on elements of the
document, the last one on that element, such that neighbours stand to each other
as the combinators say. How elements stand to each other is said by the lists of
children alone (`IsRelated`), and the elements that the matching goes through
from the right are just those (`mem_related_iff`). So `test_iff_embeds` says that
no choice of an ancestor or a sibling is given up too early.
-/

namespace SelectorIndex

open Selector

namespace Document

variable {root : Node} {doc : Document} {x y e : Nat}

/-! ## How elements stand to each other -/

/-- The first element stands to the second as the combinator says. -/
def IsRelated (doc : Document) : Combinator → Nat → Nat → Prop
  | .descendant, x, y => Relation.TransGen (fun p c => c ∈ doc.children p) x y
  | .child, x, y => y ∈ doc.children x
  | .adjacent, x, y => ∃ p before after, doc.children p = before ++ x :: y :: after
  | .sibling, x, y => ∃ p before between after,
      doc.children p = before ++ x :: (between ++ y :: after)

theorem lt_size_of_isRelated {k : Combinator} (h : (ofNode root).IsRelated k x y) :
    x < (ofNode root).size := by
  cases k with
  | descendant =>
    obtain ⟨c, hc, -⟩ := Relation.TransGen.head'_iff.1 h
    exact lt_size_of_mem_children hc
  | child => exact lt_size_of_mem_children h
  | adjacent =>
    obtain ⟨p, before, after, hp⟩ := h
    have hx : x ∈ (ofNode root).children p := by simp [hp]
    exact (lt_of_mem_children hx).2
  | sibling =>
    obtain ⟨p, before, between, after, hp⟩ := h
    have hx : x ∈ (ofNode root).children p := by simp [hp]
    exact (lt_of_mem_children hx).2

theorem mem_ancestorsWithin_iff {bound : Nat} (h : y ≤ bound) :
    x ∈ (ofNode root).ancestorsWithin bound y ↔ (ofNode root).IsRelated .descendant x y := by
  induction bound generalizing y with
  | zero =>
    obtain rfl := Nat.le_zero.1 h
    simp only [ancestorsWithin, List.not_mem_nil, false_iff]
    intro hx
    obtain ⟨q, -, hq⟩ := Relation.TransGen.tail'_iff.1 hx
    have := (lt_of_mem_children hq).1
    omega
  | succ bound ih =>
    rw [ancestorsWithin]
    cases hp : (ofNode root).parent? y with
    | none =>
      simp only [List.not_mem_nil, false_iff]
      intro hx
      obtain ⟨q, -, hq⟩ := Relation.TransGen.tail'_iff.1 hx
      rw [mem_children_iff.1 hq] at hp
      cases hp
    | some p =>
      have hchild := mem_children_iff.2 hp
      have hlt := (lt_of_mem_children hchild).1
      simp only [List.mem_cons]
      rw [ih (by omega)]
      constructor
      · rintro (rfl | hx)
        · exact .single hchild
        · exact .tail hx hchild
      · intro hx
        obtain ⟨q, hx, hq⟩ := Relation.TransGen.tail'_iff.1 hx
        rw [mem_children_iff.1 hq] at hp
        cases hp
        exact (Relation.reflTransGen_iff_eq_or_transGen.1 hx).imp Eq.symm id

/-- The siblings before a child, as the list of children has them. -/
theorem preceding_of_children {p : Nat} {before after : List Nat}
    (h : (ofNode root).children p = before ++ y :: after) :
    (ofNode root).preceding y = before.reverse := by
  have hchild : y ∈ (ofNode root).children p := by simp [h]
  have hasc := children_ascending root p
  rw [h, List.pairwise_append] at hasc
  obtain ⟨-, -, hlt⟩ := hasc
  have hne : ∀ x ∈ before, (x != y) = true := fun x hx => by
    have := hlt x hx y List.mem_cons_self
    rw [bne_iff_ne]
    omega
  rw [preceding, mem_children_iff.1 hchild]
  show (((ofNode root).children p).takeWhile (· != y)).reverse = _
  rw [h, List.takeWhile_append_of_pos hne, List.takeWhile_cons_of_neg (by simp), List.append_nil]

theorem preceding_cases (root : Node) (y : Nat) :
    (ofNode root).preceding y = [] ∨
      ∃ p before after, (ofNode root).children p = before ++ y :: after := by
  cases hp : (ofNode root).parent? y with
  | none => left; rw [preceding, hp]
  | some p =>
    obtain ⟨before, after, h⟩ := List.append_of_mem (mem_children_iff.2 hp)
    exact .inr ⟨p, before, after, h⟩

theorem mem_preceding_iff :
    x ∈ (ofNode root).preceding y ↔ (ofNode root).IsRelated .sibling x y := by
  constructor
  · intro hx
    obtain hnil | ⟨p, before, after, h⟩ := preceding_cases root y
    · rw [hnil] at hx
      cases hx
    · rw [preceding_of_children h, List.mem_reverse] at hx
      obtain ⟨before, between, rfl⟩ := List.append_of_mem hx
      exact ⟨p, before, between, after, by rw [h]; simp⟩
  · rintro ⟨p, before, between, after, h⟩
    rw [← List.cons_append, ← List.append_assoc] at h
    rw [preceding_of_children h]
    simp

theorem head?_preceding_iff :
    ((ofNode root).preceding y).head? = some x ↔ (ofNode root).IsRelated .adjacent x y := by
  constructor
  · intro hx
    obtain hnil | ⟨p, before, after, h⟩ := preceding_cases root y
    · rw [hnil] at hx
      cases hx
    · rw [preceding_of_children h, List.head?_reverse] at hx
      obtain ⟨before, rfl⟩ := List.getLast?_eq_some_iff.1 hx
      exact ⟨p, before, after, by rw [h]; simp⟩
  · rintro ⟨p, before, after, h⟩
    rw [List.append_cons] at h
    rw [preceding_of_children h]
    simp

/-- The elements that the matching tries are those that stand to the element as the combinator
says. -/
theorem mem_related_iff {k : Combinator} (h : y < (ofNode root).size) :
    x ∈ (ofNode root).related y k ↔ (ofNode root).IsRelated k x y := by
  cases k with
  | descendant => exact mem_ancestorsWithin_iff (Nat.le_of_lt h)
  | child =>
    rw [related, Option.mem_toList]
    exact mem_children_iff.symm
  | adjacent =>
    rw [related, Option.mem_toList]
    exact head?_preceding_iff
  | sibling => exact mem_preceding_iff

/-! ## Chains along elements -/

/-- The compounds of the chain hold of these elements one by one, the last of which is `e`, and
neighbours stand to each other as the combinators say. -/
structure Embeds (doc : Document) (chain : Chain) (xs : List Nat) (e : Nat) : Prop where
  length_eq : xs.length = chain.compounds.length
  getLast?_eq : xs.getLast? = some e
  lt_size : ∀ x ∈ xs, x < doc.size
  satisfies (i x : Nat) (c : Compound) : xs[i]? = some x → chain.compounds[i]? = some c →
    doc.satisfies x c = true
  related (i x y : Nat) (k : Combinator) : xs[i]? = some x → xs[i + 1]? = some y →
    chain.combinators[i]? = some k → doc.IsRelated k x y

theorem getElem?_concat_eq_some_iff {α : Type} {as : List α} {a b : α} {i : Nat} :
    (as ++ [a])[i]? = some b ↔ as[i]? = some b ∨ i = as.length ∧ b = a := by
  by_cases h : i < as.length
  · rw [List.getElem?_append_left h]
    exact (or_iff_left fun hi => by omega).symm
  · have hnone : as[i]? = none := List.getElem?_eq_none (by omega)
    rw [List.getElem?_append_right (by omega), hnone, List.getElem?_singleton]
    split
    · rw [Option.some.injEq, and_iff_right (by omega)]
      exact ⟨fun hab => .inr hab.symm, fun hba => (hba.resolve_left nofun).symm⟩
    · exact ⟨nofun, fun hi => absurd (hi.resolve_left nofun).1 (by omega)⟩

theorem embeds_one_iff {c : Compound} {xs : List Nat} :
    doc.Embeds (.one c) xs e ↔ xs = [e] ∧ e < doc.size ∧ doc.satisfies e c = true := by
  constructor
  · intro h
    obtain ⟨x, rfl⟩ := List.length_eq_one_iff.1 h.length_eq
    cases h.getLast?_eq
    exact ⟨rfl, h.lt_size x (List.mem_singleton_self x), h.satisfies 0 x c rfl rfl⟩
  · rintro ⟨rfl, he, hc⟩
    exact {
      length_eq := rfl
      getLast?_eq := rfl
      lt_size := List.forall_mem_singleton.2 he
      satisfies := fun i x c' hx hc' => by
        obtain ⟨hi, -⟩ := List.getElem?_eq_some_iff.1 hx
        obtain rfl : i = 0 := Nat.lt_one_iff.1 hi
        cases hx
        cases hc'
        exact hc
      related := fun i x y k _ _ hk => by cases hk }

section

variable {left : Chain} {k : Combinator} {c : Compound} {xs ys : List Nat}

/-- There is one more element than combinators, and it is the last one. -/
theorem Embeds.getElem?_length (h : doc.Embeds left xs x) :
    xs[left.combinators.length]? = some x := by
  have hlast := h.getLast?_eq
  rwa [List.getLast?_eq_getElem?, h.length_eq, left.length_compounds, Nat.add_sub_cancel] at hlast

theorem Embeds.concat (h : doc.Embeds left xs x) (hrel : doc.IsRelated k x e) (he : e < doc.size)
    (hc : doc.satisfies e c = true) : doc.Embeds (.step left k c) (xs ++ [e]) e := by
  have hxs := h.length_eq
  have hlength := left.length_compounds
  exact {
    length_eq := by rw [List.length_append, hxs, Chain.compounds, List.length_append]; rfl
    getLast?_eq := List.getLast?_concat
    lt_size := List.forall_mem_append.2 ⟨h.lt_size, List.forall_mem_singleton.2 he⟩
    satisfies := fun i y d hy hd => by
      rcases getElem?_concat_eq_some_iff.1 hy with hy | ⟨rfl, rfl⟩
      · obtain ⟨hi, -⟩ := List.getElem?_eq_some_iff.1 hy
        obtain hd | ⟨rfl, -⟩ := getElem?_concat_eq_some_iff.1 hd
        · exact h.satisfies i y d hy hd
        · omega
      · obtain hd | ⟨-, rfl⟩ := getElem?_concat_eq_some_iff.1 hd
        · obtain ⟨hi, -⟩ := List.getElem?_eq_some_iff.1 hd
          omega
        · exact hc
    related := fun i y z j hy hz hj => by
      rcases getElem?_concat_eq_some_iff.1 hj with hj | ⟨rfl, rfl⟩
      · -- a combinator of the chain on the left: both elements are of its row
        obtain ⟨hi, -⟩ := List.getElem?_eq_some_iff.1 hj
        obtain hy | ⟨rfl, -⟩ := getElem?_concat_eq_some_iff.1 hy
        · obtain hz | ⟨hz, -⟩ := getElem?_concat_eq_some_iff.1 hz
          · exact h.related i y z j hy hz hj
          · omega
        · omega
      · -- the new one: it stands between the last element of the row and the new element
        obtain rfl : y = x := by
          rw [List.getElem?_append_left (by omega), h.getElem?_length] at hy
          cases hy
          rfl
        obtain hz | ⟨-, rfl⟩ := getElem?_concat_eq_some_iff.1 hz
        · obtain ⟨hi, -⟩ := List.getElem?_eq_some_iff.1 hz
          omega
        · exact hrel }

theorem Embeds.exists_of_step (h : doc.Embeds (.step left k c) ys e) :
    ∃ xs x, ys = xs ++ [e] ∧ doc.Embeds left xs x ∧ doc.IsRelated k x e ∧
      e < doc.size ∧ doc.satisfies e c = true := by
  have hlength := left.length_compounds
  obtain ⟨xs, rfl⟩ := List.getLast?_eq_some_iff.1 h.getLast?_eq
  have hxs : xs.length = left.compounds.length := by
    simpa [Chain.compounds] using h.length_eq
  obtain ⟨x, hx⟩ : ∃ x, xs.getLast? = some x := by
    rw [← Option.isSome_iff_exists, List.getLast?_isSome]
    rintro rfl
    rw [hlength] at hxs
    cases hxs
  have hleft : doc.Embeds left xs x := {
    length_eq := hxs
    getLast?_eq := hx
    lt_size := fun y hy => h.lt_size y (List.mem_append_left _ hy)
    satisfies := fun i y d hy hd =>
      h.satisfies i y d (getElem?_concat_eq_some_iff.2 (.inl hy))
        (getElem?_concat_eq_some_iff.2 (.inl hd))
    related := fun i y z j hy hz hj =>
      h.related i y z j (getElem?_concat_eq_some_iff.2 (.inl hy))
        (getElem?_concat_eq_some_iff.2 (.inl hz)) (getElem?_concat_eq_some_iff.2 (.inl hj)) }
  refine ⟨xs, x, rfl, hleft, ?_, ?_, ?_⟩
  · exact h.related _ x e k (getElem?_concat_eq_some_iff.2 (.inl hleft.getElem?_length))
      (getElem?_concat_eq_some_iff.2 (.inr ⟨by omega, rfl⟩))
      (getElem?_concat_eq_some_iff.2 (.inr ⟨rfl, rfl⟩))
  · exact h.lt_size e (List.mem_append_right _ (List.mem_singleton_self e))
  · exact h.satisfies _ e c (getElem?_concat_eq_some_iff.2 (.inr ⟨rfl, rfl⟩))
      (getElem?_concat_eq_some_iff.2 (.inr ⟨hxs, rfl⟩))

theorem embeds_step_iff :
    doc.Embeds (.step left k c) ys e ↔
      ∃ xs x, ys = xs ++ [e] ∧ doc.Embeds left xs x ∧ doc.IsRelated k x e ∧
        e < doc.size ∧ doc.satisfies e c = true := by
  constructor
  · exact Embeds.exists_of_step
  · rintro ⟨xs, x, rfl, h, hrel, he, hc⟩
    exact h.concat hrel he hc

end

/-- Going through the combinators from the right finds a row of elements if there is any. -/
theorem matchesChain_iff {chain : Chain} (he : e < (ofNode root).size) :
    (ofNode root).matchesChain chain e = true ↔ ∃ xs, (ofNode root).Embeds chain xs e := by
  induction chain generalizing e with
  | one c =>
    simp only [matchesChain, embeds_one_iff, exists_eq_left, he, true_and]
  | step left k c ih =>
    simp only [matchesChain, Bool.and_eq_true, List.any_eq_true, embeds_step_iff]
    constructor
    · rintro ⟨hc, x, hx, hleft⟩
      have hrel := (mem_related_iff he).1 hx
      obtain ⟨xs, hxs⟩ := (ih (lt_size_of_isRelated hrel)).1 hleft
      exact ⟨xs ++ [e], xs, x, rfl, hxs, hrel, he, hc⟩
    · rintro ⟨-, xs, x, rfl, hxs, hrel, -, hc⟩
      exact ⟨hc, x, (mem_related_iff he).2 hrel, (ih (lt_size_of_isRelated hrel)).2 ⟨xs, hxs⟩⟩

/-- An element matches a selector that is read if the compounds of one of its chains can be laid
on elements of the document, the last of them on that element. -/
theorem test_iff_embeds {root : Node} {e : Nat} (he : e < (ofNode root).size) {selector : String}
    {chains : List Chain} (h : parse selector = .ok chains) :
    (ofNode root).host.test e selector = .ok true ↔
      ∃ chain ∈ chains, ∃ xs, (ofNode root).Embeds chain xs e := by
  rw [test_host_of_parse _ e h, Except.ok.injEq, matchesAny, List.any_eq_true]
  exact exists_congr fun chain => and_congr_right fun _ => matchesChain_iff he

/-- A box after another one, with a paragraph two levels below it. -/
def boxes : Document := .ofNode { tag := "a", children := [{ tag := "b" }, { tag := "div" },
  { tag := "div", children := [{ tag := "div", children := [{ tag := "p" }] }] }] }

/-- The nearest box above the paragraph has no siblings, the next one has. -/
theorem test_iff_embeds_boxes :
    let chain := Chain.step (.step (.step (.one [.tag "b"]) .adjacent [.tag "div"]) .sibling
      [.tag "div"]) .descendant [.tag "p"]
    5 < boxes.size ∧ parse "b + div ~ div p" = .ok [chain] ∧
    boxes.host.test 5 "b + div ~ div p" = .ok true ∧
    ∃ c ∈ [chain], ∃ xs, boxes.Embeds c xs 5 := by
  intro chain
  have hsize : 5 < boxes.size := by decide
  have hparse : parse "b + div ~ div p" = .ok [chain] := by decide +kernel
  have htest : boxes.host.test 5 "b + div ~ div p" = .ok true := by
    rw [test_host_of_parse boxes 5 hparse]
    decide
  exact ⟨hsize, hparse, htest, (test_iff_embeds hsize hparse).1 htest⟩

end Document

end SelectorIndex
