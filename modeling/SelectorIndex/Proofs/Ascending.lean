import Std.Data.TreeMap
import Std.Data.TreeSet
import Mathlib.Data.List.Sort

/-!
# Ascending lists of numbered things

A map by number is determined by the ascending list of its entries. So the
list of a map after an insertion or an erasure is found by writing down an
ascending list with the right members: `toList_eq` for maps, `toList_ofList_eq`
for sets of numbers.
-/

namespace SelectorIndex.Ascending

open Std

variable {α β : Type}

theorem eq_of_mem_iff {key : α → Nat} {l m : List α} (hl : l.Pairwise (key · < key ·))
    (hm : m.Pairwise (key · < key ·)) (h : ∀ a, a ∈ l ↔ a ∈ m) : l = m := by
  have nodup {k : List α} (hk : k.Pairwise (key · < key ·)) : k.Nodup :=
    hk.imp fun hlt heq => absurd (heq ▸ hlt) (Nat.lt_irrefl _)
  refine ((List.perm_ext_iff_of_nodup (nodup hl) (nodup hm)).2 h).eq_of_pairwise ?_ hl hm
  intro a b _ _ hab hba
  omega

theorem pairwise_toList (m : TreeMap Nat β) : m.toList.Pairwise (·.1 < ·.1) :=
  m.ordered_keys_toList.imp fun h => Nat.compare_eq_lt.1 h

theorem toList_eq {m : TreeMap Nat β} {l : List (Nat × β)} (hl : l.Pairwise (·.1 < ·.1))
    (h : ∀ k v, m[k]? = some v ↔ (k, v) ∈ l) : m.toList = l :=
  eq_of_mem_iff (pairwise_toList m) hl fun ⟨k, v⟩ => by
    rw [TreeMap.mem_toList_iff_getElem?_eq_some, h]

@[simp] theorem toList_empty : (∅ : TreeMap Nat β).toList = [] :=
  toList_eq .nil fun k v => by simp

theorem toList_insert_last {m : TreeMap Nat β} {k : Nat} (v : β)
    (hk : ∀ p ∈ m.toList, p.1 < k) : (m.insert k v).toList = m.toList ++ [(k, v)] := by
  refine toList_eq ?_ fun j w => ?_
  · refine List.pairwise_append.2 ⟨pairwise_toList m, List.pairwise_singleton _ _, ?_⟩
    intro a ha b hb
    rw [List.mem_singleton.1 hb]
    exact hk a ha
  · rw [TreeMap.getElem?_insert, List.mem_append, TreeMap.mem_toList_iff_getElem?_eq_some,
      List.mem_singleton, Prod.mk.injEq]
    simp only [LawfulEqCmp.compare_eq_iff_eq]
    split
    · rename_i heq
      subst heq
      constructor
      · intro h
        exact .inr ⟨rfl, (Option.some.inj h).symm⟩
      · rintro (h | ⟨-, rfl⟩)
        · exact absurd (hk _ (TreeMap.mem_toList_iff_getElem?_eq_some.2 h)) (Nat.lt_irrefl _)
        · rfl
    · rename_i hne
      constructor
      · exact .inl
      · rintro (h | ⟨rfl, -⟩)
        · exact h
        · exact absurd rfl hne

theorem toList_erase (m : TreeMap Nat β) (k : Nat) :
    (m.erase k).toList = m.toList.filter fun p => p.1 != k := by
  refine toList_eq ((pairwise_toList m).filter _) fun j w => ?_
  rw [TreeMap.getElem?_erase, List.mem_filter, TreeMap.mem_toList_iff_getElem?_eq_some]
  simp only [LawfulEqCmp.compare_eq_iff_eq]
  split
  · rename_i heq
    simp [heq]
  · rename_i hne
    simp [Ne.symm hne]

/-- The members of a list of numbers, each once. -/
theorem toList_ofList_eq {ids l : List Nat} (hl : l.Pairwise (· < ·))
    (h : ∀ id, id ∈ ids ↔ id ∈ l) : (TreeSet.ofList ids).toList = l := by
  have hs : (TreeSet.ofList ids).toList.Pairwise (· < ·) :=
    TreeSet.ordered_toList.imp fun h => Nat.compare_eq_lt.1 h
  refine @eq_of_mem_iff Nat id _ _ hs hl fun k => ?_
  rw [TreeSet.mem_toList, TreeSet.mem_ofList, List.contains_iff_mem, h]

theorem eq_of_key_eq {key : α → Nat} {l : List α} (hl : l.Pairwise (key · < key ·)) {a b : α}
    (ha : a ∈ l) (hb : b ∈ l) (h : key a = key b) : a = b := by
  induction hl with
  | nil => cases ha
  | cons hlt _ ih =>
    rcases List.mem_cons.1 ha with rfl | ha' <;> rcases List.mem_cons.1 hb with rfl | hb'
    · rfl
    · exact absurd (hlt b hb') (h ▸ Nat.lt_irrefl _)
    · exact absurd (hlt a ha') (h ▸ Nat.lt_irrefl _)
    · exact ih ha' hb'

theorem lt_of_lt {key key' : α → Nat} {l : List α} (hl : l.Pairwise (key · < key ·))
    (hl' : l.Pairwise (key' · < key' ·)) {a b : α} (ha : a ∈ l) (hb : b ∈ l)
    (h : key a < key b) : key' a < key' b := by
  induction hl with
  | nil => cases ha
  | cons hlt _ ih =>
    obtain ⟨hlt', hrest⟩ := List.pairwise_cons.1 hl'
    rcases List.mem_cons.1 ha with rfl | ha' <;> rcases List.mem_cons.1 hb with rfl | hb'
    · exact absurd h (Nat.lt_irrefl _)
    · exact hlt' b hb'
    · exact absurd h (Nat.lt_asymm (hlt a ha'))
    · exact ih hrest ha' hb'

end SelectorIndex.Ascending
