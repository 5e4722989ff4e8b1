import Mathlib.Data.List.Basic
import SelectorIndex.Proofs.Selector.Regrouped
import SelectorIndex.RuleSet

/-!
# Parts read alone

The groups of a selector and the tokens of a group are read one at a time, each
scanned from the start again, though the scan that cut them out came from what
stands before them. Nothing is lost by it: the scanner is in its initial state
after every cut, so it marks a part as it would mark it alone
(`Scan.exists_pieces`). Hence a selector has one division at its plain commas
(`IsDivision.eq`), groups and tokens are their own only parts, and a group is
filed in its selector as it would be alone (`classify_eq_flatMap`).
-/

namespace SelectorIndex

open Text

namespace Selector

/-! ## Cuts -/

namespace Scan

variable {s : Scan} {p : Char → Bool} {cs : List Char} {c : Char}

/-- None of the plain characters of the text satisfies `p`. -/
def IsUncut (s : Scan) (p : Char → Bool) (cs : List Char) : Prop :=
  ∀ m ∈ s.marks cs, m.2 = .plain → p m.1 = false

theorem isUncut_cons_iff :
    s.IsUncut p (c :: cs) ↔
      ¬ ((s.step c).2 = .plain ∧ p c = true) ∧ (s.step c).1.IsUncut p cs := by
  rw [IsUncut, marks, List.forall_mem_cons, IsUncut, not_and, Bool.not_eq_true]

/-- Each piece is uncut: the first one from the state that the text is scanned from, any other one
from the initial state. -/
theorem exists_pieces (s : Scan) (p : Char → Bool) (cs : List Char) :
    ∃ piece rest, s.pieces p cs = piece :: rest ∧ s.IsUncut p piece ∧
      ∀ q ∈ rest, ({} : Scan).IsUncut p q := by
  induction cs generalizing s with
  | nil => exact ⟨[], [], rfl, nofun, nofun⟩
  | cons c cs ih =>
    by_cases h : (s.step c).2 = .plain ∧ p c = true
    · obtain ⟨piece, rest, hpieces, hpiece, hrest⟩ := ih {}
      exact ⟨[], piece :: rest, by rw [pieces_cons_cut h, hpieces], nofun,
        List.forall_mem_cons.2 ⟨hpiece, hrest⟩⟩
    · obtain ⟨piece, rest, hpieces, hpiece, hrest⟩ := ih (s.step c).1
      exact ⟨c :: piece, rest, by rw [pieces_cons_uncut h, hpieces, List.modifyHead_cons],
        isUncut_cons_iff.2 ⟨h, hpiece⟩, hrest⟩

theorem pieces_of_isUncut (h : s.IsUncut p cs) : s.pieces p cs = [cs] := by
  induction cs generalizing s with
  | nil => rfl
  | cons c cs ih =>
    obtain ⟨hc, hcs⟩ := isUncut_cons_iff.1 h
    rw [pieces_cons_uncut hc, ih hcs, List.modifyHead_cons]

theorem pieces_of_mem_pieces {piece : List Char} (h : piece ∈ ({} : Scan).pieces p cs) :
    ({} : Scan).pieces p piece = [piece] := by
  obtain ⟨first, rest, hpieces, hfirst, hrest⟩ := exists_pieces {} p cs
  rw [hpieces] at h
  exact pieces_of_isUncut (List.forall_mem_cons.2 ⟨hfirst, hrest⟩ piece h)

end Scan

/-! ## Divisions -/

/-- The texts are the selector when they are joined by commas. All but the last are self-contained,
and none has a plain comma when it is scanned alone. -/
structure IsDivision (selector : String) (texts : List String) : Prop where
  ne_nil : texts ≠ []
  join : ",".intercalate texts = selector
  closed : ∀ text ∈ texts.dropLast, isSelfContained text = true
  whole : ∀ text ∈ texts, ({} : Scan).IsWhole text.toList

/-- The pieces of a selector are a division of it. -/
theorem isDivision_pieces (selector : String) :
    IsDivision selector ((({} : Scan).pieces (· == ',') selector.toList).map String.ofList) where
  ne_nil := by simpa using Scan.pieces_ne_nil _ _ _
  join := by
    rw [← String.toList_inj, String.toList_intercalate, List.map_map]
    simpa [Function.comp_def] using Scan.intercalate_pieces selector.toList
  closed text h := by
    rw [← List.map_dropLast] at h
    obtain ⟨piece, hpiece, rfl⟩ := List.mem_map.1 h
    rw [isSelfContained, String.toList_ofList]
    exact Scan.isClosed_of_mem_dropLast_pieces hpiece
  whole text h := by
    obtain ⟨piece, hpiece, rfl⟩ := List.mem_map.1 h
    rw [String.toList_ofList]
    exact (Scan.exists_of_mem_pieces hpiece).1

namespace IsDivision

variable {selector : String} {texts : List String}

theorem pieces_eq (h : IsDivision selector texts) :
    ({} : Scan).pieces (· == ',') selector.toList = texts.map String.toList := by
  rw [← h.join, String.toList_intercalate]
  refine Scan.pieces_intercalate (by simpa using h.ne_nil) (List.forall_mem_map.2 h.whole) ?_
  rw [← List.map_dropLast]
  exact List.forall_mem_map.2 h.closed

theorem eq {texts' : List String} (h : IsDivision selector texts)
    (h' : IsDivision selector texts') : texts = texts' := by
  have heq : texts.map String.toList = texts'.map String.toList := by
    rw [← h.pieces_eq, ← h'.pieces_eq]
  exact List.map_injective_iff.2 (fun _ _ => String.toList_inj.1) heq

theorem toList_groups (h : IsDivision selector texts) :
    (groups selector).map (·.text.toList) =
      (texts.map fun text => trim text.toList).filter (!·.isEmpty) := by
  have htexts := map_ofList_eq_iff.1 (map_text_groups selector).symm
  rw [groupTexts, h.pieces_eq, List.map_map, List.map_map] at htexts
  exact htexts.symm

end IsDivision

/-! ## Groups and tokens -/

theorem groups_of_mem_groups {selector : String} {group : Group} (h : group ∈ groups selector) :
    groups group.text = [⟨group.text, true⟩] := by
  have hmem : group.text.toList ∈ groupTexts selector.toList := by
    have htext : group.text ∈ (groups selector).map Group.text := List.mem_map_of_mem h
    rw [map_text_groups] at htext
    obtain ⟨text, htext, heq⟩ := List.mem_map.1 htext
    rwa [← heq, String.toList_ofList]
  rw [groups, groupTexts_of_mem hmem, List.map_singleton, String.ofList_toList]
  rfl

theorem tokens_of_mem_tokens {group token : String} (h : token ∈ tokens group) :
    tokens token = [token] := by
  obtain ⟨text, htext, rfl⟩ := List.mem_map.1 h
  obtain ⟨hpiece, hne⟩ := List.mem_filter.1 htext
  rw [tokens, String.toList_ofList, tokenTexts, Scan.pieces_of_mem_pieces hpiece,
    List.filter_singleton, hne]
  rfl

end Selector

namespace RuleSet

open Selector

variable {δ : Type}

/-- A selector is filed group by group. -/
theorem classify_eq_flatMap (set : RuleSet δ) (selector : String) :
    set.classify selector = (groups selector).flatMap fun group => set.classify group.text := by
  rw [classify, Placement.ofSelector, List.filterMap_eq_flatMap_toList, List.map_flatMap]
  refine List.flatMap_congr fun group hgroup => ?_
  rw [classify, Placement.ofSelector, groups_of_mem_groups hgroup,
    List.filterMap_eq_flatMap_toList, List.flatMap_singleton]

/-- A selector, well-formed or not, has one division at plain commas, and the parts of it that are
not blank are its groups, the last one flagged. Each group is the only group of its text, each token
the only token of its text, and a set files the selector where it would file the groups. -/
theorem divided_once (selector : String) :
    (∃! texts, IsDivision selector texts) ∧
    (∀ texts, IsDivision selector texts →
      (groups selector).map (·.text.toList) =
        (texts.map fun text => trim text.toList).filter (!·.isEmpty)) ∧
    (∀ i group, (groups selector)[i]? = some group →
      (group.isLast = true ↔ i + 1 = (groups selector).length)) ∧
    (∀ group ∈ groups selector, groups group.text = [⟨group.text, true⟩]) ∧
    (∀ group, ∀ token ∈ tokens group, tokens token = [token]) ∧
    (∀ set : RuleSet δ, set.classify selector =
      (groups selector).flatMap fun group => set.classify group.text) :=
  ⟨⟨_, isDivision_pieces selector, fun _ h => h.eq (isDivision_pieces selector)⟩,
    fun _ h => h.toList_groups, fun _ _ => isLast_iff_of_getElem?_groups,
    fun _ => groups_of_mem_groups, fun _ _ => tokens_of_mem_tokens,
    fun set => set.classify_eq_flatMap selector⟩

end RuleSet

end SelectorIndex
