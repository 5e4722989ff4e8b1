import SelectorIndex.Proofs.Documents
import SelectorIndex.Proofs.Selector.Scanned

/-!
# Trees of accepted selectors

What a selector can be read as, if it can be read at all. A tag stands first in
its compound, every name has a character, and a tag starts with one that stands
for itself (`WellFormed`). Groups are trimmed and a combinator takes the blanks
after it, so no compound starts with a blank: hence `wellFormed_of_parse`.
-/

namespace SelectorIndex.Selector

open SelectorIndex.Text

/-! ## Well-formed trees -/

def Simple.name : Simple → String
  | tag name => name
  | id name => name
  | className name => name
  | attr name _ => name

def Simple.isTag : Simple → Bool
  | tag _ => true
  | _ => false

theorem Simple.isTag_iff {test : Simple} : test.isTag = true ↔ ∃ name, test = .tag name := by
  cases test <;> simp [isTag]

structure Compound.WellFormed (c : Compound) : Prop where
  isTag_tail : ∀ test ∈ c.tail, test.isTag = false
  name_ne_empty : ∀ test ∈ c, test.name ≠ ""
  tag_start : ∀ test ∈ c, test.isTag = true →
    ∀ d ∈ test.name.toList.head?, Parser.isNameChar d = true ∧ isBlank d = false

structure Chain.WellFormed (c : Chain) : Prop where
  length_eq : c.compounds.length = c.combinators.length + 1
  compounds : ∀ comp ∈ c.compounds, Compound.WellFormed comp

structure WellFormed (cs : List Chain) : Prop where
  ne_nil : cs ≠ []
  chains : ∀ c ∈ cs, c.WellFormed

instance (c : Compound) : Decidable c.WellFormed :=
  decidable_of_iff ((∀ test ∈ c.tail, test.isTag = false) ∧ (∀ test ∈ c, test.name ≠ "") ∧
      ∀ test ∈ c, test.isTag = true →
        test.name.toList.head?.all (fun d => Parser.isNameChar d && !isBlank d) = true)
    (by
      simp only [Option.all_eq_true, Bool.and_eq_true, Bool.not_eq_true']
      exact ⟨fun ⟨htail, hname, hstart⟩ => ⟨htail, hname, hstart⟩,
        fun h => ⟨h.isTag_tail, h.name_ne_empty, h.tag_start⟩⟩)

instance (c : Chain) : Decidable c.WellFormed :=
  decidable_of_iff (c.compounds.length = c.combinators.length + 1 ∧
      ∀ comp ∈ c.compounds, Compound.WellFormed comp)
    ⟨fun ⟨hlength, hcomp⟩ => ⟨hlength, hcomp⟩, fun h => ⟨h.length_eq, h.compounds⟩⟩

instance (cs : List Chain) : Decidable (WellFormed cs) :=
  decidable_of_iff (cs ≠ [] ∧ ∀ c ∈ cs, c.WellFormed)
    ⟨fun ⟨hne, hchains⟩ => ⟨hne, hchains⟩, fun h => ⟨h.ne_nil, h.chains⟩⟩

theorem Chain.wellFormed_iff {c : Chain} :
    c.WellFormed ↔ ∀ comp ∈ c.compounds, Compound.WellFormed comp :=
  ⟨WellFormed.compounds, fun h => ⟨c.length_compounds, h⟩⟩

theorem Chain.wellFormed_step {left : Chain} {k : Combinator} {c : Compound} :
    (step left k c).WellFormed ↔ left.WellFormed ∧ Compound.WellFormed c := by
  simp only [wellFormed_iff, compounds, List.forall_mem_append, List.forall_mem_singleton]

theorem Chain.wellFormed_one {c : Compound} : (one c).WellFormed ↔ Compound.WellFormed c := by
  simp only [wellFormed_iff, compounds, List.forall_mem_singleton]

namespace Parser

variable {cs rest : List Char}

/-! ## Names and tests -/

theorem name_ne_empty {n : String} (h : name cs = .ok (n, rest)) : n ≠ "" := by
  unfold name at h
  split at h
  · cases h
  · rename_i chars rest' hne _
    cases h
    intro hempty
    cases chars with
    | nil => exact hne rfl
    | cons c chars =>
      have := congrArg String.toList hempty
      rw [String.toList_ofList] at this
      cases this
  · cases h

/-- A name that starts with a name character has that character for its first. -/
theorem head?_of_name {c : Char} {n : String} (hc : isNameChar c = true)
    (h : name (c :: cs) = .ok (n, rest)) : n.toList.head? = some c := by
  have hslash : c ≠ '\\' := by
    rintro rfl
    cases hc
  unfold name at h
  split at h
  · cases h
  · rename_i chars rest' _ heq
    cases h
    rw [nameChars, if_neg hslash, if_pos hc] at heq
    split at heq
    · cases heq
      rw [String.toList_ofList]
      rfl
    · cases heq
  · cases h

theorem of_attr {test : Simple} (h : attr cs = .ok (test, rest)) :
    test.isTag = false ∧ test.name ≠ "" := by
  obtain ⟨⟨n, mid⟩, hn, h⟩ := bind_eq_ok h
  have hne := name_ne_empty hn
  dsimp only at h
  split at h
  · cases h
    exact ⟨rfl, hne⟩
  · obtain ⟨⟨text, tail⟩, -, h⟩ := bind_eq_ok h
    obtain ⟨rfl, -⟩ := Scan.inBrackets_encloses_attrEnd h
    exact ⟨rfl, hne⟩
  · obtain ⟨⟨text, tail⟩, -, h⟩ := bind_eq_ok h
    obtain ⟨rfl, -⟩ := Scan.inBrackets_encloses_attrEnd h
    exact ⟨rfl, hne⟩
  · cases h

theorem of_simple? {test : Simple} (h : simple? cs = .ok (some (test, rest))) :
    test.isTag = false ∧ test.name ≠ "" := by
  unfold simple? at h
  split at h
  · obtain ⟨⟨n, mid⟩, hn, h⟩ := bind_eq_ok h
    cases h
    exact ⟨rfl, name_ne_empty hn⟩
  · obtain ⟨⟨n, mid⟩, hn, h⟩ := bind_eq_ok h
    cases h
    exact ⟨rfl, name_ne_empty hn⟩
  · obtain ⟨⟨test', mid⟩, ha, h⟩ := bind_eq_ok h
    cases h
    exact of_attr ha
  · cases h
  · cases h

theorem of_simples {tests : List Simple} (h : simples cs = .ok (tests, rest)) :
    ∀ test ∈ tests, test.isTag = false ∧ test.name ≠ "" := by
  fun_induction simples cs generalizing tests rest with
  | case1 => cases h
  | case2 =>
    cases h
    intro test htest
    cases htest
  | case3 cs test mid hs hlt tests' tail heq ih =>
    cases h
    exact List.forall_mem_cons.2 ⟨of_simple? hs, ih heq⟩
  | case4 => cases h

/-! ## Compounds -/

theorem of_head_eq_tag {n : String} (h : head cs = .ok (.tag n, rest)) :
    ∃ c tail, cs = c :: tail ∧ isNameChar c = true ∧ n ≠ "" ∧ n.toList.head? = some c := by
  unfold head at h
  split at h
  · cases h
  · rename_i c tail _
    split at h
    · rename_i hc
      obtain ⟨⟨n', mid⟩, hn, h⟩ := bind_eq_ok h
      cases h
      exact ⟨c, tail, rfl, hc, name_ne_empty hn, head?_of_name hc hn⟩
    · cases h
  · cases h

theorem wellFormed_of_forall {tests : List Simple}
    (h : ∀ test ∈ tests, test.isTag = false ∧ test.name ≠ "") : Compound.WellFormed tests where
  isTag_tail test htest := (h test (List.mem_of_mem_tail htest)).1
  name_ne_empty test htest := (h test htest).2
  tag_start test htest htag := by
    rw [(h test htest).1] at htag
    cases htag

theorem wellFormed_of_compound {c : Compound} (hhead : ∀ d ∈ cs.head?, isBlank d = false)
    (h : compound cs = .ok (c, rest)) : Compound.WellFormed c := by
  obtain ⟨⟨hd, mid⟩, hh, h⟩ := bind_eq_ok h
  obtain ⟨⟨tests, tail⟩, hs, h⟩ := bind_eq_ok h
  have htests := of_simples hs
  dsimp only at h
  split at h
  · cases h
  · rename_i n
    cases h
    obtain ⟨d, tail', rfl, hd, hne, hstart⟩ := of_head_eq_tag hh
    refine ⟨fun test htest => (htests test htest).1,
      List.forall_mem_cons.2 ⟨hne, fun test htest => (htests test htest).2⟩,
      fun test htest htag => ?_⟩
    rcases List.mem_cons.1 htest with rfl | hmem
    · intro c hc
      cases (Option.mem_def.1 hc).symm.trans hstart
      exact ⟨hd, hhead d rfl⟩
    · rw [(htests test hmem).1] at htag
      cases htag
  · cases h
    exact wellFormed_of_forall htests

theorem head_eq_absent {c : Char} (hname : isNameChar c = false) (hstar : c ≠ '*') :
    head (c :: cs) = .ok (.absent, c :: cs) := by
  unfold head
  split
  · rename_i heq
    cases heq
    exact absurd rfl hstar
  · rename_i heq
    cases heq
    rw [if_neg (by simp [hname])]
  · rename_i heq
    cases heq

theorem simple?_eq_none (h : ∀ c ∈ cs.head?, c ∉ ['#', '.', '[', ':']) :
    simple? cs = .ok none := by
  unfold simple?
  split
  · exact absurd (List.mem_cons_self) (h '#' rfl)
  · exact absurd (by simp) (h '.' rfl)
  · exact absurd (by simp) (h '[' rfl)
  · exact absurd (by simp) (h ':' rfl)
  · rfl

theorem simples_eq_nil (h : ∀ c ∈ cs.head?, c ∉ ['#', '.', '[', ':']) :
    simples cs = .ok ([], cs) := by
  have hnone := simple?_eq_none h
  unfold simples
  split
  · rename_i heq
    rw [hnone] at heq
    cases heq
  · rfl
  · rename_i heq
    rw [hnone] at heq
    cases heq

theorem chain_eq_missingCompound {c : Char} (hname : isNameChar c = false)
    (hstart : c ∉ ['*', '#', '.', '[', ':']) :
    chain (c :: cs) = .error .missingCompound := by
  rw [List.mem_cons, not_or] at hstart
  have hsimples : simples (c :: cs) = .ok ([], c :: cs) := simples_eq_nil fun d hd => by
    cases hd
    exact hstart.2
  rw [chain, compound, head_eq_absent hname hstart.1]
  simp only [bind, Except.bind, hsimples]

/-! ## Chains -/

theorem head?_skipBlanks {d : Char} (h : d ∈ (skipBlanks cs).head?) : isBlank d = false :=
  head?_dropWhile_isBlank h

theorem head?_of_combinator? {k : Combinator} (h : combinator? cs = .ok (some (k, rest))) :
    ∀ d ∈ rest.head?, isBlank d = false := by
  intro d hd
  unfold combinator? at h
  split at h
  · cases h
  · cases h
    exact head?_skipBlanks hd
  · cases h
    exact head?_skipBlanks hd
  · cases h
    exact head?_skipBlanks hd
  · rename_i c tail _ _ _ heq
    split at h
    · cases h
      rw [← heq] at hd
      exact head?_skipBlanks hd
    · split at h <;> cases h

theorem wellFormed_of_chainFrom {left c : Chain} (hleft : left.WellFormed)
    (h : chainFrom left cs = .ok c) : c.WellFormed := by
  fun_induction chainFrom left cs with
  | case1 => cases h
  | case2 => cases h; exact hleft
  | case3 left cs k mid hsome comp tail hcomp hlt hle ih =>
    exact ih (Chain.wellFormed_step.2
      ⟨hleft, wellFormed_of_compound (head?_of_combinator? hsome) hcomp⟩) h
  | case4 => cases h

theorem wellFormed_of_chain {c : Chain} (hhead : ∀ d ∈ cs.head?, isBlank d = false)
    (h : chain cs = .ok c) : c.WellFormed := by
  obtain ⟨⟨comp, rest⟩, hcomp, h⟩ := bind_eq_ok h
  exact wellFormed_of_chainFrom (Chain.wellFormed_one.2 (wellFormed_of_compound hhead hcomp)) h

end Parser

/-! ## Selectors -/

theorem head?_of_mem_groupTexts {cs text : List Char} (h : text ∈ groupTexts cs) :
    ∀ d ∈ text.head?, isBlank d = false := by
  obtain ⟨piece, -, rfl⟩ := List.mem_map.1 (List.mem_filter.1 h).1
  exact fun _ => head?_trim

/-- Whatever can be read is well formed. -/
theorem wellFormed_of_parse {selector : String} {cs : List Chain} (h : parse selector = .ok cs) :
    WellFormed cs := by
  rw [parse_eq] at h
  split at h
  · cases h
  · rename_i hne
    obtain ⟨hleft, hright⟩ := mapM_eq_ok h
    refine ⟨?_, fun c hc => ?_⟩
    · obtain ⟨text, htext⟩ := List.exists_mem_of_ne_nil _ hne
      obtain ⟨c, hc, -⟩ := hleft text htext
      exact List.ne_nil_of_mem hc
    · obtain ⟨text, htext, hchain⟩ := hright c hc
      exact Parser.wellFormed_of_chain (head?_of_mem_groupTexts htext) hchain

end SelectorIndex.Selector
