import SelectorIndex.Proofs.Selector.Printed

/-!
# Printed selectors read back

Each reader of the grammar reads back what was printed, and leaves what stands
after it. What may stand there is `EndsCompound`: nothing that goes on with a
name or with another test. A chain is read back along its printing from the
left: up to the last compound the reader is where the chain so far stops
(`chain_of_shown`).
-/

namespace SelectorIndex.Selector

open SelectorIndex.Text

/-! ## Names and strings -/

namespace Spells

variable {rest text name : List Char}

theorem nameChars_eq (h : Spells Parser.isNameChar rest text name)
    (hrest : ∀ c ∈ rest.head?, c ≠ '\\' ∧ Parser.isNameChar c = false) :
    Parser.nameChars (text ++ rest) = .ok (name, rest) := by
  induction h with
  | nil =>
    cases rest with
    | nil => rw [List.append_nil, Parser.nameChars]
    | cons c rest =>
      obtain ⟨hne, hc⟩ := hrest c rfl
      rw [List.nil_append, Parser.nameChars, if_neg hne, if_neg (by simp [hc])]
  | char hne hp _ ih => rw [List.cons_append, Parser.nameChars, if_neg hne, if_pos hp, ih]
  | @escape esc text name c hesc _ ih =>
    rw [List.cons_append, List.append_assoc, Parser.nameChars, if_pos rfl]
    split
    · rename_i heq
      rw [escape_of_spelled hesc] at heq
      cases heq
      rw [ih]
    · rename_i heq
      rw [escape_of_spelled hesc] at heq
      cases heq

theorem name_eq (h : Spells Parser.isNameChar rest text name) (hne : name ≠ [])
    (hrest : ∀ c ∈ rest.head?, c ≠ '\\' ∧ Parser.isNameChar c = false) :
    Parser.name (text ++ rest) = .ok (String.ofList name, rest) := by
  obtain ⟨c, cs, rfl⟩ := List.exists_cons_of_ne_nil hne
  rw [Parser.name, h.nameChars_eq hrest]

theorem quotedChars_eq {quote : Char} (hquote : quote ≠ '\\')
    (h : Spells (· != quote) (quote :: rest) text name) :
    Parser.quotedChars quote (text ++ quote :: rest) = .ok (name, rest) := by
  induction h with
  | nil => rw [List.nil_append, Parser.quotedChars, if_pos rfl]
  | char hne hp _ ih =>
    rw [List.cons_append, Parser.quotedChars, if_neg (bne_iff_ne.1 hp), if_neg hne, ih]
  | @escape esc text name c hesc _ ih =>
    rw [List.cons_append, List.append_assoc, Parser.quotedChars, if_neg (Ne.symm hquote),
      if_pos rfl]
    split
    · rename_i heq
      rw [escape_of_spelled hesc] at heq
      cases heq
      rw [ih]
    · rename_i heq
      rw [escape_of_spelled hesc] at heq
      cases heq

end Spells

namespace Parser

variable {text rest : List Char}

/-! ## Tests -/

/-- Nothing here goes on with a compound. -/
def EndsCompound (rest : List Char) : Prop :=
  ∀ c ∈ rest.head?, isNameChar c = false ∧ c ∉ ['\\', '#', '.', '[', ':']

theorem endsCompound_nil : EndsCompound [] := nofun

theorem EndsCompound.endsName (h : EndsCompound rest) :
    ∀ c ∈ rest.head?, c ≠ '\\' ∧ isNameChar c = false := by
  intro c hc
  obtain ⟨hname, hnot⟩ := h c hc
  refine ⟨?_, hname⟩
  rintro rfl
  exact hnot List.mem_cons_self

theorem EndsCompound.simples_eq (h : EndsCompound rest) : simples rest = .ok ([], rest) :=
  simples_eq_nil fun c hc hmem => (h c hc).2 (List.mem_cons_of_mem _ hmem)

theorem skipBlanks_cons {c : Char} (h : isBlank c = false) (cs : List Char) :
    skipBlanks (c :: cs) = c :: cs := by
  rw [skipBlanks, List.dropWhile_cons_of_neg (by simp [h])]

theorem name_of_shown {name : String} (hne : name ≠ "") (h : Shown (printName name) text rest)
    (hrest : ∀ c ∈ rest.head?, c ≠ '\\' ∧ isNameChar c = false) :
    Parser.name (text ++ rest) = .ok (name, rest) := by
  have hspells : Spells isNameChar rest text name.toList := Shown.spells h
  rw [hspells.name_eq (mt String.toList_eq_nil_iff.1 hne) hrest, String.ofList_toList]

theorem value_print (text : String) (rest : List Char) :
    value ('"' :: (printName text ++ '"' :: rest)) = .ok (text, rest) := by
  have hspells : Spells (· != '"') ('"' :: rest) (printName text) text.toList :=
    Shown.spells (.refl _ _)
  rw [value, skipBlanks_cons rfl]
  simp only [true_or, if_true, hspells.quotedChars_eq (by decide), String.ofList_toList]

theorem attrEnd_bracket (test : Simple) (rest : List Char) :
    attrEnd test (']' :: rest) = .ok (test, rest) := by
  rw [attrEnd, skipBlanks_cons rfl]
  rfl

theorem attr_print {name : String} (hne : name ≠ "") (what : AttrTest) (rest : List Char) :
    attr (printName name ++ (what.print ++ ']' :: rest)) = .ok (.attr name what, rest) := by
  have hskip : skipBlanks (printName name ++ (what.print ++ ']' :: rest)) =
      printName name ++ (what.print ++ ']' :: rest) := by
    obtain ⟨cs, hcs⟩ := List.head?_eq_some_iff.1 (head?_printName hne)
    rw [hcs]
    exact skipBlanks_cons rfl _
  have hname : Parser.name (printName name ++ (what.print ++ ']' :: rest)) =
      .ok (name, what.print ++ ']' :: rest) := by
    refine name_of_shown hne (.refl _ _) fun c hc => ?_
    cases what with
    | present => cases hc; decide
    | equals value => cases hc; decide
    | includes word => cases hc; decide
  rw [attr, hskip, hname]
  simp only [bind, Except.bind]
  cases what with
  | present =>
    have hcs : AttrTest.print .present ++ ']' :: rest = ']' :: rest := rfl
    rw [hcs, skipBlanks_cons rfl]
    rfl
  | equals text =>
    have hcs : AttrTest.print (.equals text) ++ ']' :: rest =
        '=' :: '"' :: (printName text ++ '"' :: ']' :: rest) := by simp [AttrTest.print]
    rw [hcs, skipBlanks_cons rfl]
    simp only [value_print]
    exact attrEnd_bracket _ rest
  | includes word =>
    have hcs : AttrTest.print (.includes word) ++ ']' :: rest =
        '~' :: '=' :: '"' :: (printName word ++ '"' :: ']' :: rest) := by simp [AttrTest.print]
    rw [hcs, skipBlanks_cons rfl]
    simp only [value_print]
    exact attrEnd_bracket _ rest

theorem simple?_of_shown {test : Simple} (htag : test.isTag = false) (hne : test.name ≠ "")
    (h : Shown test.print text rest)
    (hrest : ∀ c ∈ rest.head?, c ≠ '\\' ∧ isNameChar c = false) :
    simple? (text ++ rest) = .ok (some (test, rest)) := by
  cases test with
  | tag name => cases htag
  | id name =>
    obtain ⟨text', rfl, hname⟩ := h.cons (trimEnd_encode _) rfl
    rw [List.cons_append, simple?, name_of_shown hne hname hrest]
    rfl
  | className name =>
    obtain ⟨text', rfl, hname⟩ := h.cons (trimEnd_encode _) rfl
    rw [List.cons_append, simple?, name_of_shown hne hname hrest]
    rfl
  | attr name what =>
    have hne : name ≠ "" := hne
    have hlast : trimEnd (Simple.attr name what).print = (Simple.attr name what).print := by
      apply trimEnd_of_getLast?
      intro c hc
      rw [Simple.print, ← List.append_assoc, ← List.cons_append, List.getLast?_append] at hc
      cases hc
      rfl
    rw [h.eq_of_trimEnd hlast]
    have hcs : (Simple.attr name what).print ++ rest =
        '[' :: (printName name ++ (what.print ++ ']' :: rest)) := by simp [Simple.print]
    rw [hcs, simple?, attr_print hne]
    rfl

theorem head?_of_shown_tests {test : Simple} {tests : List Simple} (htag : test.isTag = false)
    (h : Shown ((test :: tests).flatMap Simple.print) text rest) :
    ∃ d ∈ ['#', '.', '['], text.head? = some d := by
  obtain ⟨d, hd, hhead⟩ := Simple.head?_print htag
  refine ⟨d, hd, h.head?_eq ?_ (of_sigil hd).1⟩
  rw [List.flatMap_cons, List.head?_append, hhead]
  rfl

theorem endsName_append {tests : List Simple} (htests : ∀ test ∈ tests, test.isTag = false)
    (h : Shown (tests.flatMap Simple.print) text rest) (hrest : EndsCompound rest) :
    ∀ c ∈ (text ++ rest).head?, c ≠ '\\' ∧ isNameChar c = false := by
  intro c hc
  cases tests with
  | nil =>
    rw [h.eq_of_trimEnd rfl] at hc
    exact hrest.endsName c hc
  | cons test tests =>
    obtain ⟨d, hd, hhead⟩ := head?_of_shown_tests (htests test List.mem_cons_self) h
    rw [List.head?_append, hhead] at hc
    cases hc
    exact (of_sigil hd).2.2

theorem simples_step {test : Simple} {tests : List Simple} {cs mid : List Char}
    (htest : simple? cs = .ok (some (test, mid))) (htests : simples mid = .ok (tests, rest)) :
    simples cs = .ok (test :: tests, rest) := by
  unfold simples
  split
  · rename_i heq
    rw [htest] at heq
    cases heq
  · rename_i heq
    rw [htest] at heq
    cases heq
  · rename_i heq
    rw [htest] at heq
    cases heq
    rw [htests]

theorem simples_of_shown {tests : List Simple}
    (htests : ∀ test ∈ tests, test.isTag = false ∧ test.name ≠ "")
    (h : Shown (tests.flatMap Simple.print) text rest) (hrest : EndsCompound rest) :
    simples (text ++ rest) = .ok (tests, rest) := by
  induction tests generalizing text with
  | nil =>
    rw [h.eq_of_trimEnd rfl]
    exact hrest.simples_eq
  | cons test tests ih =>
    obtain ⟨⟨htag, hne⟩, hall⟩ := List.forall_mem_cons.1 htests
    have htags : ∀ test ∈ tests, test.isTag = false := fun t ht => (hall t ht).1
    -- only the last test can lose anything to trimming: the one in front shows up whole
    -- unless nothing stands after it
    obtain ⟨text₁, text₂, rfl, hfront, hback⟩ := h.split (trimEnd_flatMap_print htags)
    rw [List.append_assoc]
    exact simples_step (simple?_of_shown htag hne hfront (endsName_append htags hback hrest))
      (ih hall hback)

/-! ## Compounds -/

/-- Without a tag, a compound is its tests. -/
theorem compound_of_tests {tests : List Simple} (hne : tests ≠ [])
    (htests : ∀ test ∈ tests, test.isTag = false ∧ test.name ≠ "")
    (h : Shown (tests.flatMap Simple.print) text rest) (hrest : EndsCompound rest) :
    compound (text ++ rest) = .ok (tests, rest) := by
  obtain ⟨test, tail, rfl⟩ := List.exists_cons_of_ne_nil hne
  have hsimples := simples_of_shown htests h hrest
  obtain ⟨d, hd, hhead⟩ := head?_of_shown_tests (htests test List.mem_cons_self).1 h
  obtain ⟨-, hstar, -, hname⟩ := of_sigil hd
  obtain ⟨ds, rfl⟩ := List.head?_eq_some_iff.1 hhead
  rw [List.cons_append] at hsimples ⊢
  rw [compound, head_eq_absent hname hstar]
  simp only [bind, Except.bind, hsimples]
  rfl

theorem head_of_tag {name : String} (hne : name ≠ "")
    (hstart : ∀ d ∈ name.toList.head?, isNameChar d = true ∧ isBlank d = false)
    (h : Shown (printTag name) text rest)
    (hrest : ∀ c ∈ rest.head?, c ≠ '\\' ∧ isNameChar c = false) :
    head (text ++ rest) = .ok (.tag name, rest) := by
  obtain ⟨c, cs, hname⟩ := exists_toList hne
  obtain ⟨hc, hblank⟩ := hstart c (by rw [hname]; rfl)
  have hslash : c ≠ '\\' := by
    rintro rfl
    cases hc
  rw [printTag, hname] at h
  obtain ⟨text', rfl, hshown⟩ := h.cons (trimEnd_encode cs) hblank
  have hspells : Spells isNameChar rest (c :: text') name.toList :=
    hname ▸ .char hslash hc hshown.spells
  have hread := hspells.name_eq (by rw [hname]; exact List.cons_ne_nil _ _) hrest
  rw [List.cons_append, String.ofList_toList] at hread
  rw [List.cons_append]
  unfold head
  split
  · rename_i heq
    cases heq
    cases hc
  · rename_i heq
    cases heq
    rw [if_pos hc, hread]
    rfl
  · rename_i heq
    cases heq

theorem compound_of_shown {c : Compound} (hc : c.WellFormed)
    (h : Shown (Compound.print c) text rest) (hrest : EndsCompound rest) :
    compound (text ++ rest) = .ok (c, rest) := by
  cases c with
  | nil =>
    have hhead : head ('*' :: rest) = .ok (.universal, rest) := rfl
    have hstar : Compound.print [] ++ rest = '*' :: rest := rfl
    rw [h.eq_of_trimEnd rfl, hstar, compound, hhead]
    simp only [bind, Except.bind, hrest.simples_eq]
    rfl
  | cons test tests =>
    have htests : ∀ t ∈ tests, t.isTag = false ∧ t.name ≠ "" := fun t ht =>
      ⟨hc.isTag_tail t ht, hc.name_ne_empty t (List.mem_cons_of_mem _ ht)⟩
    have hne := hc.name_ne_empty test List.mem_cons_self
    cases htag : test.isTag with
    | false =>
      exact compound_of_tests (List.cons_ne_nil _ _)
        (List.forall_mem_cons.2 ⟨⟨htag, hne⟩, htests⟩) h hrest
    | true =>
      obtain ⟨name, rfl⟩ := Simple.isTag_iff.1 htag
      have htags : ∀ t ∈ tests, t.isTag = false := fun t ht => (htests t ht).1
      have hparts : Shown (printTag name ++ tests.flatMap Simple.print) text rest := h
      obtain ⟨text₁, text₂, rfl, hfront, hback⟩ := hparts.split (trimEnd_flatMap_print htags)
      have hhead := head_of_tag hne (hc.tag_start _ List.mem_cons_self rfl) hfront
        (endsName_append htags hback hrest)
      rw [List.append_assoc, compound, hhead]
      simp only [bind, Except.bind, simples_of_shown htests hback hrest]
      rfl

/-! ## Chains -/

theorem combinator?_print (k : Combinator) {d : Char} (hblank : isBlank d = false)
    (hsep : isSeparator d = false) (cs : List Char) :
    combinator? (k.print ++ d :: cs) = .ok (some (k, d :: cs)) := by
  have hskip : skipBlanks (d :: cs) = d :: cs := skipBlanks_cons hblank cs
  have hspace : skipBlanks (' ' :: d :: cs) = d :: cs := hskip
  cases k with
  | descendant =>
    simp only [isSeparator, Bool.or_eq_false_iff, beq_eq_false_iff_ne] at hsep
    obtain ⟨⟨⟨hchild, hadjacent⟩, hsibling⟩, -⟩ := hsep
    show combinator? (' ' :: d :: cs) = _
    unfold combinator?
    rw [hspace]
    split
    · rename_i heq
      cases heq
    · rename_i heq
      cases heq
      exact absurd rfl hchild
    · rename_i heq
      cases heq
      exact absurd rfl hadjacent
    · rename_i heq
      cases heq
      exact absurd rfl hsibling
    · rename_i heq
      cases heq
      rfl
  | child => exact congrArg (fun rest => Except.ok (some (Combinator.child, rest))) hspace
  | adjacent => exact congrArg (fun rest => Except.ok (some (Combinator.adjacent, rest))) hspace
  | sibling => exact congrArg (fun rest => Except.ok (some (Combinator.sibling, rest))) hspace

theorem endsCompound_print (k : Combinator) (cs : List Char) : EndsCompound (k.print ++ cs) := by
  intro c hc
  cases k with
  | descendant => cases hc; decide
  | child => cases hc; decide
  | adjacent => cases hc; decide
  | sibling => cases hc; decide

theorem chainFrom_step {left : Chain} {k : Combinator} {c : Compound} {cs mid : List Char}
    (hk : combinator? cs = .ok (some (k, mid))) (hc : compound mid = .ok (c, rest)) :
    chainFrom left cs = chainFrom (.step left k c) rest := by
  rw [chainFrom]
  split
  · rename_i heq
    rw [hk] at heq
    cases heq
  · rename_i heq
    rw [hk] at heq
    cases heq
  · rename_i heq
    rw [hk] at heq
    cases heq
    split
    · rename_i heq
      rw [hc] at heq
      cases heq
      rfl
    · rename_i heq
      rw [hc] at heq
      cases heq

theorem chainFrom_nil (left : Chain) : chainFrom left [] = .ok left := by
  rw [chainFrom]
  rfl

/-- A chain in front of anything that ends its last compound. -/
theorem chain_of_shown {c : Chain} (hc : c.WellFormed) (h : Shown c.print text rest)
    (hrest : EndsCompound rest) : chain (text ++ rest) = chainFrom c rest := by
  -- the chain's left part ends at a combinator, which ends its last compound as `rest` does
  induction c generalizing text rest with
  | one c =>
    rw [chain, compound_of_shown (Chain.wellFormed_one.1 hc) h hrest]
    rfl
  | step left k c ih =>
    obtain ⟨hleft, hcomp⟩ := Chain.wellFormed_step.1 hc
    obtain ⟨d, hd, hblank, hsep⟩ := Compound.head?_print hcomp
    rw [Chain.print, ← List.append_assoc] at h
    obtain ⟨text', rfl, hshown⟩ :=
      h.append (trimEnd_ne_nil (List.mem_of_mem_head? hd) hblank)
    obtain ⟨ds, rfl⟩ := List.head?_eq_some_iff.1 (hshown.head?_eq hd hblank)
    rw [List.append_assoc, List.append_assoc,
      ih hleft (.refl _ _) (endsCompound_print k _)]
    exact chainFrom_step (combinator?_print k hblank hsep (ds ++ rest))
      (compound_of_shown hcomp hshown hrest)

theorem chain_trimEnd_print {c : Chain} (hc : c.WellFormed) : chain (trimEnd c.print) = .ok c := by
  have hchain := chain_of_shown hc (.trimmed c.print) endsCompound_nil
  rwa [List.append_nil, chainFrom_nil] at hchain

end Parser

end SelectorIndex.Selector
