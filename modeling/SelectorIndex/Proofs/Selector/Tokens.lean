import SelectorIndex.Proofs.Selector.Scanned
import SelectorIndex.Proofs.Text.Runs

/-!
# Compounds and the scanner

The grammar reads a compound name by name, the scanner cuts a text at
separators. The text of a compound is crossed by the scanner, that is, read
without a cut (`exists_of_compound`), and made bare it consists of the names of
the compound (`BareCompound`).
-/

namespace SelectorIndex.Selector

open SelectorIndex.Text

/-! ## Texts that are crossed -/

/-- The scanner reads the text in front of `rest` without meeting a separator, is back where it
started, and leaves `bare` outside of spans. -/
structure Crosses (text rest bare : List Char) : Prop where
  marks_append : ∀ rest', StandsFor rest' rest →
    ({} : Scan).marks (text ++ rest') = ({} : Scan).marks text ++ ({} : Scan).marks rest'
  notSeparator : ∀ m ∈ ({} : Scan).marks text, m.2 = .plain → isSeparator m.1 = false
  bareText_eq : bareText text = bare

theorem isSeparator_of_isNameChar {c : Char} (h : Parser.isNameChar c = true) :
    isSeparator c = false := by
  refine Bool.eq_false_iff.2 fun hsep => ?_
  simp only [isSeparator, isAsciiBlank, Bool.or_eq_true, beq_iff_eq] at hsep
  rcases hsep with ((rfl | rfl) | rfl) | (((rfl | rfl) | rfl) | rfl) | rfl <;> cases h

theorem step_separator {c : Char} (h : isSeparator c = true) :
    ({} : Scan).step c = ({}, .plain) :=
  Scan.step_ordinary rfl rfl (Scan.isOrdinary_of_all (by decide) h)

/-- A mark, with whether tokens are cut there. -/
def cutMark (m : Char × Position) : Char × Bool := (m.1, m.2 == .plain && isSeparator m.1)

theorem tokenTexts_eq (cs : List Char) :
    tokenTexts cs = (cut ((({} : Scan).marks cs).map cutMark)).filter (!·.isEmpty) := rfl

/-- Where no separator stands, nothing is cut. -/
theorem map_cutMark {text : List Char}
    (h : ∀ m ∈ ({} : Scan).marks text, m.2 = .plain → isSeparator m.1 = false) :
    (({} : Scan).marks text).map cutMark = text.map (·, false) := by
  refine Scan.map_marks fun m hm => Prod.ext rfl ?_
  cases hplain : m.2 == .plain with
  | false => simp only [cutMark, hplain, Bool.false_and]
  | true => simp only [cutMark, h m hm (beq_iff_eq.1 hplain), Bool.and_false]

namespace Crosses

variable {text text' rest bare bare' : List Char}

theorem nil (rest : List Char) : Crosses [] rest [] where
  marks_append _ _ := rfl
  notSeparator := nofun
  bareText_eq := rfl

theorem append (h : Crosses text (text' ++ rest) bare) (h' : Crosses text' rest bare') :
    Crosses (text ++ text') rest (bare ++ bare') := by
  have hmarks : ({} : Scan).marks (text ++ text') =
      ({} : Scan).marks text ++ ({} : Scan).marks text' :=
    h.marks_append text' (standsFor_append text' rest)
  refine ⟨fun rest' hrest => ?_, fun m hm => ?_, ?_⟩
  · rw [List.append_assoc, h.marks_append _ (hrest.append text'), h'.marks_append rest' hrest,
      hmarks, List.append_assoc]
  · rw [hmarks, List.mem_append] at hm
    rcases hm with hm | hm
    · exact h.notSeparator m hm
    · exact h'.notSeparator m hm
  · rw [← h.bareText_eq, ← h'.bareText_eq, bareText, bareText, bareText, hmarks,
      List.filter_append, List.map_append]

theorem of_ordinary {c : Char} (hc : Scan.isOrdinary c = true) (hsep : isSeparator c = false) :
    Crosses [c] rest [c] := by
  have hstep : ({} : Scan).step c = ({}, .plain) := Scan.step_ordinary rfl rfl hc
  refine ⟨fun rest' _ => ?_, fun m hm _ => ?_, ?_⟩
  · simp only [List.cons_append, List.nil_append, Scan.marks, hstep]
  · rw [Scan.marks, hstep, Scan.marks, List.mem_singleton] at hm
    rw [hm]
    exact hsep
  · rw [bareText, Scan.marks, hstep]
    rfl

theorem of_spells {name : List Char} (h : Spells Parser.isNameChar rest text name) :
    Crosses text rest text := by
  have hstep (c : Char) (_ : c ≠ '\\') (hc : Parser.isNameChar c = true) :
      ({} : Scan).step c = ({}, .plain) :=
    Scan.step_ordinary rfl rfl (Scan.isOrdinary_of_isNameChar hc)
  obtain ⟨-, hpos⟩ := Scan.marks_of_spells rfl hstep h
  refine ⟨fun rest' hrest => (Scan.marks_of_spells rfl hstep (h.move hrest)).1,
    fun m hm hplain => ?_, ?_⟩
  · rcases hpos m hm with hm | ⟨-, hm⟩
    · rw [hplain] at hm
      cases hm
    · exact isSeparator_of_isNameChar hm
  · rw [bareText, List.filter_eq_self.2 fun m hm => ?_, Scan.map_fst_marks]
    rcases hpos m hm with hm | ⟨hm, -⟩ <;> rw [hm] <;> rfl

theorem of_encloses (h : ({} : Scan).Encloses (text ++ rest) {} rest) :
    Crosses text rest [] := by
  obtain ⟨text', heq, hmarks⟩ := h
  obtain rfl := List.append_cancel_right heq
  have htext : ({} : Scan).marks text = text.map (·, .enclosed) := by
    have := hmarks [] (.inr endsEscape_nil)
    rwa [List.append_nil, Scan.marks, List.append_nil] at this
  refine ⟨fun rest' hrest => ?_, fun m hm hplain => ?_, ?_⟩
  · rw [hmarks rest' hrest, htext]
  · rw [htext] at hm
    obtain ⟨c, -, rfl⟩ := List.mem_map.1 hm
    cases hplain
  · rw [bareText, htext, List.filter_eq_nil_iff.2 fun m hm => ?_]
    · rfl
    · obtain ⟨c, -, rfl⟩ := List.mem_map.1 hm
      exact Bool.not_eq_true _ ▸ rfl

theorem tokenTexts_append (h : Crosses text rest bare) (hne : text ≠ [])
    (hrest : ∀ c ∈ rest.head?, isSeparator c = true) :
    tokenTexts (text ++ rest) = text :: tokenTexts rest := by
  have hunmarked := map_cutMark h.notSeparator
  have hempty : text.isEmpty = false := List.isEmpty_eq_false_iff.2 hne
  rw [tokenTexts_eq, tokenTexts_eq, h.marks_append rest (.refl rest), List.map_append, hunmarked,
    cut_append_unmarked]
  cases rest with
  | nil => simp [Scan.marks, cut, hempty]
  | cons c rest =>
    have hc := hrest c rfl
    simp [Scan.marks, cutMark, step_separator hc, cut, hc, hempty]

theorem lastToken?_eq (h : Crosses text [] bare) (hne : text ≠ []) :
    lastToken? (String.ofList text) = some (String.ofList text) := by
  have htokens := h.tokenTexts_append hne nofun
  rw [List.append_nil] at htokens
  rw [lastToken?, tokens, String.toList_ofList, htokens]
  rfl

end Crosses

theorem tokenTexts_append_separators {sep : List Char} (h : ∀ c ∈ sep, isSeparator c = true)
    (rest : List Char) : tokenTexts (sep ++ rest) = tokenTexts rest := by
  induction sep with
  | nil => rfl
  | cons c sep ih =>
    have hc := h c List.mem_cons_self
    rw [← ih fun d hd => h d (List.mem_cons_of_mem c hd)]
    simp [tokenTexts_eq, Scan.marks, cutMark, step_separator hc, cut, hc]

/-- Nothing but the separators outside of spans and escapes is lost between tokens. -/
theorem flatten_tokenTexts (cs : List Char) :
    (tokenTexts cs).flatten =
      ((({} : Scan).marks cs).filter fun m => !(cutMark m).2).map Prod.fst := by
  rw [tokenTexts_eq, List.flatten_filter_not_isEmpty, flatten_cut, List.filter_map, List.map_map]
  rfl

/-! ## Bare compounds -/

/-- The sigil and the name of a test that the index minds. -/
def sigilOf? : Simple → Option (Char × String)
  | .id name => some ('#', name)
  | .className name => some ('.', name)
  | _ => none

/-- The text consists of the names of tests, each after its sigil; the names are from `whole`. -/
inductive SigilNames (whole : List Char) : List Char → List Simple → Prop
  | nil : SigilNames whole [] []
  | attr {bare : List Char} {tests : List Simple} {name : String} {what : AttrTest}
      (h : SigilNames whole bare tests) : SigilNames whole bare (.attr name what :: tests)
  | named {sigil : Char} {text name bare : List Char} {test : Simple} {tests : List Simple}
      (htest : sigilOf? test = some (sigil, String.ofList name)) (hne : text ≠ [])
      (hwhole : text <:+: whole) (hname : Spells Parser.isNameChar bare text name)
      (h : SigilNames whole bare tests) :
      SigilNames whole (sigil :: (text ++ bare)) (test :: tests)

/-- The text consists of the star or the tag of a compound and the names of its tests. -/
inductive BareCompound (whole : List Char) : List Char → Compound → Prop
  | universal {bare : List Char} {tests : List Simple} (h : SigilNames whole bare tests) :
      BareCompound whole ('*' :: bare) tests
  | tag {text name bare : List Char} {tests : List Simple} (hne : text ≠ [])
      (hwhole : text <:+: whole) (hname : Spells Parser.isNameChar bare text name)
      (h : SigilNames whole bare tests) :
      BareCompound whole (text ++ bare) (.tag (String.ofList name) :: tests)
  | absent {bare : List Char} {tests : List Simple} (h : SigilNames whole bare tests) :
      BareCompound whole bare tests

theorem sigilOf?_cases {test : Simple} {sigil : Char} {name : String}
    (h : sigilOf? test = some (sigil, name)) :
    sigil = '#' ∧ test = .id name ∨ sigil = '.' ∧ test = .className name := by
  cases test with
  | id n => cases h; exact .inl ⟨rfl, rfl⟩
  | className n => cases h; exact .inr ⟨rfl, rfl⟩
  | tag n => cases h
  | attr n w => cases h

theorem sigil_of_sigilOf? {test : Simple} {sigil : Char} {name : String}
    (h : sigilOf? test = some (sigil, name)) : sigil = '#' ∨ sigil = '.' := by
  rcases sigilOf?_cases h with ⟨h, -⟩ | ⟨h, -⟩
  · exact .inl h
  · exact .inr h

theorem SigilNames.head?_cases {whole bare : List Char} {tests : List Simple}
    (h : SigilNames whole bare tests) : ∀ c ∈ bare.head?, c = '#' ∨ c = '.' := by
  induction h with
  | nil => exact nofun
  | attr _ ih => exact ih
  | named htest =>
    intro c hc
    cases hc
    exact sigil_of_sigilOf? htest

theorem SigilNames.endsEscape {whole bare : List Char} {tests : List Simple}
    (h : SigilNames whole bare tests) : EndsEscape bare :=
  endsEscape_of_sigil h.head?_cases

/-! ## Compounds -/

/-- A test is an attribute test, which is enclosed, or a name after its sigil. -/
theorem exists_of_simple? {cs rest : List Char} {test : Simple}
    (h : Parser.simple? cs = .ok (some (test, rest))) :
    (∃ text, cs = text ++ rest ∧ (∃ name what, test = .attr name what) ∧
      Crosses text rest []) ∨
    ∃ sigil text name, cs = sigil :: (text ++ rest) ∧ text ≠ [] ∧
      sigilOf? test = some (sigil, String.ofList name) ∧
      Spells Parser.isNameChar rest text name := by
  unfold Parser.simple? at h
  split at h
  · obtain ⟨⟨n, mid⟩, hn, h⟩ := Parser.bind_eq_ok h
    cases h
    obtain ⟨text, name, rfl, hne, rfl, hs⟩ := exists_spells_of_name hn
    exact .inr ⟨'#', text, name, rfl, hne, rfl, hs⟩
  · obtain ⟨⟨n, mid⟩, hn, h⟩ := Parser.bind_eq_ok h
    cases h
    obtain ⟨text, name, rfl, hne, rfl, hs⟩ := exists_spells_of_name hn
    exact .inr ⟨'.', text, name, rfl, hne, rfl, hs⟩
  · rename_i cs
    obtain ⟨⟨test', mid⟩, ha, h⟩ := Parser.bind_eq_ok h
    cases h
    obtain ⟨hattr, hencloses⟩ := Scan.inBrackets_encloses_attr ha
    have hwhole : ({} : Scan).Encloses ('[' :: cs) {} rest := .cons rfl hencloses
    obtain ⟨text, heq, -⟩ := id hwhole
    rw [heq] at hwhole
    exact .inl ⟨text, heq, hattr, .of_encloses hwhole⟩
  · cases h
  · cases h

theorem crosses_named {sigil : Char} {test : Simple} {text name rest : List Char} {n : String}
    (htest : sigilOf? test = some (sigil, n)) (h : Spells Parser.isNameChar rest text name) :
    Crosses (sigil :: text) rest (sigil :: text) := by
  rcases sigilOf?_cases htest with ⟨rfl, -⟩ | ⟨rfl, -⟩
  · exact (Crosses.of_ordinary rfl rfl).append (.of_spells h)
  · exact (Crosses.of_ordinary rfl rfl).append (.of_spells h)

theorem exists_of_simples {whole cs rest : List Char} {tests : List Simple}
    (h : Parser.simples cs = .ok (tests, rest)) (hwhole : cs <:+: whole) :
    ∃ text bare, cs = text ++ rest ∧ Crosses text rest bare ∧ SigilNames whole bare tests := by
  fun_induction Parser.simples cs generalizing tests rest with
  | case1 => cases h
  | case2 => cases h; exact ⟨[], [], rfl, .nil _, .nil⟩
  | case3 cs test mid hs hlt tests' tail heq ih =>
    cases h
    rcases exists_of_simple? hs with ⟨text, rfl, ⟨name, what, rfl⟩, hcross⟩ |
      ⟨sigil, text, name, rfl, hne, htest, hspells⟩
    · have hsuffix : mid <:+ text ++ mid := List.suffix_append text mid
      obtain ⟨text', bare, rfl, hcross', hnames⟩ := ih heq (hsuffix.isInfix.trans hwhole)
      exact ⟨text ++ text', bare, by simp, hcross.append hcross', .attr hnames⟩
    · have hsuffix : mid <:+ sigil :: (text ++ mid) := ⟨sigil :: text, rfl⟩
      have htext : text <:+: sigil :: (text ++ mid) := ⟨[sigil], mid, rfl⟩
      obtain ⟨text', bare, rfl, hcross', hnames⟩ := ih heq (hsuffix.isInfix.trans hwhole)
      refine ⟨sigil :: (text ++ text'), sigil :: (text ++ bare), by simp,
        (crosses_named htest hspells).append hcross', ?_⟩
      -- spans between the name and the next sigil are gone, so the name has to be moved
      exact .named htest hne (htext.trans hwhole) (hspells.move (.inr hnames.endsEscape)) hnames
  | case4 => cases h

theorem length_lt_of_simples {cs rest : List Char} {tests : List Simple}
    (h : Parser.simples cs = .ok (tests, rest)) (hne : tests ≠ []) : rest.length < cs.length := by
  unfold Parser.simples at h
  split at h
  · cases h
  · cases h
    exact absurd rfl hne
  · rename_i hs
    split at h
    · rename_i heq
      cases h
      exact Nat.lt_of_le_of_lt (Parser.length_le_of_simples heq) (Parser.length_lt_of_simple? hs)
    · cases h

theorem exists_of_head {cs rest : List Char} {hd : Parser.Head}
    (h : Parser.head cs = .ok (hd, rest)) :
    hd = .universal ∧ cs = '*' :: rest ∨ hd = .absent ∧ cs = rest ∨
    ∃ text name, hd = .tag (String.ofList name) ∧ cs = text ++ rest ∧ text ≠ [] ∧
      Spells Parser.isNameChar rest text name := by
  unfold Parser.head at h
  split at h
  · cases h
    exact .inl ⟨rfl, rfl⟩
  · split at h
    · obtain ⟨⟨n, mid⟩, hn, h⟩ := Parser.bind_eq_ok h
      cases h
      obtain ⟨text, name, heq, hne, rfl, hs⟩ := exists_spells_of_name hn
      exact .inr (.inr ⟨text, name, rfl, heq, hne, hs⟩)
    · cases h
      exact .inr (.inl ⟨rfl, rfl⟩)
  · cases h
    exact .inr (.inl ⟨rfl, rfl⟩)

/-- A compound is crossed, and leaves its names. -/
theorem exists_of_compound {whole cs rest : List Char} {c : Compound}
    (h : Parser.compound cs = .ok (c, rest)) (hwhole : cs <:+: whole) :
    ∃ text bare, cs = text ++ rest ∧ text ≠ [] ∧ Crosses text rest bare ∧
      BareCompound whole bare c := by
  obtain ⟨⟨hd, mid⟩, hhead, h⟩ := Parser.bind_eq_ok h
  obtain ⟨⟨tests, tail⟩, hs, hc⟩ := Parser.bind_eq_ok h
  have hmid : mid <:+ cs := by
    rcases exists_of_head hhead with ⟨-, rfl⟩ | ⟨-, rfl⟩ | ⟨text, name, -, rfl, -⟩
    · exact List.suffix_cons _ _
    · exact List.suffix_rfl
    · exact List.suffix_append text mid
  obtain ⟨text', bare, htext', hcross, hnames⟩ := exists_of_simples hs (hmid.isInfix.trans hwhole)
  rcases exists_of_head hhead with ⟨rfl, rfl⟩ | ⟨rfl, rfl⟩ | ⟨text, name, rfl, rfl, hne, hspells⟩
  · cases hc
    subst htext'
    exact ⟨'*' :: text', '*' :: bare, rfl, List.cons_ne_nil _ _,
      (Crosses.of_ordinary rfl rfl).append hcross, .universal hnames⟩
  · cases tests with
    | nil => cases hc
    | cons test tests =>
      cases hc
      have hlt := length_lt_of_simples hs (List.cons_ne_nil _ _)
      refine ⟨text', bare, htext', fun hnil => ?_, hcross, .absent hnames⟩
      rw [htext', hnil] at hlt
      exact absurd hlt (Nat.lt_irrefl _)
  · cases hc
    subst htext'
    have hpart : text <:+: text ++ (text' ++ rest) := ⟨[], text' ++ rest, rfl⟩
    refine ⟨text ++ text', text ++ bare, by simp, by simp [hne],
      (Crosses.of_spells hspells).append hcross, ?_⟩
    exact .tag hne (hpart.trans hwhole) (hspells.move (.inr hnames.endsEscape)) hnames

end SelectorIndex.Selector
