import SelectorIndex.Proofs.Candidates
import SelectorIndex.Proofs.Documents
import SelectorIndex.Proofs.Selector.FirstNames
import SelectorIndex.Proofs.Selector.Segments

/-!
# Keys of matching elements

A rule is found only under the key that a classifier reads off its text. Of a
legible text, each built-in classifier reads the name of the first test of its
kind in the compound (`BareCompound.nameAfter?_eq`, `BareCompound.leadingName?_eq`),
so an element that satisfies the compound has the key (`mem_elementKeys`), and a
rule with a regular selector is a candidate for every element that matches it
(`isCandidate_of_hasChain`).
-/

namespace SelectorIndex

open SelectorIndex.Text

namespace Selector

variable {whole bare : List Char} {tests : List Simple} {c : Compound}

/-! ## Names in bare compounds -/

def Simple.id? : Simple → Option String
  | id name => some name
  | _ => none

def Simple.className? : Simple → Option String
  | className name => some name
  | _ => none

def Simple.tag? : Simple → Option String
  | tag name => some name
  | _ => none

/-- The name that a test asks for after this sigil. -/
def nameOf? (sigil : Char) (test : Simple) : Option String :=
  (sigilOf? test).bind fun (s, name) => if s = sigil then some name else none

theorem nameOf?_number : nameOf? '#' = Simple.id? := by
  funext test
  cases test <;> rfl

theorem nameOf?_dot : nameOf? '.' = Simple.className? := by
  funext test
  cases test <;> rfl

theorem decodedName_of_spells {p : Char → Bool} {rest text name : List Char}
    (h : Spells p rest text name) : Classifier.decodedName text = String.ofList name := by
  rw [Classifier.decodedName, (h.move (.inr endsEscape_nil)).decode_eq]

namespace SigilNames

theorem endsName (h : SigilNames whole bare tests) : EndsName bare :=
  endsName_of_sigil h.head?_cases

theorem legible (h : SigilNames whole bare tests) (hreg : Regular whole) : Legible bare := by
  induction h with
  | nil => exact (hreg.of_isInfix List.nil_infix).legible
  | attr _ ih => exact ih
  | @named sigil text name bare test tests htest _ hwhole hname hrest ih =>
    have hsigil := sigil_of_sigilOf? htest
    have htext : Legible (text ++ bare) := (hreg.of_isInfix hwhole).legible.append ih hname
    refine htext.cons (isOrdinary_of_sigil hsigil) ?_
    rcases hsigil with rfl | rfl <;> decide

theorem standsFirst (h : SigilNames whole bare tests) (hleg : Legible bare) {sigil : Char}
    (hsigil : sigil = '#' ∨ sigil = '.') : StandsFirst sigil bare := by
  induction h with
  | nil => exact standsFirst_nil sigil
  | attr _ ih => exact ih hleg
  | @named sigil' text name bare test tests htest _ _ hname hrest ih =>
    have hsigil' := sigil_of_sigilOf? htest
    have hleg' := hleg.of_cons (isOrdinary_of_sigil hsigil')
    by_cases hs : sigil' = sigil
    · subst hs
      exact (standsFirst_sigil_iff hsigil hname hrest.head?_cases).2
        (hleg'.of_append_right.notEscaped _ (by simp))
    · exact (standsFirst_cons_iff (isOrdinary_of_sigil hsigil') hs).2
        ((standsFirst_append_iff hsigil hname hrest.head?_cases).2
          ⟨hleg'.of_append_right.not_hasNameAfter hname hsigil, ih (hleg'.of_append_left hname)⟩)

/-- What the index reads after a sigil is the name of the first test with that sigil. -/
theorem nameAfter?_eq (h : SigilNames whole bare tests) (hshared : SharesAlphabet bare)
    {sigil : Char} (hsigil : sigil = '#' ∨ sigil = '.') (hfirst : StandsFirst sigil bare) :
    (nameAfter? sigil bare).map Classifier.decodedName = tests.findSome? (nameOf? sigil) := by
  induction h with
  | nil => rfl
  | attr _ ih => exact ih hshared hfirst
  | @named sigil' text name bare test tests htest hne _ hname hrest ih =>
    by_cases hs : sigil' = sigil
    · subst hs
      have hline := (standsFirst_sigil_iff hsigil hname hrest.head?_cases).1 hfirst
      have hintact := hname.intact hshared.of_cons.of_append_right hline
      have hspan := (hname.nameSpan_eq_iff hrest.endsName).2 hintact
      have hfound : nameOf? sigil' test = some (String.ofList name) := by
        simp only [nameOf?, htest, Option.bind_some, if_true]
      rw [nameAfter?_of_nameSpan hspan hne, Option.map_some, decodedName_of_spells hname,
        List.findSome?_cons, hfound]
    · have hsigil' := sigil_of_sigilOf? htest
      have hother : nameOf? sigil test = none := by
        simp only [nameOf?, htest, Option.bind_some, hs, if_false]
      rw [standsFirst_cons_iff (isOrdinary_of_sigil hsigil') hs,
        standsFirst_append_iff hsigil hname hrest.head?_cases] at hfirst
      rw [nameAfter?, if_neg hs, hname.nameAfter?_append hsigil hrest.endsName,
        nameAfter?_eq_none_iff.2 hfirst.1, Option.none_or,
        ih hshared.of_cons.of_append_left hfirst.2, List.findSome?_cons, hother]

theorem findSome?_tag (h : SigilNames whole bare tests) : tests.findSome? Simple.tag? = none := by
  induction h with
  | nil => rfl
  | attr _ ih => exact ih
  | named htest _ _ _ _ ih => rcases sigilOf?_cases htest with ⟨-, rfl⟩ | ⟨-, rfl⟩ <;> exact ih

end SigilNames

namespace BareCompound

theorem legible (h : BareCompound whole bare c) (hreg : Regular whole) : Legible bare := by
  cases h with
  | universal h => exact (h.legible hreg).cons rfl rfl
  | tag _ hwhole hname h =>
    exact (hreg.of_isInfix hwhole).legible.append (h.legible hreg) hname
  | absent h => exact h.legible hreg

theorem standsFirst (h : BareCompound whole bare c) (hleg : Legible bare) {sigil : Char}
    (hsigil : sigil = '#' ∨ sigil = '.') : StandsFirst sigil bare := by
  cases h with
  | universal h =>
    have hstar : '*' ≠ sigil := by rcases hsigil with rfl | rfl <;> decide
    exact (standsFirst_cons_iff rfl hstar).2 (h.standsFirst (hleg.of_cons rfl) hsigil)
  | tag _ _ hname h =>
    exact (standsFirst_append_iff hsigil hname h.head?_cases).2
      ⟨hleg.of_append_right.not_hasNameAfter hname hsigil,
        h.standsFirst (hleg.of_append_left hname) hsigil⟩
  | absent h => exact h.standsFirst hleg hsigil

theorem not_escapes_upTo (h : BareCompound whole bare c) (hleg : Legible bare) :
    ¬ Escapes (upTo isSigil bare) '\n' := by
  cases h with
  | universal h =>
    rw [upTo_cons rfl, if_neg (by decide), upTo_isSigil_eq_nil h.head?_cases]
    decide
  | tag _ _ hname h =>
    rw [hname.upTo_append fun _ => isNameChar_of_isSigil, upTo_isSigil_eq_nil h.head?_cases,
      List.append_nil]
    exact hleg.of_append_right.notEscaped _ (by simp)
  | absent h =>
    rw [upTo_isSigil_eq_nil h.head?_cases]
    decide

/-- What the index reads after a sigil is the name of the first test with that sigil. -/
theorem nameAfter?_eq (h : BareCompound whole bare c) (hshared : SharesAlphabet bare)
    {sigil : Char} (hsigil : sigil = '#' ∨ sigil = '.') (hfirst : StandsFirst sigil bare) :
    (nameAfter? sigil bare).map Classifier.decodedName = c.findSome? (nameOf? sigil) := by
  cases h with
  | universal h =>
    have hstar : '*' ≠ sigil := by rcases hsigil with rfl | rfl <;> decide
    rw [nameAfter?, if_neg hstar, h.nameAfter?_eq hshared.of_cons hsigil
      ((standsFirst_cons_iff rfl hstar).1 hfirst)]
  | tag _ _ hname h =>
    rw [standsFirst_append_iff hsigil hname h.head?_cases] at hfirst
    rw [hname.nameAfter?_append hsigil h.endsName, nameAfter?_eq_none_iff.2 hfirst.1,
      Option.none_or, h.nameAfter?_eq hshared.of_append_left hsigil hfirst.2]
    rfl
  | absent h => exact h.nameAfter?_eq hshared hsigil hfirst

-- The index minds an escaped sigil, the grammar does not: no other name may come first.
example : nameAfter? '#' "p\\#b#c".toList = some ['b'] := by decide +kernel

/-- What the index reads at the front is the tag. -/
theorem leadingName?_eq (h : BareCompound whole bare c) (hshared : SharesAlphabet bare)
    (hline : ¬ Escapes (upTo isSigil bare) '\n') :
    (leadingName? bare).map Classifier.decodedName = c.findSome? Simple.tag? := by
  cases h with
  | @universal bare _ h =>
    have hends : EndsName ('*' :: bare) := fun d hd => by cases hd; decide
    rw [hends.leadingName?_eq, h.findSome?_tag]
    rfl
  | @tag text name bare tests hne _ hname h =>
    have hbar : bare.head? ≠ some '|' := fun hbar => by
      rcases h.head?_cases _ hbar with h | h <;> cases h
    rw [hname.upTo_append fun _ => isNameChar_of_isSigil, upTo_isSigil_eq_nil h.head?_cases,
      List.append_nil] at hline
    have hintact := hname.intact hshared.of_append_right hline
    have hspan := (hname.nameSpan_eq_iff h.endsName).2 hintact
    rw [leadingName?_of_nameSpan hspan hne hbar, Option.map_some, decodedName_of_spells hname]
    rfl
  | absent h =>
    rw [h.endsName.leadingName?_eq, h.findSome?_tag]
    rfl

end BareCompound

end Selector

/-! ## Keys of tokens -/

namespace Classifier

open Selector

variable {whole bare : List Char} {c : Compound}

theorem byId_tokenKey? (h : BareCompound whole bare c) (hshared : SharesAlphabet bare)
    (hfirst : StandsFirst '#' bare) :
    byId.tokenKey? (String.ofList bare) = c.findSome? Simple.id? := by
  simp only [byId, String.toList_ofList, h.nameAfter?_eq hshared (.inl rfl) hfirst, nameOf?_number]

theorem byClass_tokenKey? (h : BareCompound whole bare c) (hshared : SharesAlphabet bare)
    (hfirst : StandsFirst '.' bare) :
    byClass.tokenKey? (String.ofList bare) = c.findSome? Simple.className? := by
  simp only [byClass, String.toList_ofList, h.nameAfter?_eq hshared (.inr rfl) hfirst, nameOf?_dot]

theorem byTag_tokenKey? (h : BareCompound whole bare c) (hshared : SharesAlphabet bare)
    (hline : ¬ Escapes (upTo isSigil bare) '\n') :
    byTag.tokenKey? (String.ofList bare) = (c.findSome? Simple.tag?).map upperName := by
  rw [← h.leadingName?_eq hshared hline, Option.map_map]
  simp only [byTag, String.toList_ofList, Function.comp_def]

end Classifier

/-! ## Keys of elements -/

theorem upperChar_toLower (c : Char) : upperChar c.toLower = upperChar c := by
  by_cases hlt : c.toNat < 0x80
  · exact of_ascii (fun c => upperChar c.toLower = upperChar c) (by decide) hlt
  · have hbeyond : ¬ (c.val ≥ 'A'.val ∧ c.val ≤ 'Z'.val) := fun h =>
      hlt (Nat.lt_of_le_of_lt (UInt32.le_iff_toNat_le.1 h.2) (by decide))
    have hlower : c.toLower = c := dif_neg hbeyond
    rw [hlower]

theorem upperName_eq_of_sameTag {a b : String} (h : sameTag a b = true) :
    Classifier.upperName a = Classifier.upperName b := by
  have hupper (cs : List Char) : upper (cs.map Char.toLower) = upper cs := by
    simp only [upper, List.flatMap_map, upperChar_toLower]
  rw [Classifier.upperName, Classifier.upperName, ← hupper a.toList, ← hupper b.toList,
    beq_iff_eq.1 h]

theorem Selector.exists_of_findSome? {c : Compound} {f : Simple → Option String} {name : String}
    (h : c.findSome? f = some name) {doc : Document} {e : Nat} (hsat : doc.satisfies e c = true) :
    ∃ test, f test = some name ∧ doc.satisfiesSimple e test = true := by
  obtain ⟨test, hmem, htest⟩ := List.exists_of_findSome?_eq_some h
  exact ⟨test, htest, List.all_eq_true.1 hsat test hmem⟩

/-- The key that a built-in classifier reads off the text of a compound is one of each element
that satisfies the compound. -/
theorem Classifier.mem_elementKeys {classifier : Classifier}
    (hbuiltin : classifier ∈ builtin ++ [universal]) {whole bare : List Char}
    {c : Selector.Compound} (h : Selector.BareCompound whole bare c)
    (hleg : Selector.Legible bare) {doc : Document} {e : Nat} (hsat : doc.satisfies e c = true)
    {key : String} (hkey : classifier.tokenKey? (String.ofList bare) = some key) :
    key ∈ classifier.elementKeys (doc.facets e) := by
  simp only [builtin, List.cons_append, List.nil_append, List.mem_cons, List.not_mem_nil,
    or_false] at hbuiltin
  rcases hbuiltin with rfl | rfl | rfl | rfl
  · rw [byId_tokenKey? h hleg.isNameChar (h.standsFirst hleg (.inl rfl))] at hkey
    obtain ⟨test, htest, hsat⟩ := Selector.exists_of_findSome? hkey hsat
    cases test <;> cases htest
    exact Option.mem_toList.2 (beq_iff_eq.1 hsat)
  · rw [byClass_tokenKey? h hleg.isNameChar (h.standsFirst hleg (.inr rfl))] at hkey
    obtain ⟨test, htest, hsat⟩ := Selector.exists_of_findSome? hkey hsat
    cases test <;> cases htest
    exact List.contains_iff_mem.1 hsat
  · rw [byTag_tokenKey? h hleg.isNameChar (h.not_escapes_upTo hleg)] at hkey
    obtain ⟨tag, htag, rfl⟩ := Option.map_eq_some_iff.1 hkey
    obtain ⟨test, htest, hsat⟩ := Selector.exists_of_findSome? htag hsat
    cases test <;> cases htest
    exact List.mem_singleton.2 (upperName_eq_of_sameTag hsat).symm
  · cases hkey
    exact List.mem_singleton.2 rfl

/-! ## Candidates -/

namespace Selector

theorem isInfix_of_mem_groupTexts {cs text : List Char} (h : text ∈ groupTexts cs) :
    text <:+: cs := by
  obtain ⟨piece, hpiece, rfl⟩ := List.mem_map.1 (List.mem_of_mem_filter h)
  have hcut := isInfix_of_mem_cut hpiece
  rw [List.map_map] at hcut
  have hcs : (({} : Scan).marks cs).map (Prod.fst ∘ fun m => (m.1, m.2 == .plain && m.1 == ',')) =
      cs := Scan.map_fst_marks {} cs
  exact (trim_isInfix piece).trans (hcs ▸ hcut)

theorem Regular.hasNarrowBlanks {cs : List Char} (h : Regular cs) : HasNarrowBlanks cs :=
  fun _ hc => h.isAsciiBlank hc

theorem exists_getLast?_of_forall₂ {α β : Type} {R : α → β → Prop} {as : List α} {bs : List β}
    (h : List.Forall₂ R as bs) {b : β} (hb : b ∈ bs.getLast?) : ∃ a ∈ as.getLast?, R a b := by
  rw [← List.head?_reverse] at hb
  have hrev := List.forall₂_reverse_iff.2 h
  cases hbs : bs.reverse with
  | nil => rw [hbs] at hb; cases hb
  | cons b' bs' =>
    rw [hbs] at hb hrev
    cases hb
    cases has : as.reverse with
    | nil => rw [has] at hrev; cases hrev
    | cons a as' =>
      rw [has] at hrev
      refine ⟨a, ?_, (List.forall₂_cons.1 hrev).1⟩
      rw [← List.head?_reverse, has]
      rfl

theorem exists_lastToken? {text : List Char} {chain : Chain}
    (h : Parser.chain text = .ok chain) (hnarrow : HasNarrowBlanks text) {c : Compound}
    (hc : c ∈ chain.compounds.getLast?) :
    ∃ token, lastToken? (String.ofList text) = some (String.ofList token) ∧
      IsTokenOf text token c := by
  obtain ⟨token, htoken, hbare⟩ :=
    exists_getLast?_of_forall₂ (forall₂_tokenTexts_of_chain h hnarrow) hc
  refine ⟨token, ?_, hbare⟩
  rw [lastToken?, tokens, String.toList_ofList, List.getLast?_map, htoken]
  rfl

end Selector

theorem Document.exists_satisfies_of_matchesChain {doc : Document} {e : Nat}
    {chain : Selector.Chain} (h : doc.matchesChain chain e = true) :
    ∃ c ∈ chain.compounds.getLast?, doc.satisfies e c = true := by
  cases chain with
  | one c => exact ⟨c, rfl, h⟩
  | step left k c =>
    refine ⟨c, ?_, (Bool.and_eq_true_iff.1 h).1⟩
    rw [Selector.Chain.compounds, List.getLast?_append]
    rfl

theorem Placement.exists_ofToken? (classifiers : List Classifier) (token : String) :
    ∃ slot, ofToken? (classifiers ++ [Classifier.universal]) token = some slot := by
  induction classifiers with
  | nil => exact ⟨_, rfl⟩
  | cons c cs ih =>
    obtain ⟨slot, hslot⟩ := ih
    rw [List.cons_append, ofToken?]
    split
    · exact ⟨_, rfl⟩
    · rw [hslot]
      exact ⟨_, rfl⟩

/-- A rule with a regular selector is looked up by every element that matches it. -/
theorem RuleSet.isCandidate_of_hasChain {classifiers : List Classifier}
    (hbuiltin : ∀ c ∈ classifiers, c ∈ Classifier.builtin ++ [Classifier.universal])
    {doc : Document} {e : Nat} {selector : String} (hreg : Selector.Regular selector.toList)
    (h : Selector.HasChain selector fun c => doc.matchesChain c e = true) :
    isCandidate (classifiers ++ [Classifier.universal]) (doc.facets e) selector = true := by
  obtain ⟨text, htext, chain, hchain, hmatches⟩ := h
  have hregText := hreg.of_isInfix (Selector.isInfix_of_mem_groupTexts htext)
  obtain ⟨c, hc, hsat⟩ := Document.exists_satisfies_of_matchesChain hmatches
  obtain ⟨token, hlast, hbare⟩ :=
    Selector.exists_lastToken? hchain hregText.hasNarrowBlanks hc
  obtain ⟨slot, hslot⟩ := Placement.exists_ofToken? classifiers
    (Selector.bareToken (String.ofList token))
  obtain ⟨⟨classifier, hclassifier, hkey⟩, -⟩ := Placement.ofToken?_eq_some_iff.1 hslot
  have hgroup : String.ofList text ∈ (Selector.groups selector).map Selector.Group.text := by
    rw [Selector.map_text_groups]
    exact List.mem_map_of_mem htext
  obtain ⟨g, hg, hgtext⟩ := List.mem_map.1 hgroup
  have hmem : slot ∈ Placement.slots (classifiers ++ [Classifier.universal]) selector := by
    refine Placement.mem_slots.2 ⟨g, hg, ?_⟩
    rw [Placement.ofGroup?, hgtext, hlast]
    exact hslot
  refine List.any_eq_true.2 ⟨slot, hmem, Placement.visited_iff.2 ⟨classifier, hclassifier, ?_⟩⟩
  have hin : classifier ∈ Classifier.builtin ++ [Classifier.universal] := by
    rcases List.mem_append.1 (List.mem_of_getElem? hclassifier) with hin | hin
    · exact hbuiltin classifier hin
    · rw [List.mem_singleton.1 hin]
      simp
  rw [Selector.bareToken, String.toList_ofList] at hkey
  exact Classifier.mem_elementKeys hin hbare (hbare.legible hregText) hsat hkey

end SelectorIndex
