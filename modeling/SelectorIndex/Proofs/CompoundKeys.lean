import SelectorIndex.Proofs.Keys

/-!
# Where compounds are filed

A compound ought to be filed under its first id, or else its first class, or
else its tag, as the grammar reads them (`Compound.slot`). The index searches
the bare text of the compound for sigils without regard for the grammar. It finds
these if the name to file under comes first (`Compound.StandsOut`,
`classify_of_compound`): elsewhere sigils may be escaped at will.
-/

namespace SelectorIndex

open SelectorIndex.Text Selector

namespace Selector

/-- The index and the key that the tests of a compound ask for. -/
def Compound.slot (c : Compound) : String × String :=
  match c.findSome? Simple.id?, c.findSome? Simple.className?, c.findSome? Simple.tag? with
  | some id, _, _ => ("id", id)
  | none, some className, _ => ("class", className)
  | none, none, some tag => ("tag", Classifier.upperName tag)
  | none, none, none => ("universal", "*")

/-- The name that a compound is to be filed under is the first that the index comes upon, and no
line feed is escaped in it. -/
structure Compound.StandsOut (c : Compound) (bare : List Char) : Prop where
  id : StandsFirst '#' bare
  className : c.findSome? Simple.id? = none → StandsFirst '.' bare
  tag : c.findSome? Simple.id? = none → c.findSome? Simple.className? = none →
    ¬ Escapes (upTo isSigil bare) '\n'

instance (c : Compound) (bare : List Char) : Decidable (c.StandsOut bare) :=
  decidable_of_iff (StandsFirst '#' bare ∧ (c.findSome? Simple.id? = none → StandsFirst '.' bare) ∧
      (c.findSome? Simple.id? = none → c.findSome? Simple.className? = none →
        ¬ Escapes (upTo isSigil bare) '\n'))
    ⟨fun ⟨hid, hclass, htag⟩ => ⟨hid, hclass, htag⟩, fun h => ⟨h.id, h.className, h.tag⟩⟩

theorem mem_of_mem_bareText {cs : List Char} {c : Char} (h : c ∈ bareText cs) : c ∈ cs := by
  have hsub : (bareText cs).Sublist ((({} : Scan).marks cs).map Prod.fst) :=
    List.filter_sublist.map Prod.fst
  rw [Scan.map_fst_marks] at hsub
  exact hsub.subset h

theorem gap_of_mem_head?_segments (cs : List Char) :
    ∀ s ∈ (Parser.segments cs).head?, s.gap = [] := by
  intro s hs
  unfold Parser.segments at hs
  split at hs
  · cases hs
    rfl
  · cases hs

/-- A group that is one compound is one token, which consists of the names of the compound. -/
theorem lastToken?_of_compound {cs text : List Char} (htext : text ∈ groupTexts cs) {c : Compound}
    (h : Parser.chain text = .ok (.one c)) :
    lastToken? (String.ofList text) = some (String.ofList text) ∧ IsTokenOf text text c := by
  obtain ⟨heq, hreads⟩ := reads_of_mem_groupTexts htext h
  have hgap := gap_of_mem_head?_segments text
  generalize Parser.segments text = segments at heq hreads hgap
  cases hreads with
  | @cons s _ _ _ _ _ hread hrest =>
    cases hrest
    rw [Segment.join_cons, hgap s rfl] at heq
    have htext : s.text = text := by
      rw [heq]
      exact (List.append_nil _).symm
    rw [htext] at hread
    have hwhole : text ++ (Segment.join [] ++ []) <:+: text := by simp [Segment.join]
    obtain ⟨hne, htoken, hcross⟩ := crosses_of_compound hread hwhole
    exact ⟨hcross.lastToken?_eq hne, htoken⟩

end Selector

namespace Placement

theorem ofToken?_of_compound {whole bare : List Char} {c : Compound}
    (h : BareCompound whole bare c) (hshared : SharesAlphabet bare) (hout : c.StandsOut bare) :
    ∃ slot, ofToken? (Classifier.builtin ++ [Classifier.universal]) (String.ofList bare) =
        some slot ∧
      (((Classifier.builtin ++ [Classifier.universal])[slot.index]?).elim "" Classifier.name,
        slot.key) = c.slot := by
  have hid := Classifier.byId_tokenKey? h hshared hout.id
  have hclass := fun h₁ => Classifier.byClass_tokenKey? h hshared (hout.className h₁)
  have htag := fun h₁ h₂ => Classifier.byTag_tokenKey? h hshared (hout.tag h₁ h₂)
  simp only [Classifier.builtin, List.cons_append, List.nil_append, ofToken?, hid, Compound.slot]
  cases h₁ : c.findSome? Simple.id? with
  | some id => exact ⟨_, rfl, rfl⟩
  | none =>
    simp only [hclass h₁]
    cases h₂ : c.findSome? Simple.className? with
    | some className => exact ⟨_, rfl, rfl⟩
    | none =>
      simp only [htag h₁ h₂]
      cases c.findSome? Simple.tag? with
      | some tag => exact ⟨_, rfl, rfl⟩
      | none => exact ⟨_, rfl, rfl⟩

end Placement

namespace RuleSet

variable {δ : Type}

/-- An ASCII selector that is one compound is filed where its tests ask for, unless a name after an
escaped sigil comes first, or an escaped line feed cuts the name. -/
theorem classify_of_compound {selector : String} (hascii : ∀ d ∈ selector.toList, d.toNat < 0x80)
    {c : Compound} (h : parse selector = .ok [.one c])
    (hout : ∀ g ∈ groups selector, c.StandsOut (bareText g.text.toList)) :
    ∃ g, groups selector = [g] ∧
      (empty : RuleSet δ).classify selector = [⟨g.text, c.slot.1, c.slot.2⟩] := by
  obtain ⟨g, gs, hchain, hrest, hgroups⟩ := List.forall₂_cons_right_iff.1 (forall₂_of_parse h)
  cases hrest
  have hg : g ∈ groups selector := hgroups ▸ List.mem_cons_self
  have htext := mem_groupTexts_of_mem_groups hg
  obtain ⟨hlast, htoken⟩ := lastToken?_of_compound htext hchain
  rw [String.ofList_toList] at hlast
  have hshared : SharesAlphabet (bareText g.text.toList) := by
    intro d hd hname
    have hmem := (isInfix_of_mem_groupTexts htext).subset (mem_of_mem_bareText hd)
    rwa [isNameChar_ascii (hascii d hmem)]
  obtain ⟨slot, hslot, hkey⟩ := Placement.ofToken?_of_compound htoken hshared (hout g hg)
  have hplaced : Placement.ofGroup? (Classifier.builtin ++ [Classifier.universal]) g.text =
      some slot := by
    rw [Placement.ofGroup?, hlast, Option.bind_some, bareToken, hslot]
  refine ⟨g, hgroups, ?_⟩
  rw [classify, empty, classifiers_withClassifiers, Placement.ofSelector, hgroups,
    List.filterMap_cons, hplaced, ← hkey]
  rfl

/-- Escapes of digits, of letters and of sigils, and sigils within an attribute test. -/
theorem classify_of_compound_escapes :
    (∀ d ∈ " p\\#.\\31 0[x='#no.\\#']#b\\#\\e9 .c\\.d ".toList, d.toNat < 0x80) ∧
    parse " p\\#.\\31 0[x='#no.\\#']#b\\#\\e9 .c\\.d " = .ok [.one [.tag "p#", .className "10",
      .attr "x" (.equals "#no.#"), .id "b#é", .className "c.d"]] ∧
    (empty : RuleSet Nat).classify " p\\#.\\31 0[x='#no.\\#']#b\\#\\e9 .c\\.d " =
      [⟨"p\\#.\\31 0[x='#no.\\#']#b\\#\\e9 .c\\.d", "id", "b#é"⟩] := by
  have hascii : ∀ d ∈ " p\\#.\\31 0[x='#no.\\#']#b\\#\\e9 .c\\.d ".toList, d.toNat < 0x80 := by
    rw [← List.forall_iff_forall_mem]
    decide
  have hparse : parse " p\\#.\\31 0[x='#no.\\#']#b\\#\\e9 .c\\.d " = .ok [.one [.tag "p#",
      .className "10", .attr "x" (.equals "#no.#"), .id "b#é", .className "c.d"]] := by
    decide +kernel
  have hgroups : groups " p\\#.\\31 0[x='#no.\\#']#b\\#\\e9 .c\\.d " =
      [⟨"p\\#.\\31 0[x='#no.\\#']#b\\#\\e9 .c\\.d", true⟩] := by decide +kernel
  have hout : ∀ g ∈ groups " p\\#.\\31 0[x='#no.\\#']#b\\#\\e9 .c\\.d ",
      Compound.StandsOut [.tag "p#", .className "10", .attr "x" (.equals "#no.#"), .id "b#é",
        .className "c.d"] (bareText g.text.toList) := by
    rw [hgroups, List.forall_mem_singleton]
    decide +kernel
  obtain ⟨g, hg, hclassify⟩ := classify_of_compound (δ := Nat) hascii hparse hout
  rw [hgroups] at hg
  cases hg
  have hslot : Compound.slot [.tag "p#", .className "10", .attr "x" (.equals "#no.#"),
      .id "b#é", .className "c.d"] = ("id", "b#é") := rfl
  rw [hslot] at hclassify
  exact ⟨hascii, hparse, hclassify⟩

-- An escaped sigil is no matter unless the index is to look for one of its kind further on.
example : Compound.StandsOut [.id "a.b"] "#a\\.b".toList ∧
    Compound.StandsOut [.className "a.b"] ".a\\.b".toList ∧
    ¬ Compound.StandsOut [.tag "a.b"] "a\\.b".toList := by
  decide +kernel

/-- An escaped sigil within a name is taken for the start of another, and a name ends before an
escaped line feed: no key is the one that the compound asks for. -/
theorem classify_escaped_sigil :
    parse ".a\\#b" = .ok [.one [.className "a#b"]] ∧
    Compound.slot [.className "a#b"] = ("class", "a#b") ∧
    (empty : RuleSet Nat).classify ".a\\#b" = [⟨".a\\#b", "id", "b"⟩] ∧
    parse "a\\.b" = .ok [.one [.tag "a.b"]] ∧
    Compound.slot [.tag "a.b"] = ("tag", "A.B") ∧
    (empty : RuleSet Nat).classify "a\\.b" = [⟨"a\\.b", "class", "b"⟩] ∧
    parse "#a\\\nb" = .ok [.one [.id "a\nb"]] ∧
    Compound.slot [.id "a\nb"] = ("id", "a\nb") ∧
    (empty : RuleSet Nat).classify "#a\\\nb" = [⟨"#a\\\nb", "id", "a"⟩] := by
  decide +kernel

end RuleSet

end SelectorIndex
