import SelectorIndex.Proofs.Agreement
import SelectorIndex.Proofs.RoundTrip

/-!
# Names in escapes

A name of escapes alone is regular, so the scanner, the classifiers and the grammar
read it alike. After a number sign or a dot it asks for the id or the class, and a
set with such a rule finds exactly the elements that have it. A tag cannot be asked
for in this way: the classifier of tags reads the name, but no compound of the
grammar starts with an escape. So a set with such a rule fails on exactly the
elements that its classifier leads to the rule (`escaped_names`).
-/

namespace SelectorIndex

open SelectorIndex.Text

namespace Selector

/-! ## Escaped names are regular -/

theorem regular_encode (name : List Char) : Regular (Escape.encode name) where
  noVerticalTab := Escape.notMem_encode (by decide) (by decide) (by decide) (by decide) name
  noWideBlank c hc hwide := absurd (Escape.toNat_lt_of_mem_encode hc) (Nat.not_lt.2 hwide)
  isNameChar c hc hwide := absurd (Escape.toNat_lt_of_mem_encode hc) (Nat.not_lt.2 hwide)
  noEscape c hc := by
    simp only [List.mem_cons, List.not_mem_nil, or_false] at hc
    apply Escape.escape_notInfix_encode
    · rcases hc with rfl | rfl | rfl <;> decide
    · rcases hc with rfl | rfl | rfl <;> decide

theorem Regular.cons_sigil {cs : List Char} (h : Regular cs) {sigil : Char}
    (hsigil : sigil = '#' ∨ sigil = '.') : Regular (sigil :: cs) := by
  have hlt : sigil.toNat < 0x80 := by rcases hsigil with rfl | rfl <;> decide
  refine ⟨?_, fun c hc hwide => ?_, fun c hc hwide => ?_, fun c hc hinf => ?_⟩
  · rw [List.mem_cons, not_or]
    refine ⟨?_, h.noVerticalTab⟩
    rcases hsigil with rfl | rfl <;> decide
  · rcases List.mem_cons.1 hc with rfl | hc
    · exact absurd hlt (Nat.not_lt.2 hwide)
    · exact h.noWideBlank c hc hwide
  · rcases List.mem_cons.1 hc with rfl | hc
    · exact absurd hlt (Nat.not_lt.2 hwide)
    · exact h.isNameChar c hc hwide
  · rcases List.infix_cons_iff.1 hinf with hprefix | hinf
    · have hslash := (List.cons_prefix_cons.1 hprefix).1
      rcases hsigil with rfl | rfl <;> cases hslash
    · exact h.noEscape c hc hinf

/-! ## Reading escaped names -/

def escapedName (name : String) : String := String.ofList (printName name)

/-- After its sigil, an escaped name is what is printed for the name. -/
theorem print_named {test : Simple} {sigil : Char} {name : String}
    (h : sigilOf? test = some (sigil, name)) :
    print [.one [test]] = String.singleton sigil ++ escapedName name := by
  rw [← String.toList_inj, String.toList_append, String.toList_singleton, escapedName,
    String.toList_ofList, print, List.map_singleton, String.intercalate_singleton,
    String.toList_ofList]
  rcases sigilOf?_cases h with ⟨rfl, rfl⟩ | ⟨rfl, rfl⟩
  · exact List.append_nil _
  · exact List.append_nil _

theorem parse_named {test : Simple} {sigil : Char} {name : String}
    (h : sigilOf? test = some (sigil, name)) (hne : name ≠ "") :
    parse (String.singleton sigil ++ escapedName name) = .ok [.one [test]] := by
  have hwf : WellFormed [.one [test]] := by
    refine ⟨List.cons_ne_nil _ _, ?_⟩
    rw [List.forall_mem_singleton, Chain.wellFormed_one]
    apply Parser.wellFormed_of_forall
    rw [List.forall_mem_singleton]
    rcases sigilOf?_cases h with ⟨-, rfl⟩ | ⟨-, rfl⟩
    · exact ⟨rfl, hne⟩
    · exact ⟨rfl, hne⟩
  rw [← print_named h]
  exact parse_print_of_wellFormed hwf

theorem regular_named {sigil : Char} (hsigil : sigil = '#' ∨ sigil = '.') (name : String) :
    Regular (String.singleton sigil ++ escapedName name).toList := by
  rw [String.toList_append, String.toList_singleton, escapedName, String.toList_ofList]
  exact (regular_encode name.toList).cons_sigil hsigil

theorem groupTexts_escapedName {name : String} (hne : name ≠ "") :
    groupTexts (escapedName name).toList = [trimEnd (printName name)] := by
  have hhead := head?_printName hne
  have htrim : trim (printName name) = trimEnd (printName name) := by
    apply trim_eq_trimEnd
    intro c hc
    cases hhead.symm.trans hc
    rfl
  have hnil : trimEnd (printName name) ≠ [] := trimEnd_ne_nil (List.mem_of_mem_head? hhead) rfl
  have hcomma : ',' ∉ printName name := comma_notMem_encode name.toList
  rw [escapedName, String.toList_ofList, groupTexts_of_notMem hcomma (htrim ▸ hnil), htrim]

theorem parse_escapedName {name : String} (hne : name ≠ "") :
    parse (escapedName name) = .error .missingCompound := by
  obtain ⟨cs, hcs⟩ := List.head?_eq_some_iff.1 (head?_trimEnd (head?_printName hne) rfl)
  have hchain : Parser.chain ('\\' :: cs) = .error .missingCompound :=
    Parser.chain_eq_missingCompound (by decide) (by decide)
  rw [parse_eq, groupTexts_escapedName hne, if_neg (List.cons_ne_nil _ _), hcs, List.mapM_cons,
    hchain]
  rfl

/-! ## Filing names -/

section Filing

variable {text name : List Char}

theorem lastToken?_of_spells (h : Spells Parser.isNameChar [] text name) (hne : text ≠ []) :
    lastToken? (String.ofList text) = some (String.ofList text) ∧
      bareToken (String.ofList text) = String.ofList text := by
  have hcross : Crosses text [] text := .of_spells h
  refine ⟨hcross.lastToken?_eq hne, ?_⟩
  rw [bareToken, String.toList_ofList, hcross.bareText_eq]

theorem ofToken?_of_spells (h : Spells Parser.isNameChar [] text name) (hreg : Regular text)
    (hne : text ≠ []) :
    Placement.ofToken? (Classifier.builtin ++ [Classifier.universal]) (String.ofList text) =
      some ⟨2, Classifier.upperName (String.ofList name)⟩ := by
  have hnone (sigil : Char) (hsigil : sigil = '#' ∨ sigil = '.') :
      nameAfter? sigil text = none :=
    nameAfter?_eq_none_iff.2 (hreg.legible.not_hasNameAfter h hsigil)
  have hid : Classifier.byId.tokenKey? (String.ofList text) = none := by
    simp only [Classifier.byId, String.toList_ofList, hnone '#' (.inl rfl), Option.map_none]
  have hclass : Classifier.byClass.tokenKey? (String.ofList text) = none := by
    simp only [Classifier.byClass, String.toList_ofList, hnone '.' (.inr rfl), Option.map_none]
  have htag : Classifier.byTag.tokenKey? (String.ofList text) =
      some (Classifier.upperName (String.ofList name)) := by
    have hintact : Intact text :=
      h.intact hreg.legible.isNameChar (hreg.legible.notEscaped _ (by simp))
    have hspan := (h.nameSpan_eq_iff endsName_nil).2 hintact
    rw [List.append_nil] at hspan
    simp only [Classifier.byTag, String.toList_ofList, leadingName?_of_nameSpan_nil hspan hne,
      Option.map_some, decodedName_of_spells h]
  simp only [Classifier.builtin, List.cons_append, Placement.ofToken?, hid, hclass, htag,
    Option.map_some]

end Filing

theorem slots_escapedName {name : String} (hne : name ≠ "") :
    Placement.slots (Classifier.builtin ++ [Classifier.universal]) (escapedName name) =
      [⟨2, Classifier.upperName name⟩] := by
  have hspells : Spells Parser.isNameChar [] (trimEnd (printName name)) name.toList :=
    (Shown.trimmed _).spells
  have hreg : Regular (trimEnd (printName name)) :=
    (regular_encode name.toList).of_isInfix (trimEnd_isPrefix _).isInfix
  have hnil : trimEnd (printName name) ≠ [] :=
    trimEnd_ne_nil (List.mem_of_mem_head? (head?_printName hne)) rfl
  obtain ⟨hlast, hbare⟩ := lastToken?_of_spells hspells hnil
  have hgroup : Placement.ofGroup? (Classifier.builtin ++ [Classifier.universal])
      (String.ofList (trimEnd (printName name))) = some ⟨2, Classifier.upperName name⟩ := by
    rw [Placement.ofGroup?, hlast, Option.bind_some, hbare, ofToken?_of_spells hspells hreg hnil,
      String.ofList_toList]
  have hgroups : groups (escapedName name) =
      [⟨String.ofList (trimEnd (printName name)), true⟩] := by
    rw [groups, groupTexts_escapedName hne]
    rfl
  rw [Placement.slots, Placement.ofSelector, hgroups, List.filterMap_cons, hgroup]
  rfl

end Selector

/-! ## A set with one rule -/

namespace RuleSet

open Selector

variable {δ : Type}

def single (selector : String) (data : δ) : RuleSet δ := (empty.add selector data).2

theorem wellFiled_single (selector : String) (data : δ) : WellFiled (single selector data) :=
  (wellFiled_withClassifiers Classifier.builtin).add selector data

theorem classifiers_single (selector : String) (data : δ) :
    (single selector data).classifiers = Classifier.builtin ++ [Classifier.universal] := by
  rw [single, classifiers_add, empty, classifiers_withClassifiers]

theorem toList_single (selector : String) (data : δ) :
    (single selector data).toList = [⟨0, selector, data⟩] := by
  have hempty : WellFiled (empty : RuleSet δ) := wellFiled_withClassifiers Classifier.builtin
  have hnone : (empty : RuleSet δ).placed = [] := by simp [placed, empty, withClassifiers]
  rw [toList, single, hempty.placed_add, hnone]
  rfl

/-- A regular selector that can be read is found for exactly the elements that match it. -/
theorem matching_single_of_regular {selector : String} (hread : IsReadable selector)
    (hreg : Regular selector.toList) (data : δ) (doc : Document) (e : Nat) :
    ((single selector data).matching doc.host e).result =
      .ok (if doc.host.accepts e selector then [⟨0, selector, data⟩] else []) := by
  have hanswers : ∀ r ∈ (single selector data).filed, doc.host.Answers e r.selector := by
    intro r hr
    have hmem := ((wellFiled_single selector data).mem_filed.1 hr).1
    rw [toList_single, List.mem_singleton] at hmem
    rw [hmem]
    exact Document.answers_host_iff.2 hread
  have hhit : isHit (Classifier.builtin ++ [Classifier.universal]) doc.host e
      (⟨0, selector, data⟩ : Rule δ) = doc.host.accepts e selector :=
    isHit_of_regular (r := ⟨0, selector, data⟩) (fun c hc => List.mem_append_left _ hc) hread hreg e
  rw [(wellFiled_single selector data).result_matching doc.host e hanswers, toList_single,
    classifiers_single, List.filter_cons, hhit]
  rfl

/-- A selector that cannot be read is asked about for the elements that its slots lead to. -/
theorem matching_single_of_error {selector : String} {cause : ParseError}
    (h : parse selector = .error cause) (data : δ) (doc : Document) (e : Nat) :
    ((single selector data).matching doc.host e).result =
      if isCandidate (Classifier.builtin ++ [Classifier.universal]) (doc.facets e) selector then
        .error (.invalidSelector selector cause.message)
      else .ok [] := by
  have htest := Document.test_host_of_error doc e h
  have hfacets : doc.host.facets e = doc.facets e := rfl
  rw [matching_eq_testEach (wellFiled_single selector data), toList_single, classifiers_single,
    hfacets, List.filter_cons, List.filter_nil]
  cases isCandidate (Classifier.builtin ++ [Classifier.universal]) (doc.facets e) selector with
  | false => rfl
  | true =>
    rw [if_pos rfl, if_pos rfl, testEach]
    exact congrArg Consult.result (Consult.bind_of_error htest _)

end RuleSet

/-! ## Positions of an escaped name -/

namespace Document

open Selector RuleSet

variable {δ : Type} {doc : Document} {e : Nat} {name : String}

/-- After its sigil, an escaped name asks for what its test asks, and a set finds it there. -/
theorem named_single {test : Simple} {sigil : Char} (h : sigilOf? test = some (sigil, name))
    (hne : name ≠ "") (doc : Document) (e : Nat) (data : δ) :
    let selector := String.singleton sigil ++ escapedName name
    doc.host.test e selector = .ok (doc.satisfiesSimple e test) ∧
    ((single selector data).matching doc.host e).result =
      .ok (if doc.satisfiesSimple e test then [⟨0, selector, data⟩] else []) := by
  intro selector
  have hparse : parse selector = .ok [.one [test]] := parse_named h hne
  have hsigil : sigil = '#' ∨ sigil = '.' := sigil_of_sigilOf? h
  have htest : doc.host.test e selector = .ok (doc.satisfiesSimple e test) := by
    rw [test_host_of_parse doc e hparse]
    simp [matchesAny, matchesChain, satisfies]
  refine ⟨htest, ?_⟩
  rw [matching_single_of_regular (isReadable_iff.2 ⟨_, hparse⟩) (regular_named hsigil name),
    Host.accepts_of_test htest]

/-- At the front, an escaped name is no tag, but the classifier of tags takes it for one. -/
theorem escapedName_single (hne : name ≠ "") (doc : Document) (e : Nat) (data : δ) :
    let failure := Failure.invalidSelector (escapedName name) ParseError.missingCompound.message
    doc.host.test e (escapedName name) = .error failure ∧
    ((single (escapedName name) data).matching doc.host e).result =
      if Classifier.upperName (doc.tag e) = Classifier.upperName name then .error failure
      else .ok [] := by
  intro failure
  have hparse := parse_escapedName hne
  refine ⟨test_host_of_error doc e hparse, ?_⟩
  have hcandidate : isCandidate (Classifier.builtin ++ [Classifier.universal]) (doc.facets e)
      (escapedName name) = true ↔
      Classifier.upperName (doc.tag e) = Classifier.upperName name := by
    rw [isCandidate, slots_escapedName hne]
    simp [Placement.visited, Classifier.builtin, Classifier.byTag, facets, eq_comm]
  rw [matching_single_of_error hparse]
  simp only [hcandidate]
  rfl

/-- A name in escapes is read after a number sign or a dot, as an id or a class, and a set with
such a rule finds exactly the elements that have it. As a tag it is never read, and a set with
such a rule fails on the elements with that tag. -/
theorem escaped_names (hne : name ≠ "") (doc : Document) (e : Nat) (data : δ) :
    let found (selector : String) := ((empty.add selector data).2.matching doc.host e).result
    let id := "#" ++ escapedName name
    let className := "." ++ escapedName name
    let tag := escapedName name
    let failure := Failure.invalidSelector tag "expected a compound selector"
    (doc.host.test e id = .ok (doc.id? e == some name) ∧
      found id = .ok (if doc.id? e = some name then [⟨0, id, data⟩] else [])) ∧
    (doc.host.test e className = .ok ((doc.classes e).contains name) ∧
      found className = .ok (if name ∈ doc.classes e then [⟨0, className, data⟩] else [])) ∧
    (doc.host.test e tag = .error failure ∧
      found tag = if Classifier.upperName (doc.tag e) = Classifier.upperName name then
        .error failure else .ok []) := by
  intro found id className tag failure
  have hid : sigilOf? (.id name) = some ('#', name) := rfl
  have hclass : sigilOf? (.className name) = some ('.', name) := rfl
  obtain ⟨hidTest, hidFound⟩ := named_single hid hne doc e data
  obtain ⟨hclassTest, hclassFound⟩ := named_single hclass hne doc e data
  simp only [satisfiesSimple, beq_iff_eq] at hidFound
  simp only [satisfiesSimple, List.contains_iff_mem] at hclassFound
  exact ⟨⟨hidTest, hidFound⟩, ⟨hclassTest, hclassFound⟩, escapedName_single hne doc e data⟩

/-- An element with one name for its tag, its id and one of its classes. -/
def namesake : Document := .ofNode { tag := "A", id? := some "a", class? := some "b a" }

theorem escaped_names_namesake :
    "a" ≠ "" ∧
    namesake.host.test 0 "#\\61 " = .ok true ∧
    (((empty : RuleSet Nat).add "#\\61 " 7).2.matching namesake.host 0).result =
      .ok [⟨0, "#\\61 ", 7⟩] ∧
    namesake.host.test 0 ".\\61 " = .ok true ∧
    (((empty : RuleSet Nat).add ".\\61 " 7).2.matching namesake.host 0).result =
      .ok [⟨0, ".\\61 ", 7⟩] ∧
    (((empty : RuleSet Nat).add "\\61 " 7).2.matching namesake.host 0).result =
      .error (.invalidSelector "\\61 " "expected a compound selector") := by
  have hne : "a" ≠ "" := by decide
  have hname : escapedName "a" = "\\61 " := by decide +kernel
  have hid : namesake.id? 0 = some "a" := by decide +kernel
  have hclass : "a" ∈ namesake.classes 0 := by decide +kernel
  have htag : Classifier.upperName (namesake.tag 0) = Classifier.upperName "a" := by
    decide +kernel
  obtain ⟨⟨hidTest, hidFound⟩, ⟨hclassTest, hclassFound⟩, -, htagFound⟩ :=
    escaped_names hne namesake 0 7
  rw [hname] at hidTest hidFound hclassTest hclassFound htagFound
  rw [hid] at hidTest hidFound
  rw [List.contains_iff_mem.2 hclass] at hclassTest
  rw [if_pos rfl] at hidFound
  rw [if_pos hclass] at hclassFound
  rw [if_pos htag] at htagFound
  exact ⟨hne, hidTest, hidFound, hclassTest, hclassFound, htagFound⟩

/-- The one element has the tag that is escaped, and is not found for it. -/
theorem escaped_tag_unread :
    escapedName "a" = "\\61 " ∧ sameTag (namesake.tag 0) "a" = true ∧
    namesake.host.test 0 "\\61 " ≠ .ok true ∧
    (((empty : RuleSet Nat).add "\\61 " 7).2.matching namesake.host 0).result ≠
      .ok [⟨0, "\\61 ", 7⟩] := by
  have hname : escapedName "a" = "\\61 " := by decide +kernel
  have htag : sameTag (namesake.tag 0) "a" = true := by decide +kernel
  have htest : namesake.host.test 0 "\\61 " ≠ .ok true := by decide +kernel
  have hfound : (((empty : RuleSet Nat).add "\\61 " 7).2.matching namesake.host 0).result ≠
      .ok [⟨0, "\\61 ", 7⟩] := by decide +kernel
  exact ⟨hname, htag, htest, hfound⟩

end Document

end SelectorIndex
