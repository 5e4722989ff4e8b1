import SelectorIndex.Proofs.Selector.Reread

/-!
# Printed selectors are parsed back

No comma stands in a printed chain, and the scanner is back where it started after
each of its compounds, so a printed list has its chains for groups
(`groupTexts_print`). Hence a well-formed tree is what its printing is parsed to, and
as only well-formed trees come out of the parser, any accepted selector can be
printed anew without a change of meaning (`parse_print`).
-/

namespace SelectorIndex

open SelectorIndex.Text

namespace Selector

variable {text rest : List Char}

/-! ## Printed chains are groups -/

theorem marks_separators {sep : List Char} (h : ∀ c ∈ sep, isSeparator c = true)
    (rest : List Char) :
    ({} : Scan).marks (sep ++ rest) = sep.map (·, .plain) ++ ({} : Scan).marks rest := by
  induction sep with
  | nil => rfl
  | cons c sep ih =>
    rw [List.cons_append, Scan.marks, step_separator (h c List.mem_cons_self),
      ih fun d hd => h d (List.mem_cons_of_mem c hd)]
    rfl

theorem Combinator.isSeparator_of_mem_print {k : Combinator} {c : Char} (h : c ∈ k.print) :
    isSeparator c = true := by
  have hall : k.print.all isSeparator = true := by cases k <;> decide
  exact List.all_eq_true.1 hall c h

theorem exists_crosses_print {c : Compound} (hc : c.WellFormed)
    (hrest : Parser.EndsCompound rest) : ∃ bare, Crosses (Compound.print c) rest bare := by
  have hread := Parser.compound_of_shown hc (.refl _ rest) hrest
  obtain ⟨text, bare, heq, -, hcross, -⟩ := exists_of_compound hread List.infix_rfl
  rw [List.append_cancel_right heq]
  exact ⟨bare, hcross⟩

theorem exists_marks_print {c : Chain} (hc : c.WellFormed) (hrest : Parser.EndsCompound rest) :
    ∃ ms, ({} : Scan).marks (c.print ++ rest) = ms ++ ({} : Scan).marks rest ∧
      ms.map Prod.fst = c.print := by
  induction c generalizing rest with
  | one c =>
    obtain ⟨bare, hcross⟩ := exists_crosses_print (Chain.wellFormed_one.1 hc) hrest
    exact ⟨_, hcross.marks_append rest (.refl rest), Scan.map_fst_marks {} _⟩
  | step left k c ih =>
    obtain ⟨hleft, hcomp⟩ := Chain.wellFormed_step.1 hc
    obtain ⟨bare, hcross⟩ := exists_crosses_print hcomp hrest
    have hms := hcross.marks_append rest (.refl rest)
    obtain ⟨ms', hms', htext'⟩ :=
      ih hleft (Parser.endsCompound_print k (Compound.print c ++ rest))
    refine ⟨ms' ++ (k.print.map (·, .plain) ++ ({} : Scan).marks (Compound.print c)), ?_, ?_⟩
    · rw [Chain.print, List.append_assoc, List.append_assoc, hms',
        marks_separators fun d hd => Combinator.isSeparator_of_mem_print hd, hms]
      simp
    · rw [Chain.print, List.map_append, List.map_append, htext', Scan.map_fst_marks,
        List.map_map]
      simp [Function.comp_def]

theorem map_mark_of_notMem {ms : List (Char × Position)} (h : ',' ∉ ms.map Prod.fst) :
    (ms.map fun m => (m.1, m.2 == .plain && m.1 == ',')) =
      (ms.map Prod.fst).map (·, false) := by
  rw [List.map_map]
  apply List.map_congr_left
  intro m hm
  have hne : m.1 ≠ ',' := fun heq => h (heq ▸ List.mem_map_of_mem hm)
  simp [hne]

theorem groupTexts_of_notMem (hcomma : ',' ∉ text) (hne : trim text ≠ []) :
    groupTexts text = [trim text] := by
  have hpieces : ({} : Scan).pieces (· == ',') text = [text] := by
    have hmarks : ',' ∉ (({} : Scan).marks text).map Prod.fst := by rwa [Scan.map_fst_marks]
    rw [Scan.pieces, map_mark_of_notMem hmarks, Scan.map_fst_marks,
      ← List.append_nil (text.map (·, false)), cut_append_unmarked]
    simp [cut]
  rw [groupTexts, hpieces, List.map_singleton, List.filter_cons_of_pos (by simp [hne])]
  rfl

theorem groupTexts_append_comma {ms : List (Char × Position)}
    (hms : ({} : Scan).marks (text ++ ',' :: rest) = ms ++ ({} : Scan).marks (',' :: rest))
    (htext : ms.map Prod.fst = text) (hcomma : ',' ∉ text) (hne : trim text ≠ []) :
    groupTexts (text ++ ',' :: rest) = trim text :: groupTexts rest := by
  have hstep : ({} : Scan).step ',' = ({}, .plain) := by decide
  have hpieces : ({} : Scan).pieces (· == ',') (text ++ ',' :: rest) =
      text :: ({} : Scan).pieces (· == ',') rest := by
    rw [Scan.pieces, hms, List.map_append, map_mark_of_notMem (htext ▸ hcomma), htext,
      cut_append_unmarked, Scan.marks, hstep]
    simp [cut, Scan.pieces]
  rw [groupTexts, hpieces, List.map_cons, List.filter_cons_of_pos (by simp [hne])]
  rfl

theorem Chain.trim_print {c : Chain} (hc : c.WellFormed) :
    trim c.print = trimEnd c.print ∧ trim c.print ≠ [] := by
  obtain ⟨d, hd, hblank⟩ := Chain.head?_print hc
  have htrim : trim c.print = trimEnd c.print := by
    apply trim_eq_trimEnd
    intro e he
    rw [hd] at he
    cases he
    exact hblank
  refine ⟨htrim, ?_⟩
  rw [htrim]
  exact trimEnd_ne_nil (List.mem_of_mem_head? hd) hblank

theorem groupTexts_print {cs : List Chain} (h : ∀ c ∈ cs, c.WellFormed) :
    groupTexts (print cs).toList = cs.map fun c => trimEnd c.print := by
  induction cs with
  | nil =>
    rw [print, List.map_nil, String.intercalate_nil]
    decide
  | cons c cs ih =>
    obtain ⟨hc, hcs⟩ := List.forall_mem_cons.1 h
    obtain ⟨htrim, hne⟩ := Chain.trim_print hc
    have hcomma := Chain.comma_notMem_print hc
    cases cs with
    | nil =>
      rw [print, List.map_singleton, String.intercalate_singleton, String.toList_ofList,
        groupTexts_of_notMem hcomma hne, htrim]
      rfl
    | cons d ds =>
      have hends : Parser.EndsCompound (',' :: ' ' :: (print (d :: ds)).toList) := by
        intro e he
        cases he
        decide
      obtain ⟨ms, hms, htext⟩ := exists_marks_print hc hends
      have hprint : (print (c :: d :: ds)).toList =
          c.print ++ ',' :: ' ' :: (print (d :: ds)).toList := by
        rw [print, List.map_cons, List.map_cons, intercalate_cons, String.toList_ofList]
        rfl
      rw [hprint, groupTexts_append_comma hms htext hcomma hne, groupTexts_cons_space, ih hcs,
        htrim]
      rfl

/-! ## The round trip -/

theorem mapM_eq_ok_of_forall {α β γ : Type} {f : α → Except γ β} {g : β → α} {bs : List β}
    (h : ∀ b ∈ bs, f (g b) = .ok b) : (bs.map g).mapM f = .ok bs := by
  induction bs with
  | nil => rfl
  | cons b bs ih =>
    obtain ⟨hb, hbs⟩ := List.forall_mem_cons.1 h
    rw [List.map_cons, List.mapM_cons, hb, ih hbs]
    rfl

theorem parse_print_of_wellFormed {cs : List Chain} (h : WellFormed cs) :
    parse (print cs) = .ok cs := by
  have hgroups := groupTexts_print h.chains
  have hne : groupTexts (print cs).toList ≠ [] := by
    rw [hgroups, ne_eq, List.map_eq_nil_iff]
    exact h.ne_nil
  rw [parse_eq, if_neg hne, hgroups]
  exact mapM_eq_ok_of_forall fun c hc => Parser.chain_trimEnd_print (h.chains c hc)

/-- Every well-formed tree is read back from its printing. Every selector that can be read has a
well-formed tree, and the printing of that tree means the same on every document. -/
theorem parse_print :
    (∀ cs : List Chain, WellFormed cs → parse (print cs) = .ok cs) ∧
    ∀ (selector : String) (cs : List Chain), parse selector = .ok cs →
      WellFormed cs ∧ ∀ (doc : Document) (e : Nat),
        doc.host.test e (print cs) = doc.host.test e selector ∧
        doc.host.select e (print cs) = doc.host.select e selector := by
  refine ⟨fun cs => parse_print_of_wellFormed, fun selector cs h => ?_⟩
  have hwf := wellFormed_of_parse h
  have hprint := parse_print_of_wellFormed hwf
  refine ⟨hwf, fun doc e => ⟨?_, ?_⟩⟩
  · rw [Document.test_host_of_parse doc e hprint, Document.test_host_of_parse doc e h]
  · simp only [Document.host, parseOrFail, h, hprint]
    rfl

/-- Two groups whose names and values have to be escaped, the second of them with a compound that
has no test. -/
def sampleTree : List Chain :=
  [.step (.one [.tag "é+", .id "1 > "]) .child [.attr "b" (.includes "],")],
    .step (.one []) .descendant [.className "\u0000"]]

theorem parse_print_sample :
    WellFormed sampleTree ∧ parse (print sampleTree) = .ok sampleTree ∧
    parse "p#a>[b='],'], *" = .ok [.step (.one [.tag "p", .id "a"]) .child
      [.attr "b" (.equals "],")], .one []] ∧
    ∀ (doc : Document) (e : Nat),
      doc.host.test e (print [.step (.one [.tag "p", .id "a"]) .child
        [.attr "b" (.equals "],")], .one []]) = doc.host.test e "p#a>[b='],'], *" := by
  have htree : WellFormed sampleTree := by decide +kernel
  have hparse : parse "p#a>[b='],'], *" = .ok [.step (.one [.tag "p", .id "a"]) .child
      [.attr "b" (.equals "],")], .one []] := by decide +kernel
  obtain ⟨hread, haccepted⟩ := parse_print
  exact ⟨htree, hread _ htree, hparse, fun doc e => ((haccepted _ _ hparse).2 doc e).1⟩

end Selector

end SelectorIndex
