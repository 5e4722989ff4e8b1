import SelectorIndex.Proofs.Documents
import SelectorIndex.Proofs.Selector.Tokens

/-!
# Segments of a chain

The grammar reads a chain compound by compound. `Parser.segments` keeps the text
of each compound, and the gap of blanks and a combinator in front of it. The
scanner marks every part as it would alone (`Reads.marks_append`), so it finds
the texts of the compounds as tokens if no blank in a gap is wider than a
separator, and only then (`Reads.tokenTexts_eq_iff`). For the last token alone
it is the last character in front of it that counts
(`Reads.getLast?_tokenTexts_eq_iff`).
-/

namespace SelectorIndex.Selector

open SelectorIndex.Text

/-! ## Gaps -/

/-- A character that the grammar skips between two compounds. -/
def isGapChar (c : Char) : Bool := c == '>' || c == '+' || c == '~' || isBlank c

/-- Every blank of the text separates compounds. -/
def HasNarrowBlanks (cs : List Char) : Prop := ∀ c ∈ cs, isBlank c = true → isAsciiBlank c = true

/-- Of the characters in a gap, the scanner only minds the blanks that are wider than its own. -/
theorem isSeparator_iff {c : Char} (h : isGapChar c = true) :
    isSeparator c = true ↔ (isBlank c = true → isAsciiBlank c = true) := by
  rw [isGapChar, Bool.or_eq_true] at h
  rw [isSeparator, Bool.or_eq_true]
  constructor
  · rintro (hsymbol | hnarrow) hblank
    · simp only [Bool.or_eq_true, beq_iff_eq] at hsymbol
      rcases hsymbol with (rfl | rfl) | rfl <;> cases hblank
    · exact hnarrow
  · intro hnarrow
    exact h.imp_right hnarrow

theorem hasNarrowBlanks_iff {gap : List Char} (h : ∀ c ∈ gap, isGapChar c = true) :
    HasNarrowBlanks gap ↔ ∀ c ∈ gap, isSeparator c = true :=
  forall₂_congr fun c hc => (isSeparator_iff (h c hc)).symm

theorem marks_gap {gap : List Char} (h : ∀ c ∈ gap, isGapChar c = true) (rest : List Char) :
    ({} : Scan).marks (gap ++ rest) = gap.map (·, .plain) ++ ({} : Scan).marks rest := by
  induction gap with
  | nil => rfl
  | cons c gap ih =>
    obtain ⟨hc, hgap⟩ := List.forall_mem_cons.1 h
    have hstep : ({} : Scan).step c = ({}, .plain) :=
      Scan.step_ordinary rfl rfl (Scan.isOrdinary_of_all (by decide) hc)
    rw [List.cons_append, Scan.marks, hstep, ih hgap]
    rfl

theorem exists_skipBlanks (cs : List Char) :
    ∃ blanks, cs = blanks ++ Parser.skipBlanks cs ∧ ∀ c ∈ blanks, isBlank c = true :=
  ⟨cs.takeWhile isBlank, List.takeWhile_append_dropWhile.symm,
    List.all_eq_true.1 List.all_takeWhile⟩

theorem exists_of_combinator? {cs rest : List Char} {k : Combinator}
    (h : Parser.combinator? cs = .ok (some (k, rest))) :
    ∃ gap, cs = gap ++ rest ∧ gap ≠ [] ∧ ∀ c ∈ gap, isGapChar c = true := by
  obtain ⟨blanks, hcs, hblanks⟩ := exists_skipBlanks cs
  have hgap : ∀ c ∈ blanks, isGapChar c = true := fun c hc => by
    rw [isGapChar, hblanks c hc, Bool.or_true]
  have hsymbol {symbol : Char} {tail : List Char} (hskip : Parser.skipBlanks cs = symbol :: tail)
      (hsymbol : isGapChar symbol = true) :
      ∃ gap, cs = gap ++ Parser.skipBlanks tail ∧ gap ≠ [] ∧ ∀ c ∈ gap, isGapChar c = true := by
    obtain ⟨blanks', htail, hblanks'⟩ := exists_skipBlanks tail
    rw [hskip, htail] at hcs
    refine ⟨blanks ++ symbol :: blanks', by rw [hcs]; simp, by simp, fun c hc => ?_⟩
    rcases List.mem_append.1 hc with hc | hc
    · exact hgap c hc
    · rcases List.mem_cons.1 hc with rfl | hc
      · exact hsymbol
      · rw [isGapChar, hblanks' c hc, Bool.or_true]
  have hlt := Parser.length_lt_of_combinator? h
  unfold Parser.combinator? at h
  split at h
  · cases h
  · rename_i heq
    cases h
    exact hsymbol heq rfl
  · rename_i heq
    cases h
    exact hsymbol heq rfl
  · rename_i heq
    cases h
    exact hsymbol heq rfl
  · rename_i heq
    split at h
    · cases h
      rw [heq] at hcs
      refine ⟨blanks, hcs, fun hnil => ?_, hgap⟩
      rw [hcs, hnil] at hlt
      exact absurd hlt (Nat.lt_irrefl _)
    · split at h <;> cases h

theorem skipBlanks_of_combinator?_none {cs : List Char} (h : Parser.combinator? cs = .ok none) :
    Parser.skipBlanks cs = [] := by
  unfold Parser.combinator? at h
  split at h
  · assumption
  · cases h
  · cases h
  · cases h
  · split at h
    · cases h
    · split at h <;> cases h

/-! ## Segments -/

/-- A compound in the text of its chain. -/
structure Segment where
  /-- The blanks and the combinator in front of it. -/
  gap : List Char
  /-- What it is read from. -/
  text : List Char
  deriving DecidableEq, Repr

namespace Segment

def join (segments : List Segment) : List Char := segments.flatMap fun s => s.gap ++ s.text

def marks (s : Segment) : List (Char × Position) :=
  s.gap.map (·, .plain) ++ ({} : Scan).marks s.text

theorem join_cons (s : Segment) (segments : List Segment) :
    join (s :: segments) = s.gap ++ (s.text ++ join segments) := by
  rw [join, List.flatMap_cons, List.append_assoc, join]

end Segment

namespace Parser

/-- What a reader has taken off the front of a text to leave `rest`. -/
def taken (cs rest : List Char) : List Char := cs.take (cs.length - rest.length)

@[simp] theorem taken_append (text rest : List Char) : taken (text ++ rest) rest = text := by
  simp [taken]

/-- The compounds after the first one of a chain. -/
def segmentsFrom (cs : List Char) : List Segment :=
  match h : combinator? cs with
  | .ok (some (_, rest)) =>
    match hc : compound rest with
    | .ok (_, tail) =>
      have := length_lt_of_combinator? h
      have := length_le_of_compound hc
      ⟨taken cs rest, taken rest tail⟩ :: segmentsFrom tail
    | .error _ => []
  | .ok none => []
  | .error _ => []
termination_by cs.length

/-- The compounds of a chain where the grammar reads them. -/
def segments (cs : List Char) : List Segment :=
  match compound cs with
  | .ok (_, rest) => ⟨[], taken cs rest⟩ :: segmentsFrom rest
  | .error _ => []

end Parser

/-- The grammar reads the compounds off the segments, one after the other, up to `trail`. -/
inductive Reads (trail : List Char) : List Segment → List Compound → Prop
  | nil : Reads trail [] []
  | cons {s : Segment} {segments : List Segment} {c : Compound} {cs : List Compound}
      (hgap : ∀ d ∈ s.gap, isGapChar d = true) (hnext : ∀ t ∈ segments, t.gap ≠ [])
      (hread : Parser.compound (s.text ++ (Segment.join segments ++ trail)) =
        .ok (c, Segment.join segments ++ trail))
      (h : Reads trail segments cs) : Reads trail (s :: segments) (c :: cs)

theorem reads_of_chainFrom {left c : Chain} {cs : List Char}
    (h : Parser.chainFrom left cs = .ok c) :
    ∃ compounds trail, c.compounds = left.compounds ++ compounds ∧
      cs = Segment.join (Parser.segmentsFrom cs) ++ trail ∧ (∀ d ∈ trail, isBlank d = true) ∧
      (∀ s ∈ Parser.segmentsFrom cs, s.gap ≠ []) ∧
      Reads trail (Parser.segmentsFrom cs) compounds := by
  fun_induction Parser.chainFrom left cs with
  | case1 => cases h
  | case2 left cs hnone =>
    cases h
    obtain ⟨blanks, hcs, hblanks⟩ := exists_skipBlanks cs
    rw [skipBlanks_of_combinator?_none hnone, List.append_nil] at hcs
    subst hcs
    have hsegments : Parser.segmentsFrom cs = [] := by
      unfold Parser.segmentsFrom
      split
      · rename_i heq
        rw [hnone] at heq
        cases heq
      · rfl
      · rfl
    rw [hsegments]
    exact ⟨[], cs, by simp, rfl, hblanks, nofun, .nil⟩
  | case3 left cs k rest hsome comp tail hcomp _ _ ih =>
    obtain ⟨compounds, trail, hc, htail, htrail, hgaps, hreads⟩ := ih h
    obtain ⟨gap, rfl, hne, hgap⟩ := exists_of_combinator? hsome
    obtain ⟨text, bare, rfl, -⟩ := exists_of_compound hcomp List.infix_rfl
    have hsegments : Parser.segmentsFrom (gap ++ (text ++ tail)) =
        ⟨gap, text⟩ :: Parser.segmentsFrom tail := by
      rw [Parser.segmentsFrom]
      split
      · rename_i heq
        rw [hsome] at heq
        cases heq
        split
        · rename_i heq
          rw [hcomp] at heq
          cases heq
          rw [Parser.taken_append, Parser.taken_append]
        · rename_i heq
          rw [hcomp] at heq
          cases heq
      · rename_i heq
        rw [hsome] at heq
        cases heq
      · rename_i heq
        rw [hsome] at heq
        cases heq
    rw [hsegments]
    refine ⟨comp :: compounds, trail, ?_, ?_, htrail, ?_, .cons hgap hgaps ?_ hreads⟩
    · rw [hc, Chain.compounds, List.append_assoc, List.singleton_append]
    · rw [Segment.join_cons, List.append_assoc, List.append_assoc, ← htail]
    · exact List.forall_mem_cons.2 ⟨hne, hgaps⟩
    · rw [← htail]
      exact hcomp
  | case4 => cases h

/-- A chain is its segments and blanks. -/
theorem reads_of_chain {cs : List Char} {c : Chain} (h : Parser.chain cs = .ok c) :
    ∃ trail, cs = Segment.join (Parser.segments cs) ++ trail ∧ (∀ d ∈ trail, isBlank d = true) ∧
      Reads trail (Parser.segments cs) c.compounds := by
  obtain ⟨⟨comp, rest⟩, hcomp, hchain⟩ := Parser.bind_eq_ok h
  obtain ⟨text, bare, rfl, -⟩ := exists_of_compound hcomp List.infix_rfl
  obtain ⟨compounds, trail, hc, hrest, htrail, hgaps, hreads⟩ := reads_of_chainFrom hchain
  have hsegments : Parser.segments (text ++ rest) = ⟨[], text⟩ :: Parser.segmentsFrom rest := by
    rw [Parser.segments, hcomp]
    simp
  rw [hsegments, hc]
  refine ⟨trail, ?_, htrail, .cons nofun hgaps ?_ hreads⟩
  · rw [Segment.join_cons, List.nil_append, List.append_assoc, ← hrest]
  · rw [← hrest]
    exact hcomp

/-! ## Segments and tokens -/

/-- The token, made bare, consists of the names of the compound. -/
def IsTokenOf (whole token : List Char) (c : Compound) : Prop :=
  BareCompound whole (bareText token) c

theorem crosses_of_compound {whole text rest : List Char} {c : Compound}
    (h : Parser.compound (text ++ rest) = .ok (c, rest)) (hwhole : text ++ rest <:+: whole) :
    text ≠ [] ∧ IsTokenOf whole text c ∧ Crosses text rest (bareText text) := by
  obtain ⟨text', bare, heq, hne, hcross, hbare⟩ := exists_of_compound h hwhole
  obtain rfl := List.append_cancel_right heq
  obtain rfl := hcross.bareText_eq
  exact ⟨hne, hbare, hcross⟩

namespace Reads

variable {trail : List Char} {segments : List Segment} {cs : List Compound}

theorem isGapChar (h : Reads trail segments cs) :
    ∀ s ∈ segments, ∀ c ∈ s.gap, Selector.isGapChar c = true := by
  induction h with
  | nil => exact nofun
  | cons hgap _ _ _ ih => exact List.forall_mem_cons.2 ⟨hgap, ih⟩

theorem text_ne_nil (h : Reads trail segments cs) : ∀ s ∈ segments, s.text ≠ [] := by
  induction h with
  | nil => exact nofun
  | cons _ _ hread _ ih =>
    exact List.forall_mem_cons.2 ⟨(crosses_of_compound hread List.infix_rfl).1, ih⟩

/-- No separator of the scanner stands in a compound. -/
theorem notSeparator (h : Reads trail segments cs) :
    ∀ s ∈ segments, ∀ m ∈ ({} : Scan).marks s.text, m.2 = .plain → isSeparator m.1 = false := by
  induction h with
  | nil => exact nofun
  | cons _ _ hread _ ih =>
    exact List.forall_mem_cons.2
      ⟨(crosses_of_compound hread List.infix_rfl).2.2.notSeparator, ih⟩

theorem forall₂_compound (h : Reads trail segments cs) :
    List.Forall₂ (fun s c => ∃ rest, Parser.compound (s.text ++ rest) = .ok (c, rest))
      segments cs := by
  induction h with
  | nil => exact .nil
  | cons _ _ hread _ ih => exact .cons ⟨_, hread⟩ ih

theorem forall₂_isTokenOf {whole : List Char} (h : Reads trail segments cs)
    (hwhole : Segment.join segments ++ trail <:+: whole) :
    List.Forall₂ (IsTokenOf whole) (segments.map Segment.text) cs := by
  induction h with
  | nil => exact .nil
  | @cons s segments c cs _ _ hread _ ih =>
    rw [Segment.join_cons, List.append_assoc, List.append_assoc] at hwhole
    have htext := (List.suffix_append s.gap _).isInfix.trans hwhole
    have hrest := (List.suffix_append s.text _).isInfix.trans htext
    exact .cons (crosses_of_compound hread htext).2.1 (ih hrest)

/-- Every segment is marked as it would be alone, and so is what follows the chain. -/
theorem marks_append (h : Reads trail segments cs) {rest : List Char} (hr : StandsFor rest trail) :
    ({} : Scan).marks (Segment.join segments ++ rest) =
      segments.flatMap Segment.marks ++ ({} : Scan).marks rest := by
  induction h with
  | nil => rfl
  | @cons s segments c cs hgap _ hread _ ih =>
    obtain ⟨-, -, hcross⟩ := crosses_of_compound hread List.infix_rfl
    rw [Segment.join_cons, List.append_assoc, List.append_assoc, marks_gap hgap,
      hcross.marks_append _ (hr.append (Segment.join segments)), ih, List.flatMap_cons,
      Segment.marks, List.append_assoc, List.append_assoc]

theorem tokenTexts_eq (h : Reads trail segments cs)
    (hsep : ∀ s ∈ segments, ∀ c ∈ s.gap, isSeparator c = true)
    (htrail : ∀ c ∈ trail, isSeparator c = true) :
    tokenTexts (Segment.join segments ++ trail) = segments.map Segment.text := by
  induction h with
  | nil =>
    have := tokenTexts_append_separators htrail []
    rwa [List.append_nil] at this
  | @cons s segments c cs _ hnext hread _ ih =>
    obtain ⟨hgap, hsep⟩ := List.forall_mem_cons.1 hsep
    obtain ⟨hne, -, hcross⟩ := crosses_of_compound hread List.infix_rfl
    have hhead : ∀ d ∈ (Segment.join segments ++ trail).head?, isSeparator d = true := by
      intro d hd
      cases segments with
      | nil => exact htrail d (List.mem_of_mem_head? hd)
      | cons t segments =>
        obtain ⟨e, gap, hcons⟩ := List.exists_cons_of_ne_nil (hnext t List.mem_cons_self)
        rw [Segment.join_cons, hcons] at hd
        cases hd
        exact hsep t List.mem_cons_self d (hcons ▸ List.mem_cons_self)
    rw [Segment.join_cons, List.append_assoc, List.append_assoc,
      tokenTexts_append_separators hgap, hcross.tokenTexts_append hne hhead, ih hsep]
    rfl

end Reads

theorem forall₂_tokenTexts_of_chain {cs : List Char} {c : Chain} (h : Parser.chain cs = .ok c)
    (hnarrow : HasNarrowBlanks cs) :
    List.Forall₂ (IsTokenOf cs) (tokenTexts cs) c.compounds := by
  obtain ⟨trail, hcs, htrail, hreads⟩ := reads_of_chain h
  generalize Parser.segments cs = segments at hcs hreads
  subst hcs
  have htokens := hreads.tokenTexts_eq
    (fun s hs c hc => (isSeparator_iff (hreads.isGapChar s hs c hc)).2 (hnarrow c ?_))
    (fun c hc => ?_)
  · rw [htokens]
    exact hreads.forall₂_isTokenOf List.infix_rfl
  · refine List.mem_append_left _ (List.mem_flatMap.2 ⟨s, hs, List.mem_append_left _ hc⟩)
  · rw [isSeparator, hnarrow c (List.mem_append_right _ hc) (htrail c hc), Bool.or_true]

/-! ## Tokens that are not compounds -/

/-- Of a gap, only the separators are lost; of a compound, nothing. -/
theorem Segment.countP_marks {s : Segment}
    (h : ∀ m ∈ ({} : Scan).marks s.text, m.2 = .plain → isSeparator m.1 = false) :
    s.marks.countP (fun m => !(cutMark m).2) =
      s.gap.countP (!isSeparator ·) + s.text.length := by
  have htext : (({} : Scan).marks s.text).countP (fun m => !(cutMark m).2) =
      (({} : Scan).marks s.text).length := by
    refine List.countP_eq_length.2 fun m hm => ?_
    rw [Bool.not_eq_true', cutMark, Bool.and_eq_false_imp]
    exact fun hplain => h m hm (beq_iff_eq.1 hplain)
  rw [Segment.marks, List.countP_append, List.countP_map, htext,
    ← List.length_map (f := Prod.fst), Scan.map_fst_marks]
  rfl

theorem getLast?_tokenTexts {cs run text : List Char} (runs : List (List Char))
    (h : cut ((({} : Scan).marks cs).map cutMark) = runs ++ [run ++ text]) (hne : text ≠ []) :
    (tokenTexts cs).getLast? = some (run ++ text) := by
  have hempty : (run ++ text).isEmpty = false := by simp [hne]
  rw [tokenTexts_eq, h, List.filter_append, List.filter_cons, hempty]
  simp

namespace Reads

variable {segments : List Segment} {cs : List Compound}

theorem length_flatten_tokenTexts (h : Reads [] segments cs) :
    (tokenTexts (Segment.join segments)).flatten.length =
      (segments.flatMap Segment.gap).countP (!isSeparator ·) +
        (segments.map Segment.text).flatten.length := by
  have hmarks := h.marks_append (.refl [])
  rw [List.append_nil, Scan.marks, List.append_nil] at hmarks
  rw [flatten_tokenTexts, hmarks, List.length_map, ← List.countP_eq_length_filter]
  have hnot := h.notSeparator
  clear h hmarks
  induction segments with
  | nil => rfl
  | cons s segments ih =>
    obtain ⟨hs, hnot⟩ := List.forall_mem_cons.1 hnot
    rw [List.flatMap_cons, List.countP_append, Segment.countP_marks hs, ih hnot,
      List.flatMap_cons, List.countP_append, List.map_cons, List.flatten_cons, List.length_append]
    omega

/-- The tokens are the texts of the compounds just where no gap has a wide blank. -/
theorem tokenTexts_eq_iff (h : Reads [] segments cs) :
    tokenTexts (Segment.join segments) = segments.map Segment.text ↔
      ∀ s ∈ segments, HasNarrowBlanks s.gap := by
  constructor
  · intro htokens s hs
    have hlength := h.length_flatten_tokenTexts
    rw [htokens] at hlength
    have hzero : (segments.flatMap Segment.gap).countP (!isSeparator ·) = 0 := by omega
    refine (hasNarrowBlanks_iff (h.isGapChar s hs)).2 fun c hc => ?_
    simpa using List.countP_eq_zero.1 hzero c (List.mem_flatMap_of_mem hs hc)
  · intro hnarrow
    have hsep := fun s hs => (hasNarrowBlanks_iff (h.isGapChar s hs)).1 (hnarrow s hs)
    have htokens := h.tokenTexts_eq hsep nofun
    rwa [List.append_nil] at htokens

theorem gap_ne_nil {trail : List Char} {front : List Segment} {s : Segment}
    (h : Reads trail (front ++ [s]) cs) (hne : front ≠ []) : s.gap ≠ [] := by
  obtain ⟨t, front, rfl⟩ := List.exists_cons_of_ne_nil hne
  cases h with
  | cons _ hnext _ _ => exact hnext s (by simp)

/-- The last token ends in the last compound, and consists of it if a separator is before it. -/
theorem exists_getLast?_tokenTexts {front : List Segment} {s : Segment}
    (h : Reads [] (front ++ [s]) cs) :
    ∃ run, (tokenTexts (Segment.join (front ++ [s]))).getLast? = some (run ++ s.text) ∧
      (run = [] ↔ ∀ c ∈ s.gap.getLast?, isSeparator c = true) := by
  have hs : s ∈ front ++ [s] := by simp
  have hmarks := h.marks_append (.refl [])
  rw [List.append_nil, Scan.marks, List.append_nil, List.flatMap_append, List.flatMap_singleton,
    Segment.marks] at hmarks
  have hcut := map_cutMark (h.notSeparator s hs)
  rcases s.gap.eq_nil_or_concat with hgap | ⟨gap, c, hgap⟩
  · have hfront : front = [] := not_not.1 fun hne => h.gap_ne_nil hne hgap
    refine ⟨[], getLast?_tokenTexts [] ?_ (h.text_ne_nil s hs), by simp [hgap]⟩
    rw [hmarks, hfront, hgap, List.map_append, List.map_append, hcut]
    simpa [cut] using cut_append_unmarked s.text []
  · rw [List.concat_eq_append] at hgap
    rw [hgap, List.map_append, List.append_assoc, ← List.append_assoc] at hmarks
    generalize List.flatMap Segment.marks front ++ gap.map (·, .plain) = ms at hmarks
    rw [hgap]
    cases hc : isSeparator c with
    | true =>
      refine ⟨[], getLast?_tokenTexts (cut (ms.map cutMark)) ?_ (h.text_ne_nil s hs),
        by simp [hc]⟩
      have hmark : cutMark (c, .plain) = (c, true) := Prod.ext rfl hc
      rw [hmarks, List.map_append, List.map_append, hcut, List.map_singleton, List.map_singleton,
        hmark, List.singleton_append, cut_append_marked]
      simpa [cut] using cut_append_unmarked s.text []
    | false =>
      obtain ⟨runs, run, hrun⟩ := exists_cut_append (ms.map cutMark)
      refine ⟨run ++ [c], getLast?_tokenTexts runs ?_ (h.text_ne_nil s hs), by simp [hc]⟩
      have hmark : cutMark (c, .plain) = (c, false) := Prod.ext rfl hc
      rw [hmarks, List.map_append, List.map_append, hcut, List.map_singleton, List.map_singleton,
        hmark, List.append_assoc run]
      exact hrun (c :: s.text)

/-- The last token is the text of the last compound just where no wide blank ends the gap before
it. -/
theorem getLast?_tokenTexts_eq_iff (h : Reads [] segments cs) :
    (tokenTexts (Segment.join segments)).getLast? = segments.getLast?.map Segment.text ↔
      ∀ s ∈ segments.getLast?, ∀ c ∈ s.gap.getLast?, isBlank c = true → isAsciiBlank c = true := by
  rcases segments.eq_nil_or_concat with rfl | ⟨front, s, rfl⟩
  · exact iff_of_true rfl nofun
  · rw [List.concat_eq_append] at h ⊢
    obtain ⟨run, hlast, hrun⟩ := h.exists_getLast?_tokenTexts
    have hgap := h.isGapChar s (by simp)
    have hself : some (run ++ s.text) = some s.text ↔ run = [] := by
      rw [Option.some_inj, List.append_left_eq_self]
    rw [hlast, List.getLast?_append, List.getLast?_singleton, Option.some_or, Option.map_some,
      hself, hrun]
    simp only [Option.mem_some_iff, forall_eq']
    exact forall₂_congr fun c hc => isSeparator_iff (hgap c (List.mem_of_getLast? hc))

end Reads

/-! ## Groups of accepted selectors -/

theorem mem_groupTexts_of_mem_groups {selector : String} {g : Group} (h : g ∈ groups selector) :
    g.text.toList ∈ groupTexts selector.toList := by
  have hmem : g.text ∈ (groups selector).map Group.text := List.mem_map_of_mem h
  rw [map_text_groups] at hmem
  obtain ⟨text, htext, heq⟩ := List.mem_map.1 hmem
  rwa [← heq, String.toList_ofList]

theorem getLast?_of_mem_groupTexts {cs text : List Char} (h : text ∈ groupTexts cs) :
    ∀ d ∈ text.getLast?, isBlank d = false := by
  obtain ⟨piece, -, rfl⟩ := List.mem_map.1 (List.mem_filter.1 h).1
  exact fun _ => getLast?_trim

theorem reads_of_mem_groupTexts {cs text : List Char} (htext : text ∈ groupTexts cs) {c : Chain}
    (h : Parser.chain text = .ok c) :
    text = Segment.join (Parser.segments text) ∧ Reads [] (Parser.segments text) c.compounds := by
  obtain ⟨trail, heq, htrail, hreads⟩ := reads_of_chain h
  have hnil : trail = [] := by
    rcases trail.eq_nil_or_concat with hnil | ⟨trail', d, rfl⟩
    · exact hnil
    · rw [List.concat_eq_append] at heq htrail
      have hlast : d ∈ text.getLast? := by
        rw [heq, ← List.append_assoc, List.getLast?_concat]
        rfl
      have hblank := htrail d (by simp)
      rw [getLast?_of_mem_groupTexts htext d hlast] at hblank
      cases hblank
  rw [hnil] at hreads
  rw [hnil, List.append_nil] at heq
  exact ⟨heq, hreads⟩

/-- How a group that is read as a chain is cut. -/
structure SegmentedAs (g : Group) (c : Chain) : Prop where
  /-- The group consists of the segments that its compounds are read from. -/
  text_eq : g.text = String.ofList (Segment.join (Parser.segments g.text.toList))
  compounds : List.Forall₂
    (fun s comp => ∃ rest, Parser.compound (s.text ++ rest) = .ok (comp, rest))
    (Parser.segments g.text.toList) c.compounds
  /-- The texts of the compounds are the tokens just where every blank in a gap is a separator. -/
  tokens_eq_iff : tokens g.text =
      (Parser.segments g.text.toList).map (fun s => String.ofList s.text) ↔
    ∀ s ∈ Parser.segments g.text.toList, HasNarrowBlanks s.gap
  /-- The text of the last compound is the last token just where no other blank is before it. -/
  lastToken?_eq_iff : lastToken? g.text =
      (Parser.segments g.text.toList).getLast?.map (fun s => String.ofList s.text) ↔
    ∀ s ∈ (Parser.segments g.text.toList).getLast?, ∀ d ∈ s.gap.getLast?,
      isBlank d = true → isAsciiBlank d = true

theorem segmentedAs_of_chain {selector : String} {g : Group} (hg : g ∈ groups selector) {c : Chain}
    (h : Parser.chain g.text.toList = .ok c) : SegmentedAs g c := by
  obtain ⟨htext, hreads⟩ := reads_of_mem_groupTexts (mem_groupTexts_of_mem_groups hg) h
  have hinjective : Function.Injective String.ofList := fun _ _ => String.ofList_injective
  have hmap (segments : List Segment) : segments.map (fun s => String.ofList s.text) =
      (segments.map Segment.text).map String.ofList := by
    rw [List.map_map]
    rfl
  refine ⟨?_, hreads.forall₂_compound, ?_, ?_⟩
  · rw [← htext, String.ofList_toList]
  · rw [tokens, hmap, List.map_inj_right hinjective, ← hreads.tokenTexts_eq_iff, ← htext]
  · rw [lastToken?, tokens, ← List.getLast?_map, hmap, List.getLast?_map, List.getLast?_map,
      (Option.map_injective hinjective).eq_iff, List.getLast?_map,
      ← hreads.getLast?_tokenTexts_eq_iff, ← htext]

/-- The chains of an accepted selector are those of its groups, each cut where the grammar ends
its compounds unless a blank in between is none to the scanner. -/
theorem segmentedAs_of_parse {selector : String} {chains : List Chain}
    (h : parse selector = .ok chains) : List.Forall₂ SegmentedAs (groups selector) chains := by
  have hgroups := (List.forall₂_and_left _ _).2 ⟨fun _ hg => hg, forall₂_of_parse h⟩
  exact hgroups.imp fun _ _ ⟨hg, hc⟩ => segmentedAs_of_chain hg hc

/-- In the first group every gap is one of separators, in the second none is. -/
theorem segmentedAs_of_parse_blanks :
    let chains : List Chain :=
      [.step (.one [.className "a", .attr "x" (.equals "y > z")]) .child [.id "b+"],
        .step (.one [.tag "p"]) .descendant [.tag "q"]]
    parse ".a[x='y > z'] > #b\\+, p\x0bq" = .ok chains ∧
    List.Forall₂ SegmentedAs (groups ".a[x='y > z'] > #b\\+, p\x0bq") chains ∧
    tokens ".a[x='y > z'] > #b\\+" = [".a[x='y > z']", "#b\\+"] ∧
    tokens "p\x0bq" ≠ ["p", "q"] := by
  intro chains
  have hparse : parse ".a[x='y > z'] > #b\\+, p\x0bq" = .ok chains := by decide +kernel
  exact ⟨hparse, segmentedAs_of_parse hparse, by decide +kernel, by decide +kernel⟩

/-- A vertical tab divides compounds, but not tokens, and neither does a blank beyond ASCII. -/
theorem tokens_wide_blank :
    parse "a\x0bb" = .ok [.step (.one [.tag "a"]) .descendant [.tag "b"]] ∧
    (Parser.segments "a\x0bb".toList).map (fun s => String.ofList s.text) = ["a", "b"] ∧
    tokens "a\x0bb" = ["a\x0bb"] ∧ lastToken? "a\x0bb" ≠ some "b" ∧
    parse "a \u00a0b" = .ok [.step (.one [.tag "a"]) .descendant [.tag "b"]] ∧
    tokens "a \u00a0b" = ["a", "\u00a0b"] ∧ lastToken? "a \u00a0b" ≠ some "b" := by
  decide +kernel

end SelectorIndex.Selector
