import SelectorIndex.Proofs.Selector.Spelling

/-!
# The scanner over names and attribute tests

What the scanner makes of the texts that the grammar reads. Between two of the
grammar's steps the scanner is idle: an escape takes it from an idle state back
to that state, up to digits that cannot follow (`marks_escape`). So a name leaves
the state as it is, and an attribute test is enclosed as a whole
(`inBrackets_encloses_attr`).
-/

namespace SelectorIndex.Selector

open SelectorIndex.Text

namespace Scan

variable {s : Scan} {rest : List Char}

/-! ## Escapes -/

@[simp] theorem escapePosition_setEscape (s : Scan) (e : EscapeState) :
    ({ s with escape := e } : Scan).escapePosition = s.escapePosition := rfl

theorem setEscape_idle (hs : s.escape = .idle) : ({ s with escape := .idle } : Scan) = s := by
  obtain ⟨parens, brackets, quote, escape⟩ := s
  cases hs
  rfl

theorem step_backslash (hs : s.escape = .idle) :
    s.step '\\' = ({ s with escape := .start }, s.escapePosition) := by
  simp only [step, hs, stepUnescaped, if_pos]

theorem marks_hexDigits (s : Scan) {digits : List Char} {k : Nat}
    (hall : ∀ c ∈ digits, isHexDigit c = true) (hlen : k + digits.length ≤ 6) :
    ({ s with escape := .hex k } : Scan).marks (digits ++ rest) =
      digits.map (·, s.escapePosition) ++
        ({ s with escape := .hex (k + digits.length) } : Scan).marks rest := by
  induction digits generalizing k with
  | nil => rfl
  | cons c digits ih =>
    have hstep : ({ s with escape := .hex k } : Scan).step c =
        ({ s with escape := .hex (k + 1) }, s.escapePosition) := by
      have hlt : k < 6 := by simp only [List.length_cons] at hlen; omega
      simp only [step, hall c List.mem_cons_self, hlt, and_self, if_pos,
        escapePosition_setEscape]
    rw [List.cons_append, marks, hstep, List.map_cons, List.cons_append,
      ih (fun d hd => hall d (List.mem_cons_of_mem c hd))
        (by simp only [List.length_cons] at hlen; omega)]
    rw [List.length_cons, Nat.add_assoc, Nat.add_comm 1]

theorem marks_hex_idle (hs : s.escape = .idle) {k : Nat}
    (hhex : ∀ c ∈ rest.head?, isHexDigit c = true → k = 6)
    (hblank : ∀ c ∈ rest.head?, isAsciiBlank c = false) :
    ({ s with escape := .hex k } : Scan).marks rest = s.marks rest := by
  cases rest with
  | nil => rfl
  | cons c rest =>
    have hstep : ({ s with escape := .hex k } : Scan).step c = s.step c := by
      have hno : ¬ (isHexDigit c = true ∧ k < 6) := fun ⟨h, hlt⟩ => by
        rw [hhex c rfl h] at hlt
        exact absurd hlt (by decide)
      simp only [step, hno, hblank c rfl, hs, if_false, Bool.false_eq_true]
      rw [setEscape_idle hs]
    rw [marks, marks, hstep]

theorem marks_hexRun (hs : s.escape = .idle) {digits : List Char} (hne : digits ≠ [])
    (hrun : IsHexRun 6 digits rest) :
    s.marks ('\\' :: (digits ++ rest)) = ('\\' :: digits).map (·, s.escapePosition) ++
      ({ s with escape := .hex digits.length } : Scan).marks rest := by
  obtain ⟨c, cs, rfl⟩ := List.exists_cons_of_ne_nil hne
  have hstep : ({ s with escape := .start } : Scan).step c =
      ({ s with escape := .hex 1 }, s.escapePosition) := by
    simp only [step, hrun.isHexDigit c List.mem_cons_self, if_pos, escapePosition_setEscape]
  have hlen := hrun.length_le
  rw [marks, step_backslash hs, List.cons_append, marks, hstep,
    marks_hexDigits s (fun d hd => hrun.isHexDigit d (List.mem_cons_of_mem c hd))
      (by simp only [List.length_cons] at hlen; omega)]
  rw [List.length_cons, Nat.add_comm 1]
  rfl

/-- An escape is marked as one, and after it the scanner is where it was. -/
theorem marks_escape (hs : s.escape = .idle) {esc : List Char} {c : Char}
    (h : Escape.Spelled rest esc c) :
    s.marks ('\\' :: (esc ++ rest)) =
      ('\\' :: esc).map (·, s.escapePosition) ++ s.marks rest := by
  cases h with
  | char h =>
    have hstep : ({ s with escape := .start } : Scan).step c = (s, s.escapePosition) := by
      simp only [step, h, Bool.false_eq_true, if_false, escapePosition_setEscape]
      rw [setEscape_idle hs]
    rw [marks, step_backslash hs, List.singleton_append, marks, hstep]
    rfl
  | hex hne hrun hblank =>
    rw [marks_hexRun hs hne hrun, marks_hex_idle hs hrun.stops hblank]
  | @hexBlank digits b hne hrun hblank =>
    have hstep : ({ s with escape := .hex digits.length } : Scan).step b =
        (s, s.escapePosition) := by
      simp only [step, isHexDigit_of_isAsciiBlank hblank, hblank, Bool.false_eq_true, false_and,
        if_false, if_true, escapePosition_setEscape]
      rw [setEscape_idle hs]
    rw [List.append_assoc, List.singleton_append, marks_hexRun hs hne hrun, marks, hstep]
    simp

/-! ## Ordinary characters -/

/-- The characters that open or close something. -/
def delimiters : List Char := ['\\', '"', '\'', '(', ')', '[', ']']

def isOrdinary (c : Char) : Bool := !(delimiters.contains c)

theorem step_ordinary (hs : s.escape = .idle) (hq : s.quote = none) {c : Char}
    (h : isOrdinary c = true) : s.step c = (s, if s.isOpen then .enclosed else .plain) := by
  simp only [isOrdinary, delimiters, Bool.not_eq_true', List.contains_eq_mem,
    decide_eq_false_iff_not, List.mem_cons, not_or] at h
  obtain ⟨h1, h2, h3, h4, h5, h6, h7, -⟩ := h
  simp only [step, hs, stepUnescaped, hq, stepUnquoted, h1, h2, h3, h4, h5, h6, h7, or_self,
    if_false]

/-- A class of characters without delimiters is one of ordinary characters. -/
theorem isOrdinary_of_all {p : Char → Bool} (hp : delimiters.all (!p ·) = true) {c : Char}
    (h : p c = true) : isOrdinary c = true := by
  rw [isOrdinary, Bool.not_eq_true', List.contains_eq_mem, decide_eq_false_iff_not]
  intro hmem
  have := List.all_eq_true.1 hp c hmem
  rw [h] at this
  cases this

theorem isOrdinary_of_isNameChar {c : Char} (h : Parser.isNameChar c = true) :
    isOrdinary c = true := isOrdinary_of_all (by decide) h

theorem isOrdinary_of_isBlank {c : Char} (h : isBlank c = true) : isOrdinary c = true :=
  isOrdinary_of_all (by decide) h

/-- What only depends on the characters of the marks. -/
theorem map_marks {α : Type} {f : Char × Position → α} {g : Char → α} {cs : List Char}
    (h : ∀ m ∈ s.marks cs, f m = g m.1) : (s.marks cs).map f = cs.map g := by
  have hmap : (s.marks cs).map f = ((s.marks cs).map Prod.fst).map g := by
    rw [List.map_map]
    exact List.map_congr_left h
  rw [hmap, map_fst_marks]

/-- A name leaves the state as it is, if a character of its class does. -/
theorem marks_of_spells (hs : s.escape = .idle) {p : Char → Bool} {pos : Position}
    (hp : ∀ c, c ≠ '\\' → p c = true → s.step c = (s, pos)) {text name : List Char}
    (h : Spells p rest text name) :
    s.marks (text ++ rest) = s.marks text ++ s.marks rest ∧
      ∀ m ∈ s.marks text, m.2 = s.escapePosition ∨ m.2 = pos ∧ p m.1 = true := by
  induction h with
  | nil => exact ⟨rfl, nofun⟩
  | @char c text name hne hc _ ih =>
    obtain ⟨hmarks, hpos⟩ := ih
    rw [List.cons_append, marks, marks, hp c hne hc, hmarks]
    exact ⟨rfl, List.forall_mem_cons.2 ⟨.inr ⟨rfl, hc⟩, hpos⟩⟩
  | @escape esc text name c hesc _ ih =>
    obtain ⟨hmarks, hpos⟩ := ih
    rw [List.cons_append, List.append_assoc, marks_escape hs hesc,
      marks_escape hs (hesc.move (standsFor_append text rest)), hmarks, List.append_assoc]
    refine ⟨rfl, fun m hm => ?_⟩
    rcases List.mem_append.1 hm with hm | hm
    · obtain ⟨d, -, rfl⟩ := List.mem_map.1 hm
      exact .inl rfl
    · exact hpos m hm

end Scan

/-! ## Attribute tests -/

namespace Scan

/-- The scanner encloses the text up to `rest`, and comes from one state to another by it. The
first character of `rest` is all that this depends on. -/
def Encloses (s : Scan) (cs : List Char) (s' : Scan) (rest : List Char) : Prop :=
  ∃ text, cs = text ++ rest ∧ ∀ rest', StandsFor rest' rest →
    s.marks (text ++ rest') = text.map (·, .enclosed) ++ s'.marks rest'

namespace Encloses

variable {s s' s'' : Scan} {cs cs' rest : List Char}

theorem refl (s : Scan) (cs : List Char) : s.Encloses cs s cs := ⟨[], rfl, fun _ _ => rfl⟩

theorem trans (h : s.Encloses cs s' cs') (h' : s'.Encloses cs' s'' rest) :
    s.Encloses cs s'' rest := by
  obtain ⟨text, rfl, hmarks⟩ := h
  obtain ⟨text', rfl, hmarks'⟩ := h'
  refine ⟨text ++ text', by simp, fun rest' hrest => ?_⟩
  rw [List.append_assoc, hmarks _ (hrest.append text'), hmarks' rest' hrest, List.map_append,
    List.append_assoc]

theorem cons {c : Char} (hstep : s.step c = (s', .enclosed)) (h : s'.Encloses cs s'' rest) :
    s.Encloses (c :: cs) s'' rest := by
  obtain ⟨text, rfl, hmarks⟩ := h
  refine ⟨c :: text, rfl, fun rest' hrest => ?_⟩
  rw [List.cons_append, marks, hstep, hmarks rest' hrest]
  rfl

theorem of_spells (hs : s.escape = .idle) (hopen : s.isOpen = true) {p : Char → Bool}
    (hp : ∀ c, c ≠ '\\' → p c = true → s.step c = (s, .enclosed)) {text name : List Char}
    (h : Spells p rest text name) : s.Encloses (text ++ rest) s rest := by
  refine ⟨text, rfl, fun rest' hrest => ?_⟩
  obtain ⟨hmarks, hpos⟩ := marks_of_spells hs hp (h.move hrest)
  -- within a span escapes are enclosed too, so every mark is the same
  have hall : s.marks text = text.map (·, .enclosed) := by
    refine (List.map_id _).symm.trans (map_marks fun m hm => ?_)
    have hm : m.2 = .enclosed := by
      rcases hpos m hm with hm | ⟨hm, -⟩
      · rw [hm, escapePosition, if_pos hopen]
      · exact hm
    exact Prod.ext rfl hm
  rw [hmarks, hall]

end Encloses

/-- Within the brackets of an attribute test. -/
def inBrackets : Scan := { brackets := 1 }

/-- Within a quoted string there. -/
def inQuotes (quote : Char) : Scan := { brackets := 1, quote := some quote }

theorem inBrackets_step_ordinary {c : Char} (h : isOrdinary c = true) :
    inBrackets.step c = (inBrackets, .enclosed) := step_ordinary rfl rfl h

theorem inQuotes_step {quote c : Char} (hne : c ≠ '\\') :
    (inQuotes quote).step c =
      (if c = quote then inBrackets else inQuotes quote, .enclosed) := by
  simp only [step, inQuotes, stepUnescaped, hne, if_false]
  split <;> rfl

theorem inBrackets_encloses_skipBlanks (cs : List Char) :
    inBrackets.Encloses cs inBrackets (Parser.skipBlanks cs) := by
  induction cs with
  | nil => exact .refl _ _
  | cons c cs ih =>
    unfold Parser.skipBlanks
    by_cases h : isBlank c = true
    · rw [List.dropWhile_cons_of_pos h]
      exact .cons (inBrackets_step_ordinary (isOrdinary_of_isBlank h)) ih
    · rw [List.dropWhile_cons_of_neg h]
      exact .refl _ _

theorem inBrackets_encloses_name {cs rest : List Char} {n : String}
    (h : Parser.name cs = .ok (n, rest)) : inBrackets.Encloses cs inBrackets rest := by
  obtain ⟨text, name, rfl, -, -, hs⟩ := exists_spells_of_name h
  exact .of_spells rfl rfl
    (fun c _ hc => inBrackets_step_ordinary (isOrdinary_of_isNameChar hc)) hs

theorem inQuotes_encloses_quotedChars {quote : Char} {cs text rest : List Char}
    (hquote : quote ≠ '\\') (h : Parser.quotedChars quote cs = .ok (text, rest)) :
    (inQuotes quote).Encloses cs inBrackets rest := by
  obtain ⟨inner, rfl, hs⟩ := exists_spells_of_quotedChars h
  have hinner : (inQuotes quote).Encloses (inner ++ quote :: rest) (inQuotes quote)
      (quote :: rest) := by
    refine .of_spells rfl rfl (fun c hne hc => ?_) hs
    rw [inQuotes_step hne, if_neg (bne_iff_ne.1 hc)]
  refine hinner.trans (.cons ?_ (.refl _ _))
  rw [inQuotes_step hquote, if_pos rfl]

theorem inBrackets_encloses_value {cs rest : List Char} {text : String}
    (h : Parser.value cs = .ok (text, rest)) : inBrackets.Encloses cs inBrackets rest := by
  refine (inBrackets_encloses_skipBlanks cs).trans ?_
  unfold Parser.value at h
  split at h
  · cases h
  · rename_i c tail heq
    rw [heq]
    split at h
    · rename_i hquote
      split at h
      · rename_i hchars
        cases h
        have hopen : inBrackets.step c = (inQuotes c, .enclosed) := by
          rcases hquote with rfl | rfl <;> rfl
        have hne : c ≠ '\\' := by
          rcases hquote with rfl | rfl <;> decide
        exact .cons hopen (inQuotes_encloses_quotedChars hne hchars)
      · cases h
    · exact inBrackets_encloses_name h

theorem inBrackets_encloses_attrEnd {test test' : Simple} {cs rest : List Char}
    (h : Parser.attrEnd test cs = .ok (test', rest)) :
    test' = test ∧ inBrackets.Encloses cs {} rest := by
  have hblanks := inBrackets_encloses_skipBlanks cs
  unfold Parser.attrEnd at h
  split at h
  · rename_i heq
    cases h
    rw [heq] at hblanks
    exact ⟨rfl, hblanks.trans (.cons rfl (.refl _ _))⟩
  · cases h

/-- An attribute test is enclosed up to its closing bracket, which ends the span. -/
theorem inBrackets_encloses_attr {cs rest : List Char} {test : Simple}
    (h : Parser.attr cs = .ok (test, rest)) :
    (∃ name what, test = .attr name what) ∧ inBrackets.Encloses cs {} rest := by
  obtain ⟨⟨n, mid⟩, hn, h⟩ := Parser.bind_eq_ok h
  have hfront := ((inBrackets_encloses_skipBlanks cs).trans (inBrackets_encloses_name hn)).trans
    (inBrackets_encloses_skipBlanks mid)
  dsimp only at h
  split at h
  · rename_i heq
    cases h
    rw [heq] at hfront
    exact ⟨⟨_, _, rfl⟩, hfront.trans (.cons rfl (.refl _ _))⟩
  · rename_i tail heq
    rw [heq] at hfront
    obtain ⟨⟨text, tail'⟩, hv, h⟩ := Parser.bind_eq_ok h
    obtain ⟨rfl, hend⟩ := inBrackets_encloses_attrEnd h
    exact ⟨⟨_, _, rfl⟩, hfront.trans (.cons rfl ((inBrackets_encloses_value hv).trans hend))⟩
  · rename_i tail heq
    rw [heq] at hfront
    obtain ⟨⟨text, tail'⟩, hv, h⟩ := Parser.bind_eq_ok h
    obtain ⟨rfl, hend⟩ := inBrackets_encloses_attrEnd h
    exact ⟨⟨_, _, rfl⟩,
      hfront.trans (.cons rfl (.cons rfl ((inBrackets_encloses_value hv).trans hend)))⟩
  · cases h

end Scan

end SelectorIndex.Selector
