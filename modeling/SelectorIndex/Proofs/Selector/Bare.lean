import SelectorIndex.Proofs.Selector.Pieces

/-!
# Bare texts

Making a text bare joins characters that spans stood between, so its scan is not
the scan of the text with parts left out: a hexadecimal escape may go on beyond a
span that ended it. But digits and blanks are all that an escape can go on with,
and the two scans agree on what matters (`Scan.Follows`): the scanner of the bare
text is outside of every span, and right after a backslash just if that of the
text is. So nothing in a bare text is enclosed (`isBare_bareText`), and it is
left as it is when it is made bare again.
-/

namespace SelectorIndex.Selector

open SelectorIndex.Text

namespace Scan

variable {s bare : Scan} {cs : List Char} {c : Char}

/-! ## Delimiters -/

def spanDelimiters : List Char := ['"', '\'', '(', ')', '[', ']']

theorem stepUnescaped_enclosed_iff (hopen : s.isOpen = false) :
    (s.stepUnescaped c).2 = .enclosed ↔ c ∈ spanDelimiters := by
  rw [eq_of_isOpen_eq_false hopen, stepUnescaped]
  by_cases hbackslash : c = '\\'
  · rw [if_pos hbackslash, hbackslash]
    refine iff_of_false (fun h => ?_) (by decide)
    cases h
  · rw [if_neg hbackslash]
    show (stepUnquoted _ c).2 = .enclosed ↔ _
    unfold stepUnquoted spanDelimiters isOpen
    grind

/-- Outside of every span, a character is enclosed if it is a delimiter that no backslash
escapes. -/
theorem step_enclosed_iff (hopen : s.isOpen = false) :
    (s.step c).2 = .enclosed ↔ s.escape ≠ .start ∧ c ∈ spanDelimiters := by
  obtain ⟨e, -, hc, hstep⟩ | ⟨hs, hstep⟩ := step_cases s c
  · have hescaped : s.escapePosition ≠ .enclosed := by simp [escapePosition, hopen]
    have hspan : ∀ d ∈ spanDelimiters, isHexDigit d = false ∧ isAsciiBlank d = false := by
      intro d hd
      simp only [spanDelimiters, List.mem_cons, List.not_mem_nil, or_false] at hd
      rcases hd with rfl | rfl | rfl | rfl | rfl | rfl <;> decide
    rw [hstep]
    refine iff_of_false hescaped ?_
    rintro ⟨hs, hmem⟩
    obtain ⟨hhex, hblank⟩ := hspan c hmem
    rcases hc with hc | hc | hc
    · exact hs hc
    · rw [hhex] at hc
      cases hc
    · rw [hblank] at hc
      cases hc
  · have hidle : ({ s with escape := .idle } : Scan).isOpen = false := hopen
    rw [hstep, stepUnescaped_enclosed_iff hidle]
    exact (and_iff_right hs).symm

/-! ## The scan of a bare text -/

/-- What is not enclosed of a text that is scanned from this state. -/
def kept (s : Scan) (cs : List Char) : List Char :=
  ((s.marks cs).filter fun m => m.2 != .enclosed).map Prod.fst

theorem kept_append (s : Scan) (cs ds : List Char) :
    s.kept (cs ++ ds) = s.kept cs ++ (s.after cs).kept ds := by
  rw [kept, marks_append, List.filter_append, List.map_append, kept, kept]

theorem kept_cons_of_ne (h : (s.step c).2 ≠ .enclosed) (cs : List Char) :
    s.kept (c :: cs) = c :: (s.step c).1.kept cs := by
  rw [kept, marks, List.filter_cons_of_pos (by simpa using h), List.map_cons, kept]

theorem kept_cons_of_eq (h : (s.step c).2 = .enclosed) (cs : List Char) :
    s.kept (c :: cs) = (s.step c).1.kept cs := by
  rw [kept, marks, List.filter_cons_of_neg (by simpa using h), kept]

/-- The scanner of a bare text is outside of every span, and right after a backslash just if the
scanner of the text is, outside of every span. -/
structure Follows (bare s : Scan) : Prop where
  isOpen_eq : bare.isOpen = false
  start_iff : bare.escape = .start ↔ s.isOpen = false ∧ s.escape = .start

namespace Follows

theorem start : ({} : Scan).Follows {} := ⟨rfl, by decide⟩

/-- What is enclosed is passed over: it is not escaped outside of spans, and starts no escape
there. -/
theorem of_enclosed (h : bare.Follows s) (hc : (s.step c).2 = .enclosed) :
    bare.Follows (s.step c).1 := by
  refine ⟨h.isOpen_eq, iff_of_false (fun hstart => ?_) ?_⟩
  · obtain ⟨hopen, hs⟩ := h.start_iff.1 hstart
    exact ((step_enclosed_iff hopen).1 hc).1 hs
  · rintro ⟨hopen, hstart⟩
    obtain ⟨rfl, hs⟩ := escape_step_eq_start_iff.1 hstart
    rw [step_backslash_of_ne hs] at hc hopen
    have hclosed : s.isOpen = false := hopen
    simp [escapePosition, hclosed] at hc

theorem of_kept (h : bare.Follows s) (hc : (s.step c).2 ≠ .enclosed) :
    (bare.step c).2 ≠ .enclosed ∧ (bare.step c).1.Follows (s.step c).1 := by
  obtain ⟨hopen, -⟩ := step_of_kept hc
  have hescape : bare.escape = .start ↔ s.escape = .start :=
    h.start_iff.trans (and_iff_right hopen)
  have hkept : (bare.step c).2 ≠ .enclosed := by
    rw [ne_eq, step_enclosed_iff h.isOpen_eq, ne_eq, hescape]
    rwa [ne_eq, step_enclosed_iff hopen] at hc
  refine ⟨hkept, isOpen_step_of_kept hkept, ?_⟩
  rw [and_iff_right (isOpen_step_of_kept hc), escape_step_eq_start_iff, escape_step_eq_start_iff,
    ne_eq, hescape]

theorem kept (h : bare.Follows s) (cs : List Char) :
    (∀ m ∈ bare.marks (s.kept cs), m.2 ≠ .enclosed) ∧
      (bare.after (s.kept cs)).Follows (s.after cs) := by
  induction cs generalizing s bare with
  | nil => exact ⟨nofun, h⟩
  | cons c cs ih =>
    by_cases hc : (s.step c).2 = .enclosed
    · rw [kept_cons_of_eq hc]
      exact ih (h.of_enclosed hc)
    · obtain ⟨hkept, hstep⟩ := h.of_kept hc
      obtain ⟨hmarks, hafter⟩ := ih hstep
      rw [kept_cons_of_ne hc]
      exact ⟨List.forall_mem_cons.2 ⟨hkept, hmarks⟩, hafter⟩

end Follows

end Scan

/-! ## Bare texts -/

theorem bareText_eq_kept (cs : List Char) : bareText cs = ({} : Scan).kept cs := rfl

/-- Nothing in the text is enclosed. -/
def IsBare (cs : List Char) : Prop := ∀ m ∈ ({} : Scan).marks cs, m.2 ≠ .enclosed

theorem isBare_bareText (cs : List Char) : IsBare (bareText cs) := (Scan.Follows.start.kept cs).1

theorem follows_bareText (cs : List Char) :
    (({} : Scan).after (bareText cs)).Follows (({} : Scan).after cs) :=
  (Scan.Follows.start.kept cs).2

namespace IsBare

variable {cs front back : List Char} {c : Char}

theorem bareText_eq (h : IsBare cs) : bareText cs = cs := by
  rw [bareText, List.filter_eq_self.2 fun m hm => bne_iff_ne.2 (h m hm), Scan.map_fst_marks]

/-- A delimiter in a bare text is escaped. -/
theorem endsInBackslash_eq (h : IsBare (front ++ c :: back)) (hc : c ∈ Scan.spanDelimiters) :
    endsInBackslash front = true := by
  have hkept : ((({} : Scan).after front).step c).2 ≠ .enclosed := by
    rw [IsBare, Scan.marks_append] at h
    exact h _ (List.mem_append_right _ List.mem_cons_self)
  obtain ⟨hopen, -⟩ := Scan.step_of_kept hkept
  rw [← Scan.escape_after_eq_start_iff]
  by_contra hstart
  exact hkept ((Scan.step_enclosed_iff hopen).2 ⟨hstart, hc⟩)

end IsBare

/-- An escape outside of every span is kept with the character that it escapes, and is an escape of
the bare text. -/
theorem exists_bareText_escape {front : List Char} (hback : endsInBackslash front = false)
    (hopen : (({} : Scan).after front).isOpen = false) (c : Char) (back : List Char) :
    endsInBackslash (bareText front) = false ∧
      ∃ rest, bareText (front ++ '\\' :: c :: back) = bareText front ++ '\\' :: c :: rest := by
  have hs : (({} : Scan).after front).escape ≠ .start := by
    rw [ne_eq, Scan.escape_after_eq_start_iff, hback]
    nofun
  constructor
  · rw [← Bool.not_eq_true, ← Scan.escape_after_eq_start_iff, (follows_bareText front).start_iff]
    exact fun h => hs h.2
  · have hfirst : ((({} : Scan).after front).step '\\').2 ≠ .enclosed := by
      rw [ne_eq, Scan.step_enclosed_iff hopen]
      exact fun h => absurd h.2 (by decide)
    have hsecond : (((({} : Scan).after front).step '\\').1.step c).2 ≠ .enclosed := by
      rw [ne_eq, Scan.step_enclosed_iff (Scan.isOpen_step_of_kept hfirst)]
      exact fun h => h.1 (Scan.escape_step_eq_start_iff.2 ⟨rfl, hs⟩)
    refine ⟨(((({} : Scan).after front).step '\\').1.step c).1.kept back, ?_⟩
    rw [bareText_eq_kept, bareText_eq_kept, Scan.kept_append, Scan.kept_cons_of_ne hfirst,
      Scan.kept_cons_of_ne hsecond]

/-- The bare token is bare: made bare again it is the same, and a scan of it encloses nothing. A
delimiter in it is escaped by the backslash before it, and every escape outside of the spans of the
token is an escape of the bare token, with the character that it escapes. -/
theorem bareToken_is_bare (token : String) :
    bareToken (bareToken token) = bareToken token ∧
    (∀ m ∈ ({} : Scan).marks (bareToken token).toList, m.2 ≠ .enclosed) ∧
    (∀ front c back, (bareToken token).toList = front ++ c :: back → c ∈ Scan.spanDelimiters →
      endsInBackslash front = true) ∧
    (∀ front c back, token.toList = front ++ '\\' :: c :: back → endsInBackslash front = false →
      (({} : Scan).after front).isOpen = false →
      endsInBackslash (bareText front) = false ∧
        ∃ rest, (bareToken token).toList = bareText front ++ '\\' :: c :: rest) := by
  have hbare : (bareToken token).toList = bareText token.toList := String.toList_ofList
  have hisBare := isBare_bareText token.toList
  refine ⟨?_, ?_, fun front c back heq hc => ?_, fun front c back heq hback hopen => ?_⟩
  · rw [bareToken, hbare, hisBare.bareText_eq, bareToken]
  · rw [hbare]
    exact hisBare
  · rw [hbare] at heq
    rw [heq] at hisBare
    exact hisBare.endsInBackslash_eq hc
  · rw [hbare, heq]
    exact exists_bareText_escape hback hopen c back

end SelectorIndex.Selector
