import Mathlib.Data.List.Induction
import SelectorIndex.Proofs.Selector.Joined
import SelectorIndex.Proofs.Selector.Scanned

/-!
# Pieces of a selector

The pieces of a text are what its plain commas leave. A text without a plain
comma is whole (`Scan.IsWhole`) and is its own only piece; any other one is a
whole, closed piece, a comma, and a text that is scanned from the start again
(`Scan.pieces_induction`). So each piece stands in the text where the scanner is
in its initial state, and is whole (`Scan.exists_of_mem_pieces`).

What a character does to the state is said once, in `Scan.step_cases`: it goes on
with an escape, or it is read as if there were none. In particular only an odd
number of backslashes leaves an escape open at the end of a text
(`Scan.escape_after_eq_start_iff`), and what is not enclosed stands outside of
every span (`Scan.step_of_kept`).
-/

namespace SelectorIndex.Selector

open SelectorIndex.Text

/-- The text ends in an odd number of backslashes, so the last of them escapes what follows. -/
def endsInBackslash (cs : List Char) : Bool := (cs.reverse.takeWhile (· == '\\')).length % 2 == 1

theorem endsInBackslash_concat (cs : List Char) (c : Char) :
    endsInBackslash (cs ++ [c]) = (c == '\\' && !endsInBackslash cs) := by
  rw [endsInBackslash, endsInBackslash, List.reverse_append, List.reverse_singleton,
    List.singleton_append]
  by_cases h : c = '\\'
  · rw [List.takeWhile_cons_of_pos (by simpa using h), List.length_cons, h]
    generalize (cs.reverse.takeWhile (· == '\\')).length = n
    obtain hn | hn := Nat.mod_two_eq_zero_or_one n <;> simp [Nat.add_mod, hn]
  · rw [List.takeWhile_cons_of_neg (by simpa using h)]
    simp [h]

namespace Scan

variable {s : Scan} {p : Char → Bool} {cs ds : List Char} {c : Char}

/-! ## One character -/

/-- A character goes on with an escape, or is read as if there were none. -/
theorem step_cases (s : Scan) (c : Char) :
    (∃ e, e ≠ .start ∧ (s.escape = .start ∨ isHexDigit c = true ∨ isAsciiBlank c = true) ∧
      s.step c = ({ s with escape := e }, s.escapePosition)) ∨
    (s.escape ≠ .start ∧ s.step c = { s with escape := .idle }.stepUnescaped c) := by
  cases hs : s.escape with
  | idle =>
    refine .inr ⟨by simp, ?_⟩
    rw [setEscape_idle hs]
    simp only [step, hs]
  | start =>
    refine .inl ⟨if isHexDigit c then .hex 1 else .idle, by split <;> simp, .inl rfl, ?_⟩
    simp only [step, hs]
  | hex n =>
    by_cases hhex : isHexDigit c = true ∧ n < 6
    · refine .inl ⟨.hex (n + 1), by simp, .inr (.inl hhex.1), ?_⟩
      simp only [step, hs, hhex, and_self, if_true]
    · by_cases hblank : isAsciiBlank c = true
      · refine .inl ⟨.idle, by simp, .inr (.inr hblank), ?_⟩
        simp only [step, hs, hhex, hblank, if_false, if_true]
      · refine .inr ⟨by simp, ?_⟩
        simp only [step, hs, hhex, hblank, if_false, Bool.false_eq_true]

theorem step_backslash_of_ne (hs : s.escape ≠ .start) :
    s.step '\\' = ({ s with escape := .start }, s.escapePosition) := by
  obtain ⟨e, -, hc, -⟩ | ⟨-, hstep⟩ := step_cases s '\\'
  · exact absurd (hc.resolve_right (by decide)) hs
  · exact hstep

theorem escapePosition_ne_plain (s : Scan) : s.escapePosition ≠ .plain := by
  unfold escapePosition
  split <;> nofun

/-- Outside of every span only an escape can tell a state from the initial one. -/
theorem eq_of_isOpen_eq_false (h : s.isOpen = false) : s = { escape := s.escape } := by
  obtain ⟨parens, brackets, quote, escape⟩ := s
  simp only [isOpen, Bool.or_eq_false_iff, bne_eq_false_iff_eq, Option.isSome_eq_false_iff,
    Option.isNone_iff_eq_none] at h
  obtain ⟨⟨rfl, rfl⟩, rfl⟩ := h
  rfl

theorem escapePosition_of_kept (h : s.escapePosition ≠ .enclosed) :
    s.isOpen = false ∧ s.escapePosition = .escaped := by
  unfold escapePosition at h ⊢
  split at h
  · exact absurd rfl h
  · rename_i hopen
    exact ⟨Bool.eq_false_iff.2 hopen, if_neg hopen⟩

theorem stepUnquoted_of_kept (h : (s.stepUnquoted c).2 ≠ .enclosed) :
    s.isOpen = false ∧ s.stepUnquoted c = (s, .plain) := by
  unfold stepUnquoted at h ⊢
  grind

/-- A character that is not enclosed leads from a state outside of every span to another one, and
to the initial one if it is plain. -/
theorem step_of_kept (h : (s.step c).2 ≠ .enclosed) :
    s.isOpen = false ∧
      ((∃ e, s.step c = ({ escape := e }, .escaped)) ∨ s.step c = ({}, .plain)) := by
  obtain ⟨e, -, -, hstep⟩ | ⟨-, hstep⟩ := step_cases s c
  · rw [hstep] at h ⊢
    obtain ⟨hopen, hescaped⟩ := escapePosition_of_kept h
    rw [hescaped, eq_of_isOpen_eq_false hopen]
    exact ⟨rfl, .inl ⟨e, rfl⟩⟩
  · rw [hstep, stepUnescaped] at h ⊢
    split at h
    · rename_i hbackslash
      obtain ⟨hopen, hescaped⟩ := escapePosition_of_kept h
      rw [if_pos hbackslash, hescaped, eq_of_isOpen_eq_false hopen]
      exact ⟨hopen, .inl ⟨.start, rfl⟩⟩
    · rename_i hbackslash
      rw [if_neg hbackslash]
      split at h
      · exact absurd rfl h
      · obtain ⟨hopen, hplain⟩ := stepUnquoted_of_kept h
        have hstart : { s with escape := .idle } = ({} : Scan) := eq_of_isOpen_eq_false hopen
        rw [hplain, hstart]
        exact ⟨hopen, .inr rfl⟩

theorem isOpen_step_of_kept (h : (s.step c).2 ≠ .enclosed) : (s.step c).1.isOpen = false := by
  obtain ⟨-, ⟨e, hstep⟩ | hstep⟩ := step_of_kept h
  · rw [hstep]
    rfl
  · rw [hstep]
    rfl

theorem step_of_plain (h : (s.step c).2 = .plain) : (s.step c).1 = {} := by
  obtain ⟨-, ⟨e, hstep⟩ | hstep⟩ := step_of_kept (s := s) (c := c) (by simp [h])
  · rw [hstep] at h
    cases h
  · rw [hstep]

theorem pieces_cons_cut (h : (s.step c).2 = .plain ∧ p c = true) (cs : List Char) :
    s.pieces p (c :: cs) = [] :: ({} : Scan).pieces p cs := by
  obtain ⟨hplain, hc⟩ := h
  rw [pieces, marks, List.map_cons, hplain, hc, step_of_plain hplain]
  rfl

theorem pieces_cons_uncut (h : ¬ ((s.step c).2 = .plain ∧ p c = true)) (cs : List Char) :
    s.pieces p (c :: cs) = ((s.step c).1.pieces p cs).modifyHead (c :: ·) := by
  have hmark : ((s.step c).2 == .plain && p c) = false := by simpa using h
  rw [pieces, marks, List.map_cons, hmark]
  rfl

theorem escape_stepUnquoted (s : Scan) (c : Char) : (s.stepUnquoted c).1.escape = s.escape := by
  unfold stepUnquoted
  repeat' split
  all_goals rfl

theorem escape_step_eq_start_iff :
    (s.step c).1.escape = .start ↔ c = '\\' ∧ s.escape ≠ .start := by
  obtain ⟨e, he, hc, hstep⟩ | ⟨hs, hstep⟩ := step_cases s c
  · rw [hstep]
    refine ⟨fun h => absurd h he, ?_⟩
    rintro ⟨rfl, hs⟩
    rcases hc with hc | hc | hc
    · exact absurd hc hs
    · exact absurd hc (by decide)
    · exact absurd hc (by decide)
  · rw [hstep, stepUnescaped]
    by_cases hc : c = '\\'
    · simp [hc, hs]
    · rw [if_neg hc]
      refine ⟨fun h => ?_, fun h => absurd h.1 hc⟩
      split at h
      · cases h
      · rw [escape_stepUnquoted] at h
        cases h

theorem escape_after_eq_start_iff (cs : List Char) :
    (({} : Scan).after cs).escape = .start ↔ endsInBackslash cs = true := by
  induction cs using List.reverseRecOn with
  | nil => decide
  | append_singleton cs c ih =>
    rw [after_append, after_cons, after_nil, escape_step_eq_start_iff, endsInBackslash_concat]
    simp [ih]

/-- Only quotation marks open quotes. -/
def IsQuotedByMark (s : Scan) : Prop := ∀ q ∈ s.quote, q = '"' ∨ q = '\''

theorem IsQuotedByMark.start : ({} : Scan).IsQuotedByMark := nofun

theorem IsQuotedByMark.step (h : s.IsQuotedByMark) (c : Char) : (s.step c).1.IsQuotedByMark := by
  obtain ⟨e, -, -, hstep⟩ | ⟨-, hstep⟩ := step_cases s c
  · rw [hstep]
    exact h
  · rw [hstep, stepUnescaped]
    split
    · exact h
    · split
      · rename_i q hq
        intro q' hq'
        split at hq' <;> cases hq'
        exact h q hq
      · unfold stepUnquoted
        split
        · rename_i hc
          intro q hq
          cases hq
          exact hc
        · repeat' split
          all_goals exact h

theorem quote_after (cs : List Char) : (({} : Scan).after cs).IsQuotedByMark := by
  induction cs using List.reverseRecOn with
  | nil => exact .start
  | append_singleton cs c ih =>
    rw [after_append, after_cons, after_nil]
    exact ih.step c

theorem ne_of_isOrdinary {d : Char} (h : isOrdinary c = true) (hd : d ∈ delimiters) : c ≠ d := by
  rintro rfl
  rw [isOrdinary, List.contains_iff_mem.2 hd] at h
  cases h

/-- Within quotes too an ordinary character changes nothing, as it is no quotation mark. -/
theorem step_ordinary_of_idle (hs : s.escape = .idle) (hq : s.IsQuotedByMark)
    (hc : isOrdinary c = true) : s.step c = (s, if s.isOpen then .enclosed else .plain) := by
  by_cases hquote : s.quote = none
  · exact step_ordinary hs hquote hc
  · obtain ⟨q, hquote⟩ := Option.ne_none_iff_exists'.1 hquote
    have hbackslash : c ≠ '\\' := ne_of_isOrdinary hc (by decide)
    have hne : c ≠ q := by
      obtain rfl | rfl := hq q hquote
      · exact ne_of_isOrdinary hc (by decide)
      · exact ne_of_isOrdinary hc (by decide)
    have hopen : s.isOpen = true := by simp [isOpen, hquote]
    simp only [step, hs, stepUnescaped, hbackslash, hquote, hne, hopen, if_false, if_true]
    rw [← hquote, ← hs]

theorem isOpen_step_blank (hq : s.IsQuotedByMark) (hc : isBlank c = true) :
    (s.step c).1.isOpen = s.isOpen := by
  obtain ⟨e, -, -, hstep⟩ | ⟨-, hstep⟩ := step_cases s c
  · rw [hstep]
    rfl
  · have hplain := step_ordinary_of_idle (s := { s with escape := .idle }) rfl hq
      (isOrdinary_of_isBlank hc)
    rw [hstep]
    show (({ s with escape := .idle } : Scan).step c).1.isOpen = s.isOpen
    rw [hplain]
    rfl

theorem isOpen_after_blanks {cs blanks : List Char} (h : ∀ c ∈ blanks, isBlank c = true) :
    (({} : Scan).after (cs ++ blanks)).isOpen = (({} : Scan).after cs).isOpen := by
  induction blanks using List.reverseRecOn with
  | nil => rw [List.append_nil]
  | append_singleton blanks c ih =>
    obtain ⟨hblanks, hc⟩ := List.forall_mem_append.1 h
    rw [← List.append_assoc, after_append, after_cons, after_nil,
      isOpen_step_blank (quote_after _) (hc c (List.mem_singleton_self c)), ih hblanks]

/-! ## Closed texts -/

theorem isClosed_iff : s.isClosed = true ↔ s.isOpen = false ∧ s.escape ≠ .start := by
  simp [isClosed]

theorem isClosed_iff_step_comma : s.isClosed = true ↔ (s.step ',').2 = .plain := by
  constructor
  · intro h
    rw [step_comma_of_isClosed h]
  · -- within a span or right after a backslash, nothing is plain
    obtain ⟨parens, brackets, quote, escape⟩ := s
    cases escape <;> cases quote <;>
      simp +decide [step, isClosed, stepUnescaped, stepUnquoted, isOpen, escapePosition]
    split <;> simp

theorem after_comma_of_isClosed (h : (s.after cs).isClosed = true) (ds : List Char) :
    s.after (cs ++ ',' :: ds) = ({} : Scan).after ds := by
  rw [after_append, after_cons, step_comma_of_isClosed h]

theorem step_blank (h : isBlank c = true) : ({} : Scan).step c = ({}, .plain) :=
  step_ordinary rfl rfl (isOrdinary_of_isBlank h)

theorem after_blanks {blanks : List Char} (h : ∀ c ∈ blanks, isBlank c = true) :
    ({} : Scan).after blanks = {} := by
  induction blanks with
  | nil => rfl
  | cons c blanks ih =>
    obtain ⟨hc, hblanks⟩ := List.forall_mem_cons.1 h
    rw [after_cons, step_blank hc, ih hblanks]

theorem isClosed_step_blank (hs : s.isClosed = true) (h : isBlank c = true) :
    (s.step c).1.isClosed = true := by
  obtain ⟨hopen, -⟩ := isClosed_iff.1 hs
  have hquote : s.quote = none := by
    simp only [isOpen, Bool.or_eq_false_iff, Option.isSome_eq_false_iff,
      Option.isNone_iff_eq_none] at hopen
    exact hopen.2
  refine isClosed_iff.2 ⟨?_, fun hstart => ?_⟩
  · rw [isOpen_step_blank (by simp [IsQuotedByMark, hquote]) h, hopen]
  · obtain ⟨rfl, -⟩ := escape_step_eq_start_iff.1 hstart
    exact absurd h (by decide)

theorem isClosed_after_blanks (hs : s.isClosed = true) {blanks : List Char}
    (h : ∀ c ∈ blanks, isBlank c = true) : (s.after blanks).isClosed = true := by
  induction blanks generalizing s with
  | nil => exact hs
  | cons c blanks ih =>
    obtain ⟨hc, hblanks⟩ := List.forall_mem_cons.1 h
    exact ih (isClosed_step_blank hs hc) hblanks

/-! ## Whole texts -/

/-- No comma of the text is plain. -/
def IsWhole (s : Scan) (cs : List Char) : Prop := (',', .plain) ∉ s.marks cs

theorem isWhole_nil : s.IsWhole [] := List.not_mem_nil

theorem isWhole_cons_iff :
    s.IsWhole (c :: cs) ↔ ¬ (c = ',' ∧ (s.step c).2 = .plain) ∧ (s.step c).1.IsWhole cs := by
  rw [IsWhole, marks, List.mem_cons, not_or, Prod.mk.injEq, eq_comm, IsWhole]
  simp [eq_comm]

theorem isWhole_append_iff : s.IsWhole (cs ++ ds) ↔ s.IsWhole cs ∧ (s.after cs).IsWhole ds := by
  rw [IsWhole, marks_append, List.mem_append, not_or, IsWhole, IsWhole]

theorem pieces_append_of_isWhole (h : s.IsWhole cs) (ds : List Char) :
    s.pieces (· == ',') (cs ++ ds) =
      ((s.after cs).pieces (· == ',') ds).modifyHead (cs ++ ·) := by
  have hmarks : ∀ m ∈ s.marks cs, (m.1, m.2 == .plain && m.1 == ',') = (m.1, false) := by
    rintro ⟨c, pos⟩ hm
    have hne : ¬ (pos = .plain ∧ c = ',') := by
      rintro ⟨rfl, rfl⟩
      exact h hm
    simpa using hne
  rw [pieces, marks_append, List.map_append, map_marks (g := (·, false)) hmarks,
    cut_append_unmarked, pieces]

theorem pieces_of_isWhole (h : s.IsWhole cs) : s.pieces (· == ',') cs = [cs] := by
  have := pieces_append_of_isWhole h []
  simpa [pieces, marks, cut] using this

/-- A text that is not whole is cut at its first plain comma, where what precedes is closed. -/
theorem isWhole_or_exists (s : Scan) (cs : List Char) :
    s.IsWhole cs ∨ ∃ piece rest, cs = piece ++ ',' :: rest ∧ s.IsWhole piece ∧
      (s.after piece).isClosed = true := by
  induction cs generalizing s with
  | nil => exact .inl isWhole_nil
  | cons c cs ih =>
    by_cases hc : c = ',' ∧ (s.step c).2 = .plain
    · obtain ⟨rfl, hplain⟩ := hc
      exact .inr ⟨[], cs, rfl, isWhole_nil, isClosed_iff_step_comma.2 hplain⟩
    · obtain hwhole | ⟨piece, rest, rfl, hpiece, hclosed⟩ := ih (s.step c).1
      · exact .inl (isWhole_cons_iff.2 ⟨hc, hwhole⟩)
      · exact .inr ⟨c :: piece, rest, rfl, isWhole_cons_iff.2 ⟨hc, hpiece⟩, hclosed⟩

/-- What holds of whole texts, and of a text that is cut if it holds of what follows the cut, holds
of every text. -/
theorem pieces_induction {P : List Char → Prop} (hwhole : ∀ cs, ({} : Scan).IsWhole cs → P cs)
    (hcut : ∀ piece rest, ({} : Scan).IsWhole piece → (({} : Scan).after piece).isClosed = true →
      P rest → P (piece ++ ',' :: rest)) (cs : List Char) : P cs := by
  induction hn : cs.length using Nat.strongRecOn generalizing cs with
  | ind n ih =>
    obtain h | ⟨piece, rest, rfl, hpiece, hclosed⟩ := isWhole_or_exists {} cs
    · exact hwhole cs h
    · refine hcut piece rest hpiece hclosed (ih rest.length ?_ rest rfl)
      rw [← hn, List.length_append, List.length_cons]
      omega

theorem pieces_cut {piece : List Char} (h : ({} : Scan).IsWhole piece)
    (hclosed : (({} : Scan).after piece).isClosed = true) (rest : List Char) :
    ({} : Scan).pieces (· == ',') (piece ++ ',' :: rest) =
      piece :: ({} : Scan).pieces (· == ',') rest := by
  rw [pieces_append hclosed (by rfl), pieces_of_isWhole h]
  rfl

/-- Each piece is whole, it starts where the scanner is in its initial state, and it is closed if
anything follows it. -/
theorem exists_of_mem_pieces {cs piece : List Char}
    (h : piece ∈ ({} : Scan).pieces (· == ',') cs) :
    ({} : Scan).IsWhole piece ∧ ∃ front back, cs = front ++ piece ++ back ∧
      ({} : Scan).after front = {} ∧
      (back = [] ∨ (({} : Scan).after piece).isClosed = true) := by
  induction cs using pieces_induction with
  | hwhole cs hwhole =>
    rw [pieces_of_isWhole hwhole, List.mem_singleton] at h
    subst h
    exact ⟨hwhole, [], [], by simp, rfl, .inl rfl⟩
  | hcut first rest hfirst hclosed ih =>
    rw [pieces_cut hfirst hclosed] at h
    rcases List.mem_cons.1 h with rfl | h
    · exact ⟨hfirst, [], ',' :: rest, by simp, rfl, .inr hclosed⟩
    · obtain ⟨hwhole, front, back, rfl, hfront, hback⟩ := ih h
      refine ⟨hwhole, first ++ ',' :: front, back, by simp, ?_, hback⟩
      rw [after_comma_of_isClosed hclosed, hfront]

theorem isClosed_of_mem_pieces {cs piece : List Char} (hcs : (({} : Scan).after cs).isClosed = true)
    (h : piece ∈ ({} : Scan).pieces (· == ',') cs) :
    (({} : Scan).after piece).isClosed = true := by
  obtain ⟨-, front, back, rfl, hfront, rfl | hback⟩ := exists_of_mem_pieces h
  · rwa [List.append_nil, after_append, hfront] at hcs
  · exact hback

/-- Every piece but the last is closed, as a plain comma follows it. -/
theorem isClosed_of_mem_dropLast_pieces {cs piece : List Char}
    (h : piece ∈ (({} : Scan).pieces (· == ',') cs).dropLast) :
    (({} : Scan).after piece).isClosed = true := by
  induction cs using pieces_induction with
  | hwhole cs hwhole =>
    rw [pieces_of_isWhole hwhole] at h
    cases h
  | hcut first rest hfirst hclosed ih =>
    rw [pieces_cut hfirst hclosed, List.dropLast_cons_of_ne_nil (pieces_ne_nil _ _ _)] at h
    rcases List.mem_cons.1 h with rfl | h
    · exact hclosed
    · exact ih h

theorem intercalate_pieces (cs : List Char) :
    [','].intercalate (({} : Scan).pieces (· == ',') cs) = cs := by
  induction cs using pieces_induction with
  | hwhole cs hwhole => rw [pieces_of_isWhole hwhole, List.intercalate_singleton]
  | hcut first rest hfirst hclosed ih =>
    obtain ⟨piece, pieces, hpieces⟩ :=
      List.exists_cons_of_ne_nil (({} : Scan).pieces_ne_nil (· == ',') rest)
    rw [pieces_cut hfirst hclosed, hpieces, List.intercalate_cons_cons, ← hpieces, ih,
      List.append_assoc, List.singleton_append]

theorem pieces_intercalate {css : List (List Char)} (hne : css ≠ [])
    (hwhole : ∀ cs ∈ css, ({} : Scan).IsWhole cs)
    (hclosed : ∀ cs ∈ css.dropLast, (({} : Scan).after cs).isClosed = true) :
    ({} : Scan).pieces (· == ',') ([','].intercalate css) = css := by
  induction css with
  | nil => exact absurd rfl hne
  | cons cs rest ih =>
    obtain ⟨hcs, hwhole⟩ := List.forall_mem_cons.1 hwhole
    cases rest with
    | nil => rw [List.intercalate_singleton, pieces_of_isWhole hcs]
    | cons ds rest =>
      rw [List.dropLast_cons_of_ne_nil (by simp)] at hclosed
      obtain ⟨hfirst, hclosed⟩ := List.forall_mem_cons.1 hclosed
      rw [List.intercalate_cons_cons, List.append_assoc, List.singleton_append,
        pieces_cut hcs hfirst, ih (by simp) hwhole hclosed]

theorem isClosed_of_pieces {cs : List Char}
    (h : ∀ p ∈ ({} : Scan).pieces (· == ',') cs, (({} : Scan).after p).isClosed = true) :
    (({} : Scan).after cs).isClosed = true := by
  induction cs using pieces_induction with
  | hwhole cs hwhole =>
    rw [pieces_of_isWhole hwhole] at h
    exact h cs (List.mem_singleton_self cs)
  | hcut piece rest hpiece hclosed ih =>
    rw [pieces_cut hpiece hclosed] at h
    rw [after_comma_of_isClosed hclosed]
    exact ih (List.forall_mem_cons.1 h).2

end Scan

end SelectorIndex.Selector
