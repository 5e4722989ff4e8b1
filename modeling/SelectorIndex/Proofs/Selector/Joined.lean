import SelectorIndex.Proofs.Text.Runs
import SelectorIndex.Selector.Group

/-!
# Joined selectors

A closed text leaves the scanner as it was at the start, up to the tail of a
hexadecimal escape, which a comma ends. So a list of closed selectors has the
groups of its parts: `groupTexts_append` for two texts and
`groupTexts_intercalate` for a whole list.
-/

namespace SelectorIndex.Selector

open SelectorIndex.Text

namespace Scan

theorem step_of_isClosed {s : Scan} (h : s.isClosed = true) {c : Char}
    (hhex : isHexDigit c = false) (hblank : isAsciiBlank c = false) :
    s.step c = ({} : Scan).step c := by
  obtain ⟨parens, brackets, quote, escape⟩ := s
  simp only [isClosed, isOpen, Bool.and_eq_true, Bool.not_eq_true', Bool.or_eq_false_iff,
    bne_eq_false_iff_eq, bne_iff_ne, ne_eq, Option.isSome_eq_false_iff,
    Option.isNone_iff_eq_none] at h
  obtain ⟨⟨⟨rfl, rfl⟩, rfl⟩, hescape⟩ := h
  cases escape with
  | idle => rfl
  | start => exact absurd rfl hescape
  | hex n => simp [step, hhex, hblank]

theorem step_comma_of_isClosed {s : Scan} (h : s.isClosed = true) :
    s.step ',' = ({}, .plain) := by
  rw [step_of_isClosed h (by decide) (by decide)]
  rfl

theorem pieces_append {s : Scan} {cs : List Char} (h : (s.after cs).isClosed = true)
    {p : Char → Bool} (hp : p ',' = true) (ds : List Char) :
    s.pieces p (cs ++ ',' :: ds) = s.pieces p cs ++ ({} : Scan).pieces p ds := by
  rw [pieces, marks_append, marks, step_comma_of_isClosed h, List.map_append, List.map_cons]
  simp only [hp, beq_self_eq_true, Bool.and_self]
  exact cut_append_marked _ _ _

end Scan

theorem groupTexts_append {cs : List Char} (h : (({} : Scan).after cs).isClosed = true)
    (ds : List Char) : groupTexts (cs ++ ',' :: ds) = groupTexts cs ++ groupTexts ds := by
  rw [groupTexts, Scan.pieces_append h (by rfl), List.map_append, List.filter_append]
  rfl

theorem groupTexts_cons_space (cs : List Char) : groupTexts (' ' :: cs) = groupTexts cs := by
  have hstep : ({} : Scan).step ' ' = ({}, .plain) := by decide
  obtain ⟨run, runs, hruns⟩ :=
    List.exists_cons_of_ne_nil (({} : Scan).pieces_ne_nil (· == ',') cs)
  have hpieces : ({} : Scan).pieces (· == ',') (' ' :: cs) = (' ' :: run) :: runs := by
    rw [Scan.pieces] at hruns ⊢
    rw [Scan.marks, hstep, List.map_cons]
    show cut ((' ', false) :: _) = _
    rw [cut, hruns]
    rfl
  rw [groupTexts, groupTexts, hpieces, hruns, List.map_cons, List.map_cons,
    trim_cons_blank (by decide)]

theorem intercalate_cons {s t : String} {rest : List String} :
    (", ".intercalate (s :: t :: rest)).toList =
      s.toList ++ ',' :: ' ' :: (", ".intercalate (t :: rest)).toList := by
  rw [String.intercalate_cons_cons, String.toList_append, String.toList_append, List.append_assoc]
  rfl

/-- The groups of a list of selectors, all but the last closed, are those of its parts. -/
theorem groupTexts_intercalate {ss : List String}
    (h : ∀ s ∈ ss.dropLast, isSelfContained s = true) :
    groupTexts (", ".intercalate ss).toList = ss.flatMap fun s => groupTexts s.toList := by
  induction ss with
  | nil =>
    rw [String.intercalate_nil]
    decide
  | cons s rest ih =>
    cases rest with
    | nil => rw [String.intercalate_singleton, List.flatMap_singleton]
    | cons t rest =>
      rw [intercalate_cons, groupTexts_append (h s List.mem_cons_self), groupTexts_cons_space,
        ih fun u hu => h u (List.mem_cons_of_mem s hu)]
      rfl

end SelectorIndex.Selector
