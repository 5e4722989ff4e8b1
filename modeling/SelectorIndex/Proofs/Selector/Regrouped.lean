import SelectorIndex.Proofs.Selector.Pieces

/-!
# Groups of groups

A group is read alone as it is read in its selector: it is whole, and so it is its
own only group (`groupTexts_of_mem`). Not so its end. The blanks at the end of a
piece are trimmed even if a backslash escapes the first of them, and then the
group ends in that backslash, swallows a comma after it, and is no longer a group
of the list of the groups. Of a self-contained selector this is all that can go
wrong (`regroup_iff`).
-/

namespace SelectorIndex.Selector

open SelectorIndex.Text

/-- A trimmed text that is whole and ends outside of every span. -/
structure IsGroup (text : List Char) : Prop where
  ne_nil : text ≠ []
  trim_eq : trim text = text
  isWhole : ({} : Scan).IsWhole text
  isOpen_eq : (({} : Scan).after text).isOpen = false

theorem groupTexts_of_isWhole {cs : List Char} (h : ({} : Scan).IsWhole cs) :
    groupTexts cs = [trim cs].filter (!·.isEmpty) := by
  rw [groupTexts, Scan.pieces_of_isWhole h]
  rfl

theorem exists_of_mem_groupTexts {cs text : List Char} (h : text ∈ groupTexts cs) :
    text ≠ [] ∧ ∃ piece ∈ ({} : Scan).pieces (· == ',') cs, trim piece = text := by
  obtain ⟨hmem, hne⟩ := List.mem_filter.1 h
  exact ⟨by simpa using hne, List.mem_map.1 hmem⟩

theorem isWhole_trim {piece : List Char} (h : ({} : Scan).IsWhole piece) :
    ({} : Scan).IsWhole (trim piece) := by
  obtain ⟨front, back, hpiece, hfront, -⟩ := exists_trim piece
  rw [hpiece, Scan.isWhole_append_iff, Scan.isWhole_append_iff, Scan.after_blanks hfront] at h
  exact h.1.2

theorem groupTexts_of_mem {cs text : List Char} (h : text ∈ groupTexts cs) :
    groupTexts text = [text] := by
  obtain ⟨hne, piece, hpiece, rfl⟩ := exists_of_mem_groupTexts h
  obtain ⟨hwhole, -⟩ := Scan.exists_of_mem_pieces hpiece
  rw [groupTexts_of_isWhole (isWhole_trim hwhole), trim_trim]
  simp [hne]

/-- The groups of a closed text end outside of every span. -/
theorem isGroup_of_mem {cs text : List Char} (hcs : (({} : Scan).after cs).isClosed = true)
    (h : text ∈ groupTexts cs) : IsGroup text := by
  obtain ⟨hne, piece, hpiece, rfl⟩ := exists_of_mem_groupTexts h
  obtain ⟨hwhole, -⟩ := Scan.exists_of_mem_pieces hpiece
  refine ⟨hne, trim_trim piece, isWhole_trim hwhole, ?_⟩
  obtain ⟨hopen, -⟩ := Scan.isClosed_iff.1 (Scan.isClosed_of_mem_pieces hcs hpiece)
  obtain ⟨front, back, heq, hfront, hback⟩ := exists_trim piece
  rwa [heq, Scan.isOpen_after_blanks hback, Scan.after_append, Scan.after_blanks hfront] at hopen

namespace IsGroup

variable {text : List Char}

theorem isClosed_iff (h : IsGroup text) :
    (({} : Scan).after text).isClosed = true ↔ endsInBackslash text = false := by
  rw [Scan.isClosed_iff, ne_eq, Scan.escape_after_eq_start_iff, Bool.not_eq_true]
  exact and_iff_right h.isOpen_eq

theorem groupTexts_eq (h : IsGroup text) : groupTexts text = [text] := by
  rw [groupTexts_of_isWhole h.isWhole, h.trim_eq]
  simp [h.ne_nil]

/-- A group that ends in a backslash goes on beyond a comma. -/
theorem groupTexts_append (h : IsGroup text) (hback : endsInBackslash text = true)
    (rest : List Char) :
    ∃ tail texts, tail ≠ [] ∧ groupTexts (text ++ ',' :: rest) = (text ++ tail) :: texts := by
  have hcomma : ((({} : Scan).after text).step ',').2 ≠ .plain := by
    rw [ne_eq, ← Scan.isClosed_iff_step_comma, h.isClosed_iff, hback]
    nofun
  have hwhole : ({} : Scan).IsWhole (text ++ [',']) := by
    refine Scan.isWhole_append_iff.2 ⟨h.isWhole, ?_⟩
    exact Scan.isWhole_cons_iff.2 ⟨fun hplain => hcomma hplain.2, Scan.isWhole_nil⟩
  obtain ⟨run, runs, hruns⟩ := List.exists_cons_of_ne_nil
    ((({} : Scan).after (text ++ [','])).pieces_ne_nil (· == ',') rest)
  have hpieces := Scan.pieces_append_of_isWhole hwhole rest
  rw [hruns, List.append_assoc] at hpieces
  have hne : trimEnd (',' :: run) ≠ [] := trimEnd_ne_nil List.mem_cons_self (by decide)
  have htrim : trim (text ++ ',' :: run) = text ++ trimEnd (',' :: run) := by
    rw [trim_eq_trimEnd, trimEnd_append text hne]
    intro c hc
    cases text with
    | nil => exact absurd rfl h.ne_nil
    | cons d ds =>
      have hfirst : c ∈ (trim (d :: ds)).head? := by
        rw [h.trim_eq]
        exact hc
      exact head?_trim hfirst
  refine ⟨_, (runs.map trim).filter (!·.isEmpty), hne, ?_⟩
  have hlist : text ++ ',' :: rest = text ++ ([','] ++ rest) := rfl
  rw [groupTexts, hlist, hpieces, List.modifyHead_cons, List.map_cons, List.append_assoc]
  show (trim (text ++ ',' :: run) :: _).filter _ = _
  rw [htrim, List.filter_cons_of_pos (by simp [h.ne_nil])]

end IsGroup

theorem map_ofList_eq_iff {css : List (List Char)} {texts : List String} :
    css.map String.ofList = texts ↔ css = texts.map String.toList := by
  constructor
  · rintro rfl
    simp [Function.comp_def]
  · rintro rfl
    simp [Function.comp_def]

/-- Groups joined to a list are its groups, unless one swallows the comma after it. -/
theorem groupTexts_join_iff {texts : List String} (h : ∀ text ∈ texts, IsGroup text.toList) :
    groupTexts (", ".intercalate texts).toList = texts.map String.toList ↔
      ∀ text ∈ texts.dropLast, endsInBackslash text.toList = false := by
  induction texts with
  | nil =>
    rw [String.intercalate_nil]
    exact iff_of_true (by decide) nofun
  | cons text rest ih =>
    obtain ⟨htext, hrest⟩ := List.forall_mem_cons.1 h
    cases rest with
    | nil =>
      rw [String.intercalate_singleton, htext.groupTexts_eq]
      exact iff_of_true rfl nofun
    | cons next rest =>
      rw [intercalate_cons, List.dropLast_cons_of_ne_nil (by simp), List.forall_mem_cons,
        ← ih hrest, List.map_cons]
      cases hback : endsInBackslash text.toList with
      | false =>
        rw [groupTexts_append (htext.isClosed_iff.2 hback), groupTexts_cons_space,
          htext.groupTexts_eq]
        simp
      | true =>
        obtain ⟨tail, texts, hne, heq⟩ :=
          htext.groupTexts_append hback (' ' :: (", ".intercalate (next :: rest)).toList)
        rw [heq]
        simp [hne]

/-- Some blank of the text is escaped: an odd number of backslashes stands before it. -/
def EscapesBlank (cs : List Char) : Prop :=
  ∃ front blank back, cs = front ++ blank :: back ∧ isBlank blank = true ∧
    endsInBackslash front = true

/-- A group of a closed text that ends in a backslash has lost the blank that it escapes. -/
theorem escapesBlank_of_mem {cs text : List Char} (hcs : (({} : Scan).after cs).isClosed = true)
    (h : text ∈ groupTexts cs) (hback : endsInBackslash text = true) : EscapesBlank cs := by
  obtain ⟨-, piece, hpiece, rfl⟩ := exists_of_mem_groupTexts h
  obtain ⟨-, before, after, rfl, hbefore, -⟩ := Scan.exists_of_mem_pieces hpiece
  have hclosed := Scan.isClosed_of_mem_pieces hcs hpiece
  obtain ⟨front, back, heq, hfront, hblank⟩ := exists_trim piece
  generalize trim piece = text at heq hback
  subst heq
  have hstart : (({} : Scan).after (before ++ front ++ text)).escape = .start := by
    rw [Scan.after_append, Scan.after_append, hbefore, Scan.after_blanks hfront]
    exact (Scan.escape_after_eq_start_iff text).2 hback
  cases back with
  | nil =>
    -- nothing is trimmed there, so the piece ends in the backslash as well
    rw [List.append_nil, Scan.after_append, Scan.after_blanks hfront] at hclosed
    exact absurd ((Scan.escape_after_eq_start_iff text).2 hback) (Scan.isClosed_iff.1 hclosed).2
  | cons blank back =>
    exact ⟨before ++ front ++ text, blank, back ++ after, by simp,
      hblank blank List.mem_cons_self, (Scan.escape_after_eq_start_iff _).1 hstart⟩

/-- A group of a self-contained selector is self-contained if it does not end in a backslash that
escapes what follows, and the list of the groups has them for its groups if none but the last
ends so. Both hold of all groups if no blank is escaped. -/
theorem regroup_iff {selector : String} (h : isSelfContained selector = true) :
    let texts := (groups selector).map Group.text
    (∀ text ∈ texts, isSelfContained text = true ↔ endsInBackslash text.toList = false) ∧
    ((groups (", ".intercalate texts)).map Group.text = texts ↔
      ∀ text ∈ texts.dropLast, endsInBackslash text.toList = false) ∧
    (¬ EscapesBlank selector.toList → (∀ text ∈ texts, isSelfContained text = true) ∧
      (groups (", ".intercalate texts)).map Group.text = texts) := by
  intro texts
  have hmem : ∀ text ∈ texts, text.toList ∈ groupTexts selector.toList := by
    intro text htext
    rw [show texts = _ from map_text_groups selector] at htext
    obtain ⟨cs, hcs, rfl⟩ := List.mem_map.1 htext
    rwa [String.toList_ofList]
  have hgroup : ∀ text ∈ texts, IsGroup text.toList := fun text htext =>
    isGroup_of_mem h (hmem text htext)
  have hclosed : ∀ text ∈ texts, isSelfContained text = true ↔
      endsInBackslash text.toList = false := fun text htext => (hgroup text htext).isClosed_iff
  have hjoin : (groups (", ".intercalate texts)).map Group.text = texts ↔
      ∀ text ∈ texts.dropLast, endsInBackslash text.toList = false := by
    rw [map_text_groups, ← groupTexts_join_iff hgroup, map_ofList_eq_iff]
  refine ⟨hclosed, hjoin, fun hblank => ?_⟩
  have hback : ∀ text ∈ texts, endsInBackslash text.toList = false := fun text htext =>
    Bool.eq_false_iff.2 fun hback => hblank (escapesBlank_of_mem h (hmem text htext) hback)
  exact ⟨fun text htext => (hclosed text htext).2 (hback text htext),
    hjoin.2 fun text htext => hback text (List.dropLast_subset texts htext)⟩

/-- A backslash before a backslash, an escaped comma, and one in a string. -/
theorem regroup_iff_escapes :
    let selector := "a\\\\ , b\\,c , [x=','] "
    let texts := ["a\\\\", "b\\,c", "[x=',']"]
    isSelfContained selector = true ∧ (groups selector).map Group.text = texts ∧
    (∀ text ∈ texts, isSelfContained text = true) ∧
    (groups (", ".intercalate texts)).map Group.text = texts := by
  intro selector texts
  have hclosed : isSelfContained selector = true := by decide
  have htexts : (groups selector).map Group.text = texts := by decide
  obtain ⟨hgroup, hjoin, -⟩ := regroup_iff hclosed
  rw [htexts] at hgroup hjoin
  exact ⟨hclosed, htexts, fun text htext => (hgroup text htext).2 (by revert text; decide),
    hjoin.2 (by decide)⟩

/-- The first of two groups loses the blank that it escapes, and with it the comma. -/
theorem regroup_escaped_blank :
    isSelfContained "a\\ ,b" = true ∧ (groups "a\\ ,b").map Group.text = ["a\\", "b"] ∧
    isSelfContained "a\\" = false ∧
    (groups (", ".intercalate ["a\\", "b"])).map Group.text = ["a\\, b"] := by decide

end SelectorIndex.Selector
