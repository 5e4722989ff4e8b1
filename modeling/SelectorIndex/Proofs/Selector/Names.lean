import SelectorIndex.Proofs.Selector.Scanned

/-!
# Names that the index reads whole

The index reads a name as far as the grammar does just if the characters that
stand for themselves in it are of the index's own alphabet and no line feed is
escaped (`Spells.nameSpan_eq_iff`), and it meets no sigil in a name unless one is
escaped there (`Spells.notMem`). What is escaped, the scanner says: `Escapes`. A
text of which all this holds is legible, and so is every regular one.
-/

namespace SelectorIndex.Selector

open SelectorIndex.Text

/-! ## Escaped characters -/

/-- Outside of spans, a backslash escapes this very character. -/
def Escapes (cs : List Char) (c : Char) : Prop :=
  [('\\', .escaped), (c, .escaped)] <:+: ({} : Scan).marks cs

instance (cs : List Char) (c : Char) : Decidable (Escapes cs c) :=
  inferInstanceAs (Decidable (_ <:+: _))

namespace Escapes

variable {cs front back : List Char} {c : Char}

theorem isInfix (h : Escapes cs c) : ['\\', c] <:+: cs := by
  have := h.map Prod.fst
  rwa [Scan.map_fst_marks] at this

theorem append_right (h : Escapes front c) (back : List Char) : Escapes (front ++ back) c := by
  obtain ⟨ms, ms', hms⟩ := h
  refine ⟨ms, ms' ++ (({} : Scan).after front).marks back, ?_⟩
  rw [Scan.marks_append, ← hms]
  simp

theorem append_left (h : Escapes back c) (hmarks : ({} : Scan).marks (front ++ back) =
      ({} : Scan).marks front ++ ({} : Scan).marks back) :
    Escapes (front ++ back) c := by
  obtain ⟨ms, ms', hms⟩ := h
  refine ⟨({} : Scan).marks front ++ ms, ms', ?_⟩
  rw [hmarks, ← hms]
  simp

end Escapes

/-! ## Names -/

section Marks

variable {p : Char → Bool} {rest text name : List Char} {c d : Char}

/-- In a name, what is not part of an escape is of the class. -/
theorem Spells.mem_marks (hp : ∀ c, p c = true → Scan.isOrdinary c = true)
    (h : Spells p rest text name) {m : Char × Position} (hm : m ∈ ({} : Scan).marks text) :
    m.2 = .escaped ∨ p m.1 = true := by
  have hstep (c : Char) (_ : c ≠ '\\') (hc : p c = true) : ({} : Scan).step c = ({}, .plain) :=
    Scan.step_ordinary rfl rfl (hp c hc)
  exact ((Scan.marks_of_spells rfl hstep h).2 m hm).imp_right And.right

theorem Spells.marks_append (hp : ∀ c, p c = true → Scan.isOrdinary c = true)
    (h : Spells p rest text name) :
    ({} : Scan).marks (text ++ rest) = ({} : Scan).marks text ++ ({} : Scan).marks rest :=
  (Scan.marks_of_spells rfl (fun c _ hc => Scan.step_ordinary rfl rfl (hp c hc)) h).1

theorem marks_cons_ordinary (hc : Scan.isOrdinary c = true) (cs : List Char) :
    ({} : Scan).marks (c :: cs) = (c, .plain) :: ({} : Scan).marks cs := by
  rw [Scan.marks, Scan.step_ordinary rfl rfl hc]
  rfl

theorem escapes_cons_iff (hc : Scan.isOrdinary c = true) :
    Escapes (c :: text) d ↔ Escapes text d := by
  rw [Escapes, marks_cons_ordinary hc, List.infix_cons_iff]
  refine or_iff_right fun hprefix => ?_
  cases (List.cons_prefix_cons.1 hprefix).1

theorem head?_marks_escaped (h : (({} : Scan).marks text).head? = some (d, .escaped)) :
    d = '\\' := by
  cases text with
  | nil => cases h
  | cons c text =>
    have hmark : (c, (({} : Scan).step c).2) = (d, .escaped) := Option.some.inj h
    obtain ⟨rfl, hpos⟩ := Prod.mk.inj hmark
    cases hordinary : Scan.isOrdinary c with
    | true =>
      rw [Scan.step_ordinary rfl rfl hordinary] at hpos
      cases hpos
    | false =>
      rw [Scan.isOrdinary, Bool.not_eq_false', List.contains_iff_mem] at hordinary
      simp only [Scan.delimiters, List.mem_cons, List.not_mem_nil, or_false] at hordinary
      rcases hordinary with rfl | rfl | rfl | rfl | rfl | rfl | rfl
      · rfl
      all_goals cases hpos

/-- An escape of two parts is one of either. -/
theorem Escapes.of_append
    (hmarks : ({} : Scan).marks (text ++ rest) = ({} : Scan).marks text ++ ({} : Scan).marks rest)
    (hd : d ≠ '\\') (h : Escapes (text ++ rest) d) : Escapes text d ∨ Escapes rest d := by
  rw [Escapes, hmarks, List.infix_append_iff_ne_nil] at h
  rcases h with h | h | ⟨ms, ms', hms, hms', heq, -, back, hback⟩
  · exact .inl h
  · exact .inr h
  · -- the backslash would end the first part, and the second start in the middle of the escape
    obtain ⟨m, ms, rfl⟩ := List.exists_cons_of_ne_nil hms
    obtain ⟨m', ms', rfl⟩ := List.exists_cons_of_ne_nil hms'
    cases ms with
    | cons => simp at heq
    | nil =>
      obtain ⟨-, htail⟩ := List.cons.inj heq
      obtain ⟨rfl, -⟩ := List.cons.inj htail
      have hhead : (({} : Scan).marks rest).head? = some (d, .escaped) := by
        rw [← hback]
        rfl
      exact absurd (head?_marks_escaped hhead) hd

theorem marks_escape_append {esc : List Char} (hesc : Escape.Spelled (text ++ rest) esc c) :
    ({} : Scan).marks ('\\' :: (esc ++ text)) =
      ('\\' :: esc).map (·, .escaped) ++ ({} : Scan).marks text :=
  Scan.marks_escape rfl (hesc.move (standsFor_append text rest))

/-- An escape in front of a text escapes what is right at the front. -/
theorem escapes_escape_iff {esc : List Char} (hesc : Escape.Spelled (text ++ rest) esc c)
    (hd : d ≠ '\\') : Escapes ('\\' :: (esc ++ text)) d ↔ esc.head? = some d ∨ Escapes text d := by
  have hmarks := marks_escape_append hesc
  have halone : ({} : Scan).marks ('\\' :: esc) = ('\\' :: esc).map (·, .escaped) := by
    have := Scan.marks_escape (s := {}) rfl (hesc.move (.inr endsEscape_nil))
    rwa [List.append_nil, Scan.marks, List.append_nil] at this
  have hne := hesc.ne_nil
  constructor
  · intro h
    rw [← halone] at hmarks
    have hcases : Escapes ('\\' :: esc) d ∨ Escapes text d :=
      Escapes.of_append hmarks hd h
    refine hcases.imp_left fun h => ?_
    rw [Escapes, halone, List.map_cons, List.infix_cons_iff] at h
    rcases h with hprefix | hinfix
    · obtain ⟨e, esc, rfl⟩ := List.exists_cons_of_ne_nil hne
      have hhead := (List.cons_prefix_cons.1 (List.cons_prefix_cons.1 hprefix).2).1
      exact congrArg some (Prod.mk.inj hhead).1.symm
    · -- the part after the backslash is one character, or digits and a blank
      have hmem : '\\' ∈ esc := by
        have := hinfix.subset List.mem_cons_self
        simpa using this
      rcases hesc.mem_cases with rfl | hall
      · exact absurd hinfix.length_le (by simp)
      · exact absurd (hall _ hmem) (by decide)
  · rintro (hhead | ⟨ms, ms', hms⟩)
    · obtain ⟨esc', rfl⟩ := List.head?_eq_some_iff.1 hhead
      refine ⟨[], esc'.map (·, .escaped) ++ ({} : Scan).marks text, ?_⟩
      rw [hmarks]
      rfl
    · refine ⟨('\\' :: esc).map (·, .escaped) ++ ms, ms', ?_⟩
      rw [hmarks, ← hms]
      simp

end Marks

/-! ## Names that are read whole -/

/-- The index reads the name to its end: the characters that stand for themselves are of its own
alphabet, and no line feed is escaped. -/
structure Intact (text : List Char) : Prop where
  isNameChar : ∀ m ∈ ({} : Scan).marks text, m.2 = .plain → Text.isNameChar m.1 = true
  notEscaped : ¬ Escapes text '\n'

instance (text : List Char) : Decidable (Intact text) :=
  decidable_of_iff ((∀ m ∈ ({} : Scan).marks text, m.2 = .plain → Text.isNameChar m.1 = true) ∧
      ¬ Escapes text '\n')
    ⟨fun ⟨hname, hescaped⟩ => ⟨hname, hescaped⟩, fun h => ⟨h.isNameChar, h.notEscaped⟩⟩

section Intact

variable {rest text esc : List Char} {c : Char}

theorem intact_nil : Intact [] := ⟨nofun, by decide⟩

theorem intact_cons_iff (hc : Scan.isOrdinary c = true) :
    Intact (c :: text) ↔ Text.isNameChar c = true ∧ Intact text := by
  constructor
  · rintro ⟨hname, hescaped⟩
    rw [marks_cons_ordinary hc, List.forall_mem_cons] at hname
    exact ⟨hname.1 rfl, hname.2, mt (escapes_cons_iff hc).2 hescaped⟩
  · rintro ⟨hc', hname, hescaped⟩
    refine ⟨?_, mt (escapes_cons_iff hc).1 hescaped⟩
    rw [marks_cons_ordinary hc, List.forall_mem_cons]
    exact ⟨fun _ => hc', hname⟩

theorem intact_escape_iff (hesc : Escape.Spelled (text ++ rest) esc c) :
    Intact ('\\' :: (esc ++ text)) ↔ esc.head? ≠ some '\n' ∧ Intact text := by
  have hplain : (∀ m ∈ ({} : Scan).marks ('\\' :: (esc ++ text)), m.2 = .plain →
      Text.isNameChar m.1 = true) ↔
      ∀ m ∈ ({} : Scan).marks text, m.2 = .plain → Text.isNameChar m.1 = true := by
    rw [marks_escape_append hesc, List.forall_mem_append]
    refine and_iff_right fun m hm hplain => ?_
    obtain ⟨d, -, rfl⟩ := List.mem_map.1 hm
    cases hplain
  have hescaped := escapes_escape_iff hesc (d := '\n') (by decide)
  constructor
  · rintro ⟨hname, hnot⟩
    rw [hescaped, not_or] at hnot
    exact ⟨hnot.1, hplain.1 hname, hnot.2⟩
  · rintro ⟨hhead, hname, hnot⟩
    exact ⟨hplain.2 hname, mt hescaped.1 (not_or.2 ⟨hhead, hnot⟩)⟩

theorem nameSpan_cons (hne : c ≠ '\\') (cs : List Char) :
    nameSpan (c :: cs) =
      if Text.isNameChar c then (c :: (nameSpan cs).1, (nameSpan cs).2) else ([], c :: cs) := by
  rw [nameSpan, if_neg hne]

theorem nameEscape?_eq (hesc : Escape.Spelled rest esc c) :
    nameEscape? (esc ++ rest) = if esc.head? = some '\n' then none else some (esc, rest) := by
  obtain ⟨d, esc, rfl⟩ := List.exists_cons_of_ne_nil hesc.ne_nil
  rw [nameEscape?, hesc.split?_eq]
  rfl

theorem nameSpan_escape (hesc : Escape.Spelled rest esc c) :
    nameSpan ('\\' :: (esc ++ rest)) =
      if esc.head? = some '\n' then ([], '\\' :: (esc ++ rest))
      else ('\\' :: (esc ++ (nameSpan rest).1), (nameSpan rest).2) := by
  have hread := nameEscape?_eq hesc
  rw [nameSpan, if_pos rfl]
  split
  · rename_i heq
    rw [hread] at heq
    split at heq
    · cases heq
    · rename_i hline
      cases heq
      rw [if_neg hline]
      rfl
  · rename_i heq
    rw [hread] at heq
    split at heq
    · rename_i hline
      rw [if_pos hline]
    · cases heq

end Intact

namespace Spells

variable {rest text name : List Char}

/-- The index reads a name as far as the grammar does just if it is intact. -/
theorem nameSpan_eq_iff (h : Spells Parser.isNameChar rest text name) (hstop : EndsName rest) :
    nameSpan (text ++ rest) = (text, rest) ↔ Intact text := by
  induction h with
  | nil => exact iff_of_true hstop.nameSpan_eq intact_nil
  | @char c text name hne hp _ ih =>
    rw [List.cons_append, nameSpan_cons hne, intact_cons_iff (Scan.isOrdinary_of_isNameChar hp),
      ← ih]
    split
    · rename_i hc
      simp [hc, Prod.ext_iff]
    · rename_i hc
      simp [hc]
  | @escape esc text name c hesc _ ih =>
    rw [List.cons_append, List.append_assoc, nameSpan_escape hesc, intact_escape_iff hesc, ← ih]
    split
    · rename_i hline
      simp [hline]
    · rename_i hline
      simp [hline, Prod.ext_iff]

/-- No sigil stands in a name but an escaped one. -/
theorem notMem (h : Spells Parser.isNameChar rest text name) {sigil : Char}
    (hsigil : sigil = '#' ∨ sigil = '.') (hesc : ¬ Escapes text sigil) : sigil ∉ text := by
  induction h with
  | nil => exact List.not_mem_nil
  | @char c text name _ hp _ ih =>
    rw [List.mem_cons, not_or]
    have htail := mt (escapes_cons_iff (Scan.isOrdinary_of_isNameChar hp)).2 hesc
    refine ⟨?_, ih htail⟩
    rintro rfl
    rw [isNameChar_of_sigil hsigil] at hp
    cases hp
  | @escape esc text name c hspelled _ ih =>
    have hne := (backslash_ne_of_sigil hsigil).symm
    obtain ⟨hhead, htail⟩ := not_or.1 (mt (escapes_escape_iff hspelled hne).2 hesc)
    rw [List.mem_cons, List.mem_append, not_or, not_or]
    refine ⟨hne, fun hmem => ?_, ih htail⟩
    rw [eq_singleton_of_sigil_mem hspelled hsigil hmem] at hhead
    exact hhead rfl

end Spells

/-! ## Legible texts -/

/-- The characters of the text that the grammar has in names, the index has there too. -/
def SharesAlphabet (cs : List Char) : Prop :=
  ∀ c ∈ cs, Parser.isNameChar c = true → Text.isNameChar c = true

namespace SharesAlphabet

variable {text rest : List Char} {c : Char}

theorem of_cons (h : SharesAlphabet (c :: text)) : SharesAlphabet text :=
  fun d hd => h d (List.mem_cons_of_mem c hd)

theorem of_append_right (h : SharesAlphabet (text ++ rest)) : SharesAlphabet text :=
  fun d hd => h d (List.mem_append_left rest hd)

theorem of_append_left (h : SharesAlphabet (text ++ rest)) : SharesAlphabet rest :=
  fun d hd => h d (List.mem_append_right text hd)

end SharesAlphabet

theorem Spells.intact {rest text name : List Char} (h : Spells Parser.isNameChar rest text name)
    (hshared : SharesAlphabet text) (hline : ¬ Escapes text '\n') : Intact text where
  isNameChar m hm hplain := by
    have hmem : m.1 ∈ (({} : Scan).marks text).map Prod.fst := List.mem_map_of_mem hm
    rw [Scan.map_fst_marks] at hmem
    rcases h.mem_marks (fun _ => Scan.isOrdinary_of_isNameChar) hm with hescaped | hclass
    · rw [hplain] at hescaped
      cases hescaped
    · exact hshared m.1 hmem hclass
  notEscaped := hline

/-- A text whose names the index reads as the grammar does. -/
structure Legible (cs : List Char) : Prop where
  isNameChar : ∀ c ∈ cs, Parser.isNameChar c = true → Text.isNameChar c = true
  notEscaped : ∀ c ∈ ['#', '.', '\n'], ¬ Escapes cs c

theorem Regular.legible {cs : List Char} (h : Regular cs) : Legible cs where
  isNameChar _ hc := h.isNameChar_of_isNameChar hc
  notEscaped c hc := mt Escapes.isInfix (h.noEscape c hc)

theorem isOrdinary_of_sigil {sigil : Char} (h : sigil = '#' ∨ sigil = '.') :
    Scan.isOrdinary sigil = true := by
  rcases h with rfl | rfl <;> decide

namespace Legible

variable {text rest name : List Char} {c : Char}

theorem of_cons (h : Legible (c :: text)) (hc : Scan.isOrdinary c = true) : Legible text where
  isNameChar := SharesAlphabet.of_cons h.isNameChar
  notEscaped d hd := mt (escapes_cons_iff hc).2 (h.notEscaped d hd)

theorem of_append_right (h : Legible (text ++ rest)) : Legible text where
  isNameChar := SharesAlphabet.of_append_right h.isNameChar
  notEscaped d hd hesc := h.notEscaped d hd (hesc.append_right rest)

theorem of_append_left (h : Legible (text ++ rest))
    (hname : Spells Parser.isNameChar rest text name) : Legible rest where
  isNameChar := SharesAlphabet.of_append_left h.isNameChar
  notEscaped d hd hesc := h.notEscaped d hd
    (hesc.append_left (hname.marks_append fun _ => Scan.isOrdinary_of_isNameChar))

theorem append (h : Legible text) (hrest : Legible rest)
    (hname : Spells Parser.isNameChar rest text name) : Legible (text ++ rest) where
  isNameChar d hd := (List.mem_append.1 hd).elim (h.isNameChar d) (hrest.isNameChar d)
  notEscaped d hd hesc := by
    have hmarks := hname.marks_append fun _ => Scan.isOrdinary_of_isNameChar
    have hne : d ≠ '\\' := fun heq => by
      rw [heq] at hd
      exact absurd hd (by decide)
    rcases hesc.of_append hmarks hne with hesc | hesc
    · exact h.notEscaped d hd hesc
    · exact hrest.notEscaped d hd hesc

theorem cons (h : Legible text) (hc : Scan.isOrdinary c = true)
    (hname : Parser.isNameChar c = false) : Legible (c :: text) where
  isNameChar d hd := by
    rcases List.mem_cons.1 hd with rfl | hd
    · rw [hname]
      exact nofun
    · exact h.isNameChar d hd
  notEscaped d hd := mt (escapes_cons_iff hc).1 (h.notEscaped d hd)

theorem sigil_notMem (h : Legible text) (hname : Spells Parser.isNameChar rest text name)
    {sigil : Char} (hsigil : sigil = '#' ∨ sigil = '.') : sigil ∉ text := by
  refine hname.notMem hsigil (h.notEscaped sigil ?_)
  rcases hsigil with rfl | rfl <;> simp

end Legible

end SelectorIndex.Selector
