import SelectorIndex.Proofs.Selector.Names

/-!
# The first name after a sigil

The index looks for a sigil that a name follows, and an escaped one is as good to
it as any. It comes upon the name after the first unescaped sigil, and reads all
of it, if no name follows an escaped sigil before that, and no line feed is
escaped in the name (`StandsFirst`). A search through two parts of a text is one
through the first part and then one through the second (`Spells.nameAfter?_append`),
so names in which sigils are escaped to no avail are passed over.
-/

namespace SelectorIndex.Selector

open SelectorIndex.Text

/-! ## Up to a sigil and past it -/

def isSigil (c : Char) : Bool := c == '#' || c == '.'

/-- The text up to its first plain character of a class. -/
def upTo (p : Char → Bool) (cs : List Char) : List Char :=
  ((({} : Scan).marks cs).takeWhile fun m => !(m.2 == .plain && p m.1)).map Prod.fst

/-- The text past its first plain character of a class. -/
def past (p : Char → Bool) (cs : List Char) : List Char :=
  ((({} : Scan).marks cs).dropWhile fun m => !(m.2 == .plain && p m.1)).tail.map Prod.fst

section Parts

variable {p : Char → Bool} {rest text name : List Char} {c : Char}

theorem upTo_cons (hc : Scan.isOrdinary c = true) (cs : List Char) :
    upTo p (c :: cs) = if p c then [] else c :: upTo p cs := by
  rw [upTo, marks_cons_ordinary hc, List.takeWhile_cons]
  cases p c <;> simp [upTo]

theorem past_cons (hc : Scan.isOrdinary c = true) (cs : List Char) :
    past p (c :: cs) = if p c then cs else past p cs := by
  rw [past, marks_cons_ordinary hc, List.dropWhile_cons]
  cases p c <;> simp [past]

theorem head?_upTo {cs : List Char} : ∀ c ∈ (upTo p cs).head?, c ∈ cs.head? := by
  intro c hc
  rw [upTo, List.head?_map, List.head?_takeWhile] at hc
  obtain ⟨m, hm, rfl⟩ := Option.map_eq_some_iff.1 hc
  rw [← Scan.map_fst_marks {} cs, List.head?_map, (Option.filter_eq_some_iff.1 hm).1]
  rfl

/-- Outside of the alphabet of names, no character of a name is plain. -/
theorem Spells.not_plain (h : Spells Parser.isNameChar rest text name)
    (hp : ∀ c, p c = true → Parser.isNameChar c = false) :
    ∀ m ∈ ({} : Scan).marks text, (!(m.2 == .plain && p m.1)) = true := by
  intro m hm
  rw [Bool.not_eq_true', Bool.and_eq_false_iff, beq_eq_false_iff_ne]
  refine (h.mem_marks (fun _ => Scan.isOrdinary_of_isNameChar) hm).imp ?_ fun hname => ?_
  · intro hescaped
    rw [hescaped]
    exact nofun
  · apply Bool.eq_false_iff.2
    intro hclass
    rw [hp m.1 hclass] at hname
    cases hname

theorem Spells.upTo_append (h : Spells Parser.isNameChar rest text name)
    (hp : ∀ c, p c = true → Parser.isNameChar c = false) :
    upTo p (text ++ rest) = text ++ upTo p rest := by
  rw [upTo, h.marks_append fun _ => Scan.isOrdinary_of_isNameChar,
    List.takeWhile_append_of_pos (h.not_plain hp), List.map_append, Scan.map_fst_marks, upTo]

theorem Spells.past_append (h : Spells Parser.isNameChar rest text name)
    (hp : ∀ c, p c = true → Parser.isNameChar c = false) :
    past p (text ++ rest) = past p rest := by
  rw [past, h.marks_append fun _ => Scan.isOrdinary_of_isNameChar,
    List.dropWhile_append_of_pos (h.not_plain hp), past]

end Parts

/-! ## Searches -/

/-- A name follows some `sigil` of the text. -/
def HasNameAfter (sigil : Char) (cs : List Char) : Prop :=
  ∃ front back, cs = front ++ sigil :: back ∧ (nameSpan back).1 ≠ []

theorem hasNameAfter_cons_iff {sigil c : Char} {cs : List Char} :
    HasNameAfter sigil (c :: cs) ↔ c = sigil ∧ (nameSpan cs).1 ≠ [] ∨ HasNameAfter sigil cs := by
  constructor
  · rintro ⟨front, back, heq, hne⟩
    cases front with
    | nil =>
      cases heq
      exact .inl ⟨rfl, hne⟩
    | cons d front =>
      cases heq
      exact .inr ⟨front, back, rfl, hne⟩
  · rintro (⟨rfl, hne⟩ | ⟨front, back, rfl, hne⟩)
    · exact ⟨[], cs, rfl, hne⟩
    · exact ⟨c :: front, back, rfl, hne⟩

theorem nameAfter?_cons (sigil c : Char) (cs : List Char) :
    nameAfter? sigil (c :: cs) =
      if c = sigil ∧ (nameSpan cs).1 ≠ [] then some (nameSpan cs).1 else nameAfter? sigil cs := by
  rw [nameAfter?]
  cases h : nameSpan cs with
  | mk name back => cases name <;> split <;> simp [*]

theorem nameAfter?_append_of_notMem {sigil : Char} {front : List Char} (h : sigil ∉ front)
    (rest : List Char) : nameAfter? sigil (front ++ rest) = nameAfter? sigil rest := by
  induction front with
  | nil => rfl
  | cons c front ih =>
    rw [List.mem_cons, not_or] at h
    rw [List.cons_append, nameAfter?, if_neg (Ne.symm h.1), ih h.2]

/-- A name after the sigil at the front is found there. -/
theorem nameAfter?_of_nameSpan {sigil : Char} {cs text rest : List Char}
    (h : nameSpan cs = (text, rest)) (hne : text ≠ []) :
    nameAfter? sigil (sigil :: cs) = some text := by
  rw [nameAfter?_cons, h, if_pos ⟨rfl, hne⟩]

theorem leadingName?_of_nameSpan {cs text rest : List Char} (h : nameSpan cs = (text, rest))
    (hne : text ≠ []) (hbar : rest.head? ≠ some '|') : leadingName? cs = some text := by
  rw [leadingName?, h]
  split
  · rename_i heq
    cases heq
    exact absurd rfl hne
  · rename_i heq
    cases heq
    exact absurd rfl hbar
  · rename_i heq
    cases heq
    rfl

theorem leadingName?_of_nameSpan_nil {text : List Char} (h : nameSpan text = (text, []))
    (hne : text ≠ []) : leadingName? text = some text :=
  leadingName?_of_nameSpan h hne nofun

theorem nameAfter?_eq_none_iff {sigil : Char} {cs : List Char} :
    nameAfter? sigil cs = none ↔ ¬ HasNameAfter sigil cs := by
  induction cs with
  | nil => simp [nameAfter?, HasNameAfter]
  | cons c cs ih =>
    rw [hasNameAfter_cons_iff, nameAfter?_cons, not_or, ← ih]
    split
    · rename_i hname
      simp [hname]
    · rename_i hname
      simp [hname]

instance (sigil : Char) (cs : List Char) : Decidable (HasNameAfter sigil cs) :=
  decidable_of_iff (nameAfter? sigil cs ≠ none)
    (by rw [ne_eq, nameAfter?_eq_none_iff, Classical.not_not])

namespace Spells

variable {p : Char → Bool} {rest text name : List Char}

/-- In front of what ends a name, the index reads as much of a text as it reads of it alone. -/
theorem nameSpan_append (h : Spells p rest text name) (hrest : EndsName rest) :
    nameSpan (text ++ rest) = ((nameSpan text).1, (nameSpan text).2 ++ rest) := by
  induction h with
  | nil =>
    rw [List.nil_append, hrest.nameSpan_eq, endsName_nil.nameSpan_eq]
    rfl
  | char hne _ _ ih =>
    rw [List.cons_append, nameSpan_cons hne, nameSpan_cons hne, ih]
    split <;> rfl
  | @escape esc text name c hesc _ ih =>
    rw [List.cons_append, List.append_assoc, nameSpan_escape hesc,
      nameSpan_escape (hesc.move (standsFor_append text rest)), ih]
    split
    · simp
    · rfl

/-- A search goes through a name first and then through what follows it. -/
theorem nameAfter?_append {sigil : Char} (hsigil : sigil = '#' ∨ sigil = '.')
    (h : Spells Parser.isNameChar rest text name) (hrest : EndsName rest) :
    nameAfter? sigil (text ++ rest) = (nameAfter? sigil text).or (nameAfter? sigil rest) := by
  induction h with
  | nil => rfl
  | @char c text name _ hp _ ih =>
    have hne : c ≠ sigil := by
      rintro rfl
      rw [isNameChar_of_sigil hsigil] at hp
      cases hp
    rw [List.cons_append, nameAfter?, if_neg hne, nameAfter?, if_neg hne, ih]
  | @escape esc text name c hesc h ih =>
    have hslash := backslash_ne_of_sigil hsigil
    rw [List.cons_append, List.append_assoc, nameAfter?, if_neg hslash, nameAfter?, if_neg hslash]
    by_cases hmem : sigil ∈ esc
    · have hspan : (nameSpan (text ++ rest)).1 = (nameSpan text).1 := by
        rw [h.nameSpan_append hrest]
      rw [eq_singleton_of_sigil_mem hesc hsigil hmem, List.singleton_append,
        List.singleton_append, nameAfter?_cons, nameAfter?_cons, hspan, ih]
      split <;> rfl
    · rw [nameAfter?_append_of_notMem hmem, nameAfter?_append_of_notMem hmem, ih]

end Spells

/-! ## First names -/

/-- The name after the first unescaped `sigil` is the first after any, and no line feed is escaped
in it. -/
structure StandsFirst (sigil : Char) (cs : List Char) : Prop where
  notBefore : ¬ HasNameAfter sigil (upTo (· == sigil) cs)
  notEscaped : ¬ Escapes (upTo isSigil (past (· == sigil) cs)) '\n'

instance (sigil : Char) (cs : List Char) : Decidable (StandsFirst sigil cs) :=
  decidable_of_iff (¬ HasNameAfter sigil (upTo (· == sigil) cs) ∧
      ¬ Escapes (upTo isSigil (past (· == sigil) cs)) '\n')
    ⟨fun ⟨hbefore, hescaped⟩ => ⟨hbefore, hescaped⟩, fun h => ⟨h.notBefore, h.notEscaped⟩⟩

theorem isNameChar_of_isSigil {c : Char} (h : isSigil c = true) : Parser.isNameChar c = false := by
  rw [isSigil, Bool.or_eq_true, beq_iff_eq, beq_iff_eq] at h
  exact isNameChar_of_sigil h

section StandsFirst

variable {sigil c : Char} {rest text name : List Char}

theorem standsFirst_nil (sigil : Char) : StandsFirst sigil [] := by
  refine ⟨?_, by simp [past, upTo, Scan.marks, Escapes]⟩
  rintro ⟨front, back, heq, -⟩
  exact List.append_ne_nil_of_right_ne_nil front (List.cons_ne_nil sigil back) heq.symm

theorem standsFirst_cons_iff (hc : Scan.isOrdinary c = true) (hne : c ≠ sigil) :
    StandsFirst sigil (c :: rest) ↔ StandsFirst sigil rest := by
  have hbefore : upTo (· == sigil) (c :: rest) = c :: upTo (· == sigil) rest := by
    rw [upTo_cons hc, if_neg (by simpa using hne)]
  have hpast : past (· == sigil) (c :: rest) = past (· == sigil) rest := by
    rw [past_cons hc, if_neg (by simpa using hne)]
  constructor
  · rintro ⟨h, hescaped⟩
    rw [hbefore, hasNameAfter_cons_iff, not_or] at h
    exact ⟨h.2, hpast ▸ hescaped⟩
  · rintro ⟨h, hescaped⟩
    refine ⟨?_, hpast ▸ hescaped⟩
    rw [hbefore, hasNameAfter_cons_iff]
    exact not_or.2 ⟨fun heq => hne heq.1, h⟩

/-- A name before the first unescaped sigil is in the way just if something is found in it. -/
theorem standsFirst_append_iff (hsigil : sigil = '#' ∨ sigil = '.')
    (hname : Spells Parser.isNameChar rest text name)
    (hrest : ∀ c ∈ rest.head?, c = '#' ∨ c = '.') :
    StandsFirst sigil (text ++ rest) ↔ ¬ HasNameAfter sigil text ∧ StandsFirst sigil rest := by
  have hclass (c : Char) (hc : (c == sigil) = true) : Parser.isNameChar c = false := by
    rw [beq_iff_eq.1 hc, isNameChar_of_sigil hsigil]
  have hhead : ∀ c ∈ (upTo (· == sigil) rest).head?, c = '#' ∨ c = '.' :=
    fun c hc => hrest c (head?_upTo c hc)
  have hbefore : ¬ HasNameAfter sigil (upTo (· == sigil) (text ++ rest)) ↔
      ¬ HasNameAfter sigil text ∧ ¬ HasNameAfter sigil (upTo (· == sigil) rest) := by
    rw [hname.upTo_append hclass, ← nameAfter?_eq_none_iff, ← nameAfter?_eq_none_iff,
      ← nameAfter?_eq_none_iff, (hname.move (.inr (endsEscape_of_sigil hhead))).nameAfter?_append
        hsigil (endsName_of_sigil hhead), Option.or_eq_none_iff]
  have hpast : past (· == sigil) (text ++ rest) = past (· == sigil) rest :=
    hname.past_append hclass
  constructor
  · rintro ⟨h, hescaped⟩
    obtain ⟨htext, h⟩ := hbefore.1 h
    exact ⟨htext, h, hpast ▸ hescaped⟩
  · rintro ⟨htext, h, hescaped⟩
    exact ⟨hbefore.2 ⟨htext, h⟩, hpast ▸ hescaped⟩

theorem upTo_isSigil_eq_nil (hrest : ∀ c ∈ rest.head?, c = '#' ∨ c = '.') :
    upTo isSigil rest = [] := by
  cases rest with
  | nil => rfl
  | cons c rest =>
    have hc := hrest c rfl
    rw [upTo_cons (isOrdinary_of_sigil hc), if_pos]
    rcases hc with rfl | rfl <;> rfl

theorem standsFirst_sigil_iff (hsigil : sigil = '#' ∨ sigil = '.')
    (hname : Spells Parser.isNameChar rest text name)
    (hrest : ∀ c ∈ rest.head?, c = '#' ∨ c = '.') :
    StandsFirst sigil (sigil :: (text ++ rest)) ↔ ¬ Escapes text '\n' := by
  have hbefore : upTo (· == sigil) (sigil :: (text ++ rest)) = [] := by
    rw [upTo_cons (isOrdinary_of_sigil hsigil), if_pos (beq_self_eq_true sigil)]
  have hnext : upTo isSigil (past (· == sigil) (sigil :: (text ++ rest))) = text := by
    rw [past_cons (isOrdinary_of_sigil hsigil), if_pos (beq_self_eq_true sigil),
      hname.upTo_append fun _ => isNameChar_of_isSigil, upTo_isSigil_eq_nil hrest,
      List.append_nil]
  constructor
  · rintro ⟨-, hescaped⟩
    rwa [hnext] at hescaped
  · intro hescaped
    refine ⟨?_, by rwa [hnext]⟩
    rw [hbefore]
    exact (standsFirst_nil sigil).notBefore

end StandsFirst

theorem Legible.not_hasNameAfter {rest text name : List Char} (h : Legible text)
    (hname : Spells Parser.isNameChar rest text name) {sigil : Char}
    (hsigil : sigil = '#' ∨ sigil = '.') : ¬ HasNameAfter sigil text := by
  rintro ⟨front, back, rfl, -⟩
  exact h.sigil_notMem hname hsigil (by simp)

end SelectorIndex.Selector
