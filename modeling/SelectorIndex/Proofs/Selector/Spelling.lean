import SelectorIndex.Selector.Name
import SelectorIndex.Selector.Parser
import SelectorIndex.Proofs.Text.Escapes

/-!
# How names are spelled

The grammar and the index each read names from the text, and a class of
characters of their own. `Spells p rest text name` says what both go by: `text`,
in front of `rest`, is a row of characters of the class `p` and of escapes, and
`name` is what they stand for. The two read escapes alike (`Parser.escape_eq`),
so the grammar's names are spelled so (`exists_spells_of_nameChars`), and the
index decodes them to the same (`Spells.decode_eq`). A text is regular if nothing
in it is classed differently by the two.
-/

namespace SelectorIndex.Selector

open SelectorIndex.Text

/-- The text, in front of `rest`, spells a name in characters of a class and escapes. -/
inductive Spells (p : Char → Bool) (rest : List Char) : List Char → List Char → Prop
  | nil : Spells p rest [] []
  | char {c : Char} {text name : List Char} (hne : c ≠ '\\') (hp : p c = true)
      (h : Spells p rest text name) : Spells p rest (c :: text) (c :: name)
  | escape {esc text name : List Char} {c : Char} (hesc : Escape.Spelled (text ++ rest) esc c)
      (h : Spells p rest text name) : Spells p rest ('\\' :: (esc ++ text)) (c :: name)

/-- The grammar and the index read escapes alike. -/
theorem Parser.escape_eq (cs : List Char) :
    Parser.escape cs = (Escape.read? cs).elim (.error .danglingEscape) .ok := by
  rw [Parser.escape, Escape.read?]
  generalize takeHex 6 cs = taken
  obtain ⟨digits, rest⟩ := taken
  cases digits with
  | nil => cases rest <;> rfl
  | cons d digits =>
    have hblank : Escape.dropBlank rest =
        if rest.head?.any isAsciiBlank then rest.tail else rest := by cases rest <;> rfl
    simp only [Escape.scalar_eq, hblank, Option.elim]

theorem exists_spelled_of_escape {cs rest : List Char} {c : Char}
    (h : Parser.escape cs = .ok (c, rest)) :
    ∃ esc, cs = esc ++ rest ∧ Escape.Spelled rest esc c := by
  rw [Parser.escape_eq] at h
  apply Escape.read?_eq_some_iff.1
  cases hr : Escape.read? cs with
  | none =>
    rw [hr] at h
    cases h
  | some r =>
    rw [hr] at h
    cases h
    rfl

theorem escape_of_spelled {rest esc : List Char} {c : Char} (h : Escape.Spelled rest esc c) :
    Parser.escape (esc ++ rest) = .ok (c, rest) := by
  rw [Parser.escape_eq, h.read?_eq]
  rfl

theorem exists_spells_of_nameChars {cs name rest : List Char}
    (h : Parser.nameChars cs = .ok (name, rest)) :
    ∃ text, cs = text ++ rest ∧ Spells Parser.isNameChar rest text name := by
  fun_induction Parser.nameChars cs generalizing name rest with
  | case1 => cases h; exact ⟨[], rfl, .nil⟩
  | case2 c d tail hr hlt name' tail' heq ih =>
    cases h
    obtain ⟨text, rfl, hs⟩ := ih heq
    obtain ⟨esc, rfl, hesc⟩ := exists_spelled_of_escape hr
    exact ⟨'\\' :: (esc ++ text), by simp, .escape hesc hs⟩
  | case3 => cases h
  | case4 => cases h
  | case5 c cs hne hc name' tail heq ih =>
    cases h
    obtain ⟨text, rfl, hs⟩ := ih heq
    exact ⟨c :: text, rfl, .char hne hc hs⟩
  | case6 => cases h
  | case7 => cases h; exact ⟨[], rfl, .nil⟩

theorem exists_spells_of_name {cs rest : List Char} {n : String}
    (h : Parser.name cs = .ok (n, rest)) :
    ∃ text name, cs = text ++ rest ∧ text ≠ [] ∧ n = String.ofList name ∧
      Spells Parser.isNameChar rest text name := by
  unfold Parser.name at h
  split at h
  · cases h
  · rename_i name rest' hne heq
    cases h
    obtain ⟨text, rfl, hs⟩ := exists_spells_of_nameChars heq
    refine ⟨text, name, rfl, fun htext => ?_, rfl, hs⟩
    subst htext
    cases hs
    exact hne rfl
  · cases h

theorem exists_spells_of_quotedChars {quote : Char} {cs text rest : List Char}
    (h : Parser.quotedChars quote cs = .ok (text, rest)) :
    ∃ inner, cs = inner ++ quote :: rest ∧ Spells (· != quote) (quote :: rest) inner text := by
  fun_induction Parser.quotedChars quote cs generalizing text rest with
  | case1 => cases h
  | case2 => cases h; exact ⟨[], rfl, .nil⟩
  | case3 cs d tail hr hlt text' tail' heq _ ih =>
    cases h
    obtain ⟨inner, rfl, hs⟩ := ih heq
    obtain ⟨esc, rfl, hesc⟩ := exists_spelled_of_escape hr
    exact ⟨'\\' :: (esc ++ inner), by simp, .escape hesc hs⟩
  | case4 => cases h
  | case5 => cases h
  | case6 c cs hq hne text' tail heq ih =>
    cases h
    obtain ⟨inner, rfl, hs⟩ := ih heq
    exact ⟨c :: inner, rfl, .char hne (bne_iff_ne.2 hq) hs⟩
  | case7 => cases h

namespace Spells

variable {p : Char → Bool} {rest rest' text name : List Char}

/-- A name can be moved in front of another text, as its last escape can. -/
theorem move (h : Spells p rest text name) (hr : StandsFor rest' rest) :
    Spells p rest' text name := by
  induction h with
  | nil => exact .nil
  | char hne hp _ ih => exact .char hne hp ih
  | @escape esc text name c hesc _ ih => exact .escape (hesc.move (hr.append text)) ih

theorem mono {q : Char → Bool} (hpq : ∀ c, p c = true → q c = true)
    (h : Spells p rest text name) : Spells q rest text name := by
  induction h with
  | nil => exact .nil
  | char hne hp _ ih => exact .char hne (hpq _ hp) ih
  | escape hesc _ ih => exact .escape hesc ih

theorem decode_eq (h : Spells p [] text name) : Escape.decode text = name := by
  induction h with
  | nil => rw [Escape.decode]
  | char hne _ _ ih => rw [Escape.decode, if_neg hne, ih]
  | @escape esc text name c hesc _ ih =>
    rw [List.append_nil] at hesc
    rw [Escape.decode, if_pos rfl]
    split
    · rename_i d tail heq
      rw [hesc.read?_eq] at heq
      cases heq
      rw [ih]
    · rename_i heq
      rw [hesc.read?_eq] at heq
      cases heq

end Spells

/-! ## Regular texts -/

/-- A text without the characters that the grammar and the index class differently, and without
the escapes that only the index minds. -/
structure Regular (cs : List Char) : Prop where
  noVerticalTab : '\x0b' ∉ cs
  noWideBlank : ∀ c ∈ cs, 0x80 ≤ c.toNat → isBlank c = false
  isNameChar : ∀ c ∈ cs, 0x80 ≤ c.toNat → Text.isNameChar c = true
  noEscape : ∀ c ∈ ['#', '.', '\n'], ¬ ['\\', c] <:+: cs

/-- In ASCII, the grammar and the index have the same characters in names. -/
theorem isNameChar_ascii {c : Char} (h : c.toNat < 0x80) :
    Text.isNameChar c = Parser.isNameChar c := by
  exact of_ascii (fun c => Text.isNameChar c = Parser.isNameChar c) (by decide) h

theorem Parser.isNameChar_of_isNameChar {c : Char} (h : Text.isNameChar c = true) :
    Parser.isNameChar c = true := by
  by_cases hlt : c.toNat < 0x80
  · rwa [← isNameChar_ascii hlt]
  · simp [Parser.isNameChar, Nat.le_of_not_lt hlt]

/-- In ASCII, the vertical tab is the only blank that does not separate compounds. -/
theorem isAsciiBlank_ascii {c : Char} (h : c.toNat < 0x80) (hv : c ≠ '\x0b')
    (hblank : isBlank c = true) : isAsciiBlank c = true := by
  exact of_ascii (fun c => c ≠ '\x0b' → isBlank c = true → isAsciiBlank c = true) (by decide) h
    hv hblank

namespace Regular

variable {cs ds : List Char}

theorem of_isInfix (h : Regular cs) (hd : ds <:+: cs) : Regular ds where
  noVerticalTab hv := h.noVerticalTab (hd.subset hv)
  noWideBlank c hc := h.noWideBlank c (hd.subset hc)
  isNameChar c hc := h.isNameChar c (hd.subset hc)
  noEscape c hc he := h.noEscape c hc (he.trans hd)

theorem isAsciiBlank (h : Regular cs) {c : Char} (hc : c ∈ cs) (hblank : isBlank c = true) :
    isAsciiBlank c = true := by
  by_cases hlt : c.toNat < 0x80
  · exact isAsciiBlank_ascii hlt (fun hv => h.noVerticalTab (hv ▸ hc)) hblank
  · rw [h.noWideBlank c hc (Nat.le_of_not_lt hlt)] at hblank
    cases hblank

theorem isNameChar_of_isNameChar (h : Regular cs) {c : Char} (hc : c ∈ cs)
    (hname : Parser.isNameChar c = true) : Text.isNameChar c = true := by
  by_cases hlt : c.toNat < 0x80
  · rwa [isNameChar_ascii hlt]
  · exact h.isNameChar c hc (Nat.le_of_not_lt hlt)

end Regular

/-- The index reads no name at the front of this text. -/
def EndsName (cs : List Char) : Prop := ∀ c ∈ cs.head?, c ≠ '\\' ∧ Text.isNameChar c = false

theorem endsName_nil : EndsName [] := nofun

theorem EndsName.nameSpan_eq {cs : List Char} (h : EndsName cs) : nameSpan cs = ([], cs) := by
  cases cs with
  | nil => rw [nameSpan]
  | cons c cs =>
    obtain ⟨hne, hc⟩ := h c rfl
    rw [nameSpan, if_neg hne, if_neg (by simp [hc])]

theorem EndsName.leadingName?_eq {cs : List Char} (h : EndsName cs) : leadingName? cs = none := by
  rw [leadingName?, h.nameSpan_eq]

/-! ## Sigils -/

section Sigils

variable {sigil : Char} {cs : List Char}

theorem isNameChar_of_sigil (h : sigil = '#' ∨ sigil = '.') : Parser.isNameChar sigil = false := by
  rcases h with rfl | rfl <;> rfl

theorem backslash_ne_of_sigil (h : sigil = '#' ∨ sigil = '.') : '\\' ≠ sigil := by
  rcases h with rfl | rfl <;> decide

/-- No escape goes on at a sigil. -/
theorem endsEscape_of_sigil (h : ∀ c ∈ cs.head?, c = '#' ∨ c = '.') : EndsEscape cs := by
  intro c hc
  rcases h c hc with rfl | rfl <;> decide

theorem endsName_of_sigil (h : ∀ c ∈ cs.head?, c = '#' ∨ c = '.') : EndsName cs := by
  intro c hc
  rcases h c hc with rfl | rfl <;> decide

/-- An escape that has a sigil in it is the escape of that sigil. -/
theorem eq_singleton_of_sigil_mem {rest esc : List Char} {c : Char}
    (hesc : Escape.Spelled rest esc c) (h : sigil = '#' ∨ sigil = '.') (hmem : sigil ∈ esc) :
    esc = [sigil] := by
  have hend : EndsEscape [sigil] := endsEscape_of_sigil fun d hd => by
    cases hd
    exact h
  exact hesc.eq_singleton_of_mem hend hmem

end Sigils

end SelectorIndex.Selector
