import SelectorIndex.Proofs.Keys

/-!
# Keys of names

The grammar and the index read a name unit by unit, a unit being a character or
an escape, and agree on what each unit stands for. The index may stop before the
grammar does (`Spells.exists_nameSpan`), and what it reads after a sigil further
on is shorter still (`Spells.length_lt_of_nameAfter?`). So the key that a
classifier reads off a name is the name just if the name is intact
(`name_keys_iff_intact`).
-/

namespace SelectorIndex

open SelectorIndex.Text

namespace Selector

variable {p : Char → Bool} {text name : List Char}

/-! ## What the index reads of a name -/

theorem Spells.eq_nil (h : Spells p [] text []) : text = [] := by
  cases h
  rfl

/-- The index reads a name up to some unit, and decodes the units before it. -/
theorem Spells.exists_nameSpan (h : Spells p [] text name) :
    ∃ front back n₁ n₂, nameSpan text = (front, back) ∧ text = front ++ back ∧
      name = n₁ ++ n₂ ∧ Spells p back front n₁ ∧ Spells p [] back n₂ := by
  induction h with
  | nil => exact ⟨[], [], [], [], by rw [nameSpan], rfl, rfl, .nil, .nil⟩
  | @char c text name hne hp h ih =>
    rw [nameSpan_cons hne]
    split
    · obtain ⟨front, back, n₁, n₂, hspan, rfl, rfl, hfront, hback⟩ := ih
      rw [hspan]
      exact ⟨c :: front, back, c :: n₁, n₂, rfl, rfl, rfl, .char hne hp hfront, hback⟩
    · exact ⟨[], c :: text, [], c :: name, rfl, rfl, rfl, .nil, .char hne hp h⟩
  | @escape esc text name c hesc h ih =>
    have hspan := nameSpan_escape hesc
    rw [List.append_nil] at hspan
    rw [hspan]
    split
    · exact ⟨[], _, [], c :: name, rfl, rfl, rfl, .nil, .escape hesc h⟩
    · obtain ⟨front, back, n₁, n₂, hspan, rfl, rfl, hfront, hback⟩ := ih
      rw [List.append_nil] at hesc
      rw [hspan]
      exact ⟨'\\' :: (esc ++ front), back, c :: n₁, n₂, rfl, by simp, rfl, .escape hesc hfront,
        hback⟩

theorem Spells.of_nameSpan (h : Spells p [] text name) {found back : List Char}
    (hspan : nameSpan text = (found, back)) :
    ∃ rest, name = Escape.decode found ++ rest ∧ Spells p [] back rest := by
  obtain ⟨front, back', n₁, n₂, hspan', -, rfl, hfront, hback⟩ := h.exists_nameSpan
  obtain ⟨rfl, rfl⟩ := Prod.mk.inj (hspan'.symm.trans hspan)
  exact ⟨n₂, by rw [(hfront.move (.inr endsEscape_nil)).decode_eq], hback⟩

theorem nameAfter?_cons_cases {sigil : Char} {cs found : List Char}
    (h : nameAfter? sigil (sigil :: cs) = some found) :
    (∃ back, nameSpan cs = (found, back)) ∨ nameAfter? sigil cs = some found := by
  rw [nameAfter?_cons] at h
  split at h
  · cases h
    exact .inl ⟨_, rfl⟩
  · exact .inr h

/-- What the index reads after a sigil within a name lacks at least the escape of that sigil. -/
theorem Spells.length_lt_of_nameAfter? {sigil : Char} (hsigil : sigil = '#' ∨ sigil = '.')
    (h : Spells Parser.isNameChar [] text name) {found : List Char}
    (hfound : nameAfter? sigil text = some found) :
    (Escape.decode found).length < name.length := by
  induction h with
  | nil => cases hfound
  | @char c text name _ hp _ ih =>
    have hne : c ≠ sigil := by
      rintro rfl
      rw [isNameChar_of_sigil hsigil] at hp
      cases hp
    rw [nameAfter?, if_neg hne] at hfound
    exact Nat.lt_succ_of_lt (ih hfound)
  | @escape esc text name c hesc h ih =>
    rw [nameAfter?, if_neg (backslash_ne_of_sigil hsigil)] at hfound
    by_cases hmem : sigil ∈ esc
    · rw [eq_singleton_of_sigil_mem hesc hsigil hmem, List.singleton_append] at hfound
      rcases nameAfter?_cons_cases hfound with ⟨back, hspan⟩ | hfound
      · obtain ⟨rest, rfl, -⟩ := h.of_nameSpan hspan
        rw [List.length_cons, List.length_append]
        omega
      · exact Nat.lt_succ_of_lt (ih hfound)
    · rw [nameAfter?_append_of_notMem hmem] at hfound
      exact Nat.lt_succ_of_lt (ih hfound)

theorem exists_nameSpan_of_leadingName? {cs found : List Char} (h : leadingName? cs = some found) :
    ∃ back, nameSpan cs = (found, back) := by
  unfold leadingName? at h
  split at h
  · cases h
  · cases h
  · rename_i heq
    cases h
    exact ⟨_, heq⟩

theorem upperChar_ne_nil (c : Char) : upperChar c ≠ [] := by
  have hlong : ∀ entry ∈ longUpperCase, entry.2 ≠ [] := by decide
  unfold upperChar
  split
  · exact List.cons_ne_nil _ _
  · split
    · rename_i codes hcodes
      obtain ⟨front, back, heq, -⟩ := List.lookup_eq_some_iff.1 hcodes
      rw [ne_eq, List.map_eq_nil_iff]
      exact hlong (c.toNat, codes) (heq ▸ by simp)
    · split
      · exact List.cons_ne_nil _ _
      · exact List.cons_ne_nil _ _

theorem eq_nil_of_upper_eq_nil {cs : List Char} (h : upper cs = []) : cs = [] := by
  cases cs with
  | nil => rfl
  | cons c cs => exact absurd (List.append_eq_nil_iff.1 h).1 (upperChar_ne_nil c)

/-! ## Keys -/

theorem Spells.intact_of_nameSpan (h : Spells Parser.isNameChar [] text name)
    {found : List Char} (hspan : nameSpan text = (found, [])) : Intact text := by
  obtain ⟨front, back, n₁, n₂, hspan', htext, -⟩ := h.exists_nameSpan
  obtain ⟨rfl, rfl⟩ := Prod.mk.inj (hspan'.symm.trans hspan)
  rw [List.append_nil] at htext
  refine (h.nameSpan_eq_iff endsName_nil).1 ?_
  rw [List.append_nil, hspan, ← htext]

theorem nameAfter?_eq_iff {sigil : Char} (hsigil : sigil = '#' ∨ sigil = '.')
    (h : Spells Parser.isNameChar [] text name) (hne : text ≠ []) :
    (nameAfter? sigil (sigil :: text)).map Classifier.decodedName = some (String.ofList name) ↔
      Intact text := by
  constructor
  · intro hkey
    obtain ⟨found, hfound, hname⟩ := Option.map_eq_some_iff.1 hkey
    have hdecode : Escape.decode found = name := String.ofList_injective hname
    rcases nameAfter?_cons_cases hfound with ⟨back, hspan⟩ | hfound
    · obtain ⟨rest, hrest, hback⟩ := h.of_nameSpan hspan
      rw [hdecode, List.self_eq_append_right] at hrest
      rw [hrest] at hback
      rw [hback.eq_nil] at hspan
      exact h.intact_of_nameSpan hspan
    · have := h.length_lt_of_nameAfter? hsigil hfound
      rw [hdecode] at this
      exact absurd this (Nat.lt_irrefl _)
  · intro hintact
    have hspan := (h.nameSpan_eq_iff endsName_nil).2 hintact
    rw [List.append_nil] at hspan
    rw [nameAfter?_of_nameSpan hspan hne, Option.map_some, decodedName_of_spells h]

theorem leadingName?_eq_iff (h : Spells Parser.isNameChar [] text name) (hne : text ≠ []) :
    (leadingName? text).map (fun found => Classifier.upperName (Classifier.decodedName found)) =
      some (Classifier.upperName (String.ofList name)) ↔ Intact text := by
  constructor
  · intro hkey
    obtain ⟨found, hfound, hname⟩ := Option.map_eq_some_iff.1 hkey
    obtain ⟨back, hspan⟩ := exists_nameSpan_of_leadingName? hfound
    obtain ⟨rest, rfl, hback⟩ := h.of_nameSpan hspan
    have hupper : upper rest = [] := by
      have := String.ofList_injective hname
      simpa [Classifier.decodedName, upper] using this
    rw [eq_nil_of_upper_eq_nil hupper] at hback
    rw [hback.eq_nil] at hspan
    exact h.intact_of_nameSpan hspan
  · intro hintact
    have hspan := (h.nameSpan_eq_iff endsName_nil).2 hintact
    rw [List.append_nil] at hspan
    rw [leadingName?_of_nameSpan_nil hspan hne, Option.map_some, decodedName_of_spells h]

end Selector

namespace Classifier

open Selector

/-- The key that a classifier reads off a name, in the position that it minds, is the name just
if the name is intact: a character beyond the index's alphabet or an escaped line feed cuts it. -/
theorem name_keys_iff_intact {text name : String} (h : Parser.name text.toList = .ok (name, [])) :
    (byId.tokenKey? ("#" ++ text) = some name ↔ Intact text.toList) ∧
    (byClass.tokenKey? ("." ++ text) = some name ↔ Intact text.toList) ∧
    (byTag.tokenKey? text = some (upperName name) ↔ Intact text.toList) := by
  obtain ⟨text', chars, heq, hne, rfl, hspells⟩ := exists_spells_of_name h
  rw [List.append_nil] at heq
  subst heq
  have hid : ("#" ++ text).toList = '#' :: text.toList := String.toList_append
  have hclass : ("." ++ text).toList = '.' :: text.toList := String.toList_append
  simp only [byId, byClass, byTag, hid, hclass]
  exact ⟨nameAfter?_eq_iff (.inl rfl) hspells hne, nameAfter?_eq_iff (.inr rfl) hspells hne,
    leadingName?_eq_iff hspells hne⟩

theorem name_keys_iff_intact_escapes :
    Parser.name "\\31 0é\\#".toList = .ok ("10é#", []) ∧
    byId.tokenKey? "#\\31 0é\\#" = some "10é#" ∧
    byClass.tokenKey? ".\\31 0é\\#" = some "10é#" ∧
    byTag.tokenKey? "\\31 0é\\#" = some (upperName "10é#") := by
  have hname : Parser.name "\\31 0é\\#".toList = .ok ("10é#", []) := by decide +kernel
  have hintact : Intact "\\31 0é\\#".toList := by decide +kernel
  obtain ⟨hid, hclass, htag⟩ := name_keys_iff_intact hname
  exact ⟨hname, hid.2 hintact, hclass.2 hintact, htag.2 hintact⟩

/-- A character beyond the alphabet of the index cuts a name, and so does an escaped line feed. -/
theorem name_keys_cut :
    Parser.name "a😀".toList = .ok ("a😀", []) ∧
    byId.tokenKey? "#a😀" = some "a" ∧ byClass.tokenKey? ".a😀" = some "a" ∧
    byTag.tokenKey? "a😀" = some "A" ∧
    Parser.name "a\\\nb".toList = .ok ("a\nb", []) ∧
    byId.tokenKey? "#a\\\nb" = some "a" := by
  decide +kernel

end Classifier

end SelectorIndex
