import SelectorIndex.Selector.NamePattern
import SelectorIndex.Proofs.NameKeys
import SelectorIndex.Proofs.Selector.Reread
import SelectorIndex.Proofs.Text.Patterns

/-!
# Names found by patterns

The index reads names as the patterns of names find them: a unit of the pattern
is what the index reads at once (`unit_cases`), so the longest name at the front
is the match that the pattern settles on (`head?_name`), and the first sigil with
a name after it is where the search stops (`map_fst_capture?_afterSigil`). What is
found is spelled in characters that the grammar has in its names too
(`exists_spells_nameSpan`). Cut out of its token, it is therefore a name to its end
for the grammar, and decoded alike (`captured_names_read`).
-/

namespace SelectorIndex

open SelectorIndex.Text

namespace Selector

variable {cs esc text rest : List Char} {c : Char}

/-! ## Escapes in names -/

theorem nameEscape?_eq_some (h : nameEscape? cs = some (esc, rest)) :
    cs = esc ++ rest ∧ esc.head? ≠ some '\n' ∧ ∃ c, Escape.Spelled rest esc c := by
  have hne : cs ≠ [] := by
    rintro rfl
    cases h
  obtain ⟨esc', c, rest', rfl, hesc⟩ := Escape.exists_spelled hne
  rw [nameEscape?_eq hesc] at h
  split at h
  · cases h
  · rename_i hline
    cases h
    exact ⟨rfl, hline, c, hesc⟩

namespace NamePattern

open SelectorIndex.Text.Pattern

theorem head?_hexDigits {digits : List Char} (hne : digits ≠ [])
    (hrun : IsHexRun 6 digits rest) :
    (hexDigits.ways (digits ++ rest)).head? = some (digits, rest) := by
  obtain ⟨c, digits, rfl⟩ := List.exists_cons_of_ne_nil hne
  have hc := head?_one_of_pos (hrun.isHexDigit c List.mem_cons_self) (digits ++ rest)
  exact head?_andThen_of_some hc (head?_repeated_hexDigits hrun.tail)

theorem head?_hexCode {digits : List Char} (hne : digits ≠ []) (hrun : IsHexRun 6 digits rest)
    (hblank : ∀ c ∈ rest.head?, isAsciiBlank c = false) :
    (hexCode.ways (digits ++ rest)).head? = some (digits, rest) := by
  have hno : ((one isAsciiBlank).ways rest).head? = none := by
    cases rest with
    | nil => rfl
    | cons c rest => simp [head?_one, hblank c rfl]
  have hcode := head?_andThen_of_some (head?_hexDigits hne hrun) (head?_repeated_of_none hno 1)
  rwa [List.append_nil] at hcode

theorem head?_hexCode_blank {digits : List Char} (hne : digits ≠ []) {b : Char}
    (hrun : IsHexRun 6 digits (b :: rest)) (hblank : isAsciiBlank b = true) :
    (hexCode.ways (digits ++ b :: rest)).head? = some (digits ++ [b], rest) := by
  have hb : ((atMostOnce (one isAsciiBlank)).ways (b :: rest)).head? = some ([b], rest) :=
    head?_repeated_of_some (head?_one_of_pos hblank rest) rfl
  exact head?_andThen_of_some (head?_hexDigits hne hrun) hb

theorem hexCode_eq_nil (h : isHexDigit c = false) (rest : List Char) :
    hexCode.ways (c :: rest) = [] := by
  simp [hexCode, hexDigits, ways, andThen, h]

theorem ways_unit_backslash (cs : List Char) :
    unit.ways ('\\' :: cs) =
      (hexCode.ways cs ++ (one (· != '\n')).ways cs).map (prepend ['\\']) := by
  have hname : isNameChar '\\' = false := by decide
  rw [unit, ways, ways, ways, hexEscape, charEscape, ways_char_seq, ways_char_seq,
    List.map_append, if_neg (by simp [hname]), List.nil_append]

/-- The pattern of an escape settles on what the index reads as one. -/
theorem head?_unit_escape (h : Escape.Spelled rest esc c) :
    (unit.ways ('\\' :: (esc ++ rest))).head? =
      if esc.head? = some '\n' then none else some ('\\' :: esc, rest) := by
  have hdigit {digits : List Char} (hne : digits ≠ [])
      (hall : ∀ c ∈ digits, isHexDigit c = true) : digits.head? ≠ some '\n' := by
    intro hline
    exact absurd (hall '\n' (List.mem_of_mem_head? hline)) (by decide)
  rw [ways_unit_backslash, List.head?_map, List.head?_append]
  cases h with
  | char h =>
    rw [List.singleton_append, hexCode_eq_nil h, head?_one]
    by_cases hline : c = '\n'
    · simp [hline]
    · simp [hline, prepend]
  | hex hne hrun hblank =>
    rw [head?_hexCode hne hrun hblank, if_neg (hdigit hne hrun.isHexDigit)]
    rfl
  | @hexBlank digits b hne hrun hblank =>
    have hline : (digits ++ [b]).head? ≠ some '\n' := by
      rw [List.head?_append_of_ne_nil _ hne]
      exact hdigit hne hrun.isHexDigit
    rw [List.append_assoc, List.singleton_append, head?_hexCode_blank hne hrun hblank,
      if_neg hline]
    rfl

-- The ways of an escape overlap: shorter ones come later, and so does the escape of one character.
example : unit.ways "\\4 b".toList =
    [("\\4 ".toList, ['b']), ("\\4".toList, [' ', 'b']), ("\\4".toList, [' ', 'b'])] := by
  decide +kernel

theorem head?_unit_of_ne (hne : c ≠ '\\') (cs : List Char) :
    (unit.ways (c :: cs)).head? = if isNameChar c then some ([c], cs) else none := by
  have hslash (b : Pattern) : (seq (char '\\') b).ways (c :: cs) = [] := by
    simp [ways, char, andThen, hne]
  have hescapes : (alt hexEscape charEscape).ways (c :: cs) = [] := by
    rw [ways, hexEscape, charEscape, hslash, hslash, List.append_nil]
  rw [unit, ways, hescapes, List.append_nil, head?_one]

/-! ## Names -/

/-- Where the pattern of a unit fails, the index reads no name, and where it matches, a name goes
on after the match. -/
theorem unit_cases (cs : List Char) :
    ((unit.ways cs).head? = none ∧ nameSpan cs = ([], cs)) ∨
    ∃ front mid, (unit.ways cs).head? = some (front, mid) ∧ front ≠ [] ∧
      mid.length < cs.length ∧ nameSpan cs = (front ++ (nameSpan mid).1, (nameSpan mid).2) := by
  fun_cases nameSpan cs with
  | case1 => exact .inl ⟨rfl, rfl⟩
  | case2 cs text rest h hlt name tail hspan =>
    obtain ⟨rfl, hline, c, hesc⟩ := nameEscape?_eq_some h
    refine .inr ⟨'\\' :: text, rest, ?_, List.cons_ne_nil _ _, Nat.lt_succ_of_lt hlt, ?_⟩
    · rw [head?_unit_escape hesc, if_neg hline]
    · rw [hspan]
  | case3 cs h =>
    refine .inl ⟨?_, rfl⟩
    cases cs with
    | nil => rfl
    | cons c cs =>
      obtain ⟨esc, d, rest, heq, hesc⟩ := Escape.exists_spelled (List.cons_ne_nil c cs)
      rw [heq, nameEscape?_eq hesc] at h
      rw [heq, head?_unit_escape hesc]
      split at h
      · rename_i hline
        rw [if_pos hline]
      · cases h
  | case4 c cs hne hc name tail hspan =>
    refine .inr ⟨[c], cs, ?_, List.cons_ne_nil _ _, Nat.lt_succ_self _, ?_⟩
    · rw [head?_unit_of_ne hne, if_pos hc]
    · rw [hspan]
      rfl
  | case5 c cs hne hc => exact .inl ⟨by rw [head?_unit_of_ne hne, if_neg hc], rfl⟩

/-- With as many turns as there are characters, units are taken as far as the name goes. -/
theorem head?_repeated_unit {n : Nat} (h : cs.length ≤ n) :
    (repeated unit.ways n cs).head? = some (nameSpan cs) := by
  induction n generalizing cs with
  | zero =>
    rw [List.eq_nil_of_length_eq_zero (Nat.le_zero.1 h), nameSpan]
    rfl
  | succ n ih =>
    rcases unit_cases cs with ⟨hunit, hspan⟩ | ⟨front, mid, hunit, -, hlt, hspan⟩
    · rw [head?_repeated_of_none hunit, hspan]
    · rw [hspan]
      exact head?_repeated_of_some hunit (ih (by omega))

/-- The pattern of a name settles on the longest name at the front. -/
theorem head?_name (cs : List Char) :
    (name.ways cs).head? = if (nameSpan cs).1 = [] then none else some (nameSpan cs) := by
  rcases unit_cases cs with ⟨hunit, hspan⟩ | ⟨front, mid, hunit, hne, -, hspan⟩
  · rw [name, atLeastOnce, ways, andThen_of_none hunit, if_pos (by rw [hspan])]
    rfl
  · have hmany : ((many unit).ways mid).head? = some (nameSpan mid) :=
      head?_repeated_unit (Nat.le_refl _)
    rw [if_neg (by simp [hspan, hne]), hspan]
    exact head?_andThen_of_some hunit hmany

/-! ## The search -/

theorem captureHere?_afterSigil (sigil c : Char) (cs : List Char) :
    (afterSigil sigil).captureHere? (c :: cs) =
      if c = sigil then (name.ways cs).head? else none := by
  by_cases hc : c = sigil
  · simp [Finder.captureHere?, afterSigil, char, ways, hc]
  · simp [Finder.captureHere?, afterSigil, char, ways, hc]

/-- A search for a sigil and a name stops at the first sigil that a name follows. -/
theorem map_fst_capture?_afterSigil (sigil : Char) (cs : List Char) :
    ((afterSigil sigil).capture? cs).map Prod.fst = nameAfter? sigil cs := by
  induction cs with
  | nil => rfl
  | cons c cs ih =>
    rw [Finder.capture?_cons rfl, captureHere?_afterSigil, nameAfter?, head?_name, ← ih]
    split
    · obtain ⟨found, back⟩ := nameSpan cs
      cases found <;> rfl
    · rw [Option.none_or]

theorem capture?_atStart (cs : List Char) : atStart.capture? cs = (name.ways cs).head? := by
  rw [Finder.capture?_of_anchored rfl]
  simp [Finder.captureHere?, atStart, ways]

/-- At the start, the index has no use for a name that a bar follows. -/
theorem leadingName?_eq_capture? (cs : List Char) :
    leadingName? cs = (atStart.capture? cs).bind fun m =>
      if m.2.head? = some '|' then none else some m.1 := by
  rw [capture?_atStart, head?_name, leadingName?]
  obtain ⟨found, back⟩ := nameSpan cs
  cases found with
  | nil => rfl
  | cons c found =>
    split
    · rename_i heq
      cases heq
    · rename_i heq
      cases heq
      rfl
    · rename_i hbar heq
      cases heq
      have hhead : back.head? ≠ some '|' := fun hhead =>
        (List.head?_eq_some_iff.1 hhead).elim hbar
      rw [if_neg (List.cons_ne_nil c found), Option.bind_some, if_neg hhead]

end NamePattern

/-! ## Names of the index and of the grammar -/

/-- What the index reads as a name is spelled in characters of its own. -/
theorem exists_spells_nameSpan (cs : List Char) :
    (nameSpan cs).1 ++ (nameSpan cs).2 = cs ∧
      ∃ name, Spells Text.isNameChar (nameSpan cs).2 (nameSpan cs).1 name := by
  fun_induction nameSpan cs with
  | case1 => exact ⟨rfl, [], .nil⟩
  | case2 cs esc rest h hlt text back hspan ih =>
    obtain ⟨rfl, -, c, hesc⟩ := nameEscape?_eq_some h
    rw [hspan] at ih
    obtain ⟨rfl, name, hname⟩ := ih
    exact ⟨by simp, c :: name, .escape hesc hname⟩
  | case3 => exact ⟨rfl, [], .nil⟩
  | case4 c cs hne hc text back hspan ih =>
    rw [hspan] at ih
    obtain ⟨rfl, name, hname⟩ := ih
    exact ⟨rfl, c :: name, .char hne hc hname⟩
  | case5 => exact ⟨rfl, [], .nil⟩

/-- Cut out of its text, what the index reads as a name is one for the grammar, to its end. -/
theorem name_of_nameSpan (h : nameSpan cs = (text, rest)) (hne : text ≠ []) :
    Parser.name text = .ok (Classifier.decodedName text, []) := by
  obtain ⟨-, name, hname⟩ := exists_spells_nameSpan cs
  rw [h] at hname
  have hspells : Spells Parser.isNameChar [] text name :=
    (hname.mono fun _ => Parser.isNameChar_of_isNameChar).move (.inr endsEscape_nil)
  have hname_ne : name ≠ [] := by
    rintro rfl
    exact hne hspells.eq_nil
  have hread := hspells.name_eq hname_ne nofun
  rwa [List.append_nil, ← decodedName_of_spells hspells] at hread

theorem NamePattern.name_of_capture? {f : Finder} (hf : f.group = NamePattern.name)
    (h : f.capture? cs = some (text, rest)) :
    Parser.name text = .ok (Classifier.decodedName text, []) := by
  obtain ⟨tail, htail⟩ := Finder.exists_head?_of_capture? h
  rw [hf, head?_name] at htail
  split at htail
  · cases htail
  · rename_i hne
    have hspan : nameSpan tail = (text, rest) := Option.some.inj htail
    rw [hspan] at hne
    exact name_of_nameSpan hspan hne

end Selector

namespace Classifier

open Selector

variable {cs : List Char} {token key : String}

theorem byId_tokenKey?_eq (token : String) :
    byId.tokenKey? token =
      ((NamePattern.afterSigil '#').capture? token.toList).map fun m => decodedName m.1 := by
  simp only [byId, ← NamePattern.map_fst_capture?_afterSigil, Option.map_map, Function.comp_def]

theorem byClass_tokenKey?_eq (token : String) :
    byClass.tokenKey? token =
      ((NamePattern.afterSigil '.').capture? token.toList).map fun m => decodedName m.1 := by
  simp only [byClass, ← NamePattern.map_fst_capture?_afterSigil, Option.map_map,
    Function.comp_def]

theorem byTag_tokenKey?_eq_some_iff :
    byTag.tokenKey? token = some key ↔
      ∃ text rest, NamePattern.atStart.capture? token.toList = some (text, rest) ∧
        rest.head? ≠ some '|' ∧ upperName (decodedName text) = key := by
  simp only [byTag, NamePattern.leadingName?_eq_capture?, Option.map_eq_some_iff,
    Option.bind_eq_some_iff]
  constructor
  · rintro ⟨found, ⟨⟨text, rest⟩, hcapture, hname⟩, hkey⟩
    split at hname
    · cases hname
    · rename_i hbar
      cases hname
      exact ⟨text, rest, hcapture, hbar, hkey⟩
  · rintro ⟨text, rest, hcapture, hbar, hkey⟩
    exact ⟨text, ⟨(text, rest), hcapture, if_neg hbar⟩, hkey⟩

theorem map_decodedName_capture?_iff {f : Finder} (hf : f.group = NamePattern.name) :
    ((f.capture? cs).map fun m => decodedName m.1) = some key ↔
      ∃ text rest, f.capture? cs = some (text, rest) ∧ Parser.name text = .ok (key, []) := by
  rw [Option.map_eq_some_iff]
  constructor
  · rintro ⟨⟨text, rest⟩, hcapture, rfl⟩
    exact ⟨text, rest, hcapture, NamePattern.name_of_capture? hf hcapture⟩
  · rintro ⟨text, rest, hcapture, hread⟩
    rw [NamePattern.name_of_capture? hf hcapture] at hread
    cases hread
    exact ⟨(text, rest), hcapture, rfl⟩

/-- What an index reads as a name, by any of the three patterns, the grammar reads to its end as
the same name; so the key of a token is what the grammar reads in it. -/
theorem captured_names_read (token : String) :
    (∀ f ∈ NamePattern.finders, ∀ text rest, f.capture? token.toList = some (text, rest) →
      Parser.name text = .ok (decodedName text, [])) ∧
    (∀ key, byId.tokenKey? token = some key ↔
      ∃ text rest, (NamePattern.afterSigil '#').capture? token.toList = some (text, rest) ∧
        Parser.name text = .ok (key, [])) ∧
    (∀ key, byClass.tokenKey? token = some key ↔
      ∃ text rest, (NamePattern.afterSigil '.').capture? token.toList = some (text, rest) ∧
        Parser.name text = .ok (key, [])) ∧
    (∀ key, byTag.tokenKey? token = some key ↔
      ∃ text rest name, NamePattern.atStart.capture? token.toList = some (text, rest) ∧
        rest.head? ≠ some '|' ∧ Parser.name text = .ok (name, []) ∧ upperName name = key) := by
  have hgroup : ∀ f ∈ NamePattern.finders, f.group = NamePattern.name := by
    intro f hf
    simp only [NamePattern.finders, List.mem_cons, List.not_mem_nil, or_false] at hf
    rcases hf with rfl | rfl | rfl <;> rfl
  refine ⟨fun f hf text rest h => NamePattern.name_of_capture? (hgroup f hf) h, fun key => ?_,
    fun key => ?_, fun key => ?_⟩
  · rw [byId_tokenKey?_eq, map_decodedName_capture?_iff rfl]
  · rw [byClass_tokenKey?_eq, map_decodedName_capture?_iff rfl]
  · rw [byTag_tokenKey?_eq_some_iff]
    constructor
    · rintro ⟨text, rest, hcapture, hbar, hkey⟩
      exact ⟨text, rest, _, hcapture, hbar, NamePattern.name_of_capture? rfl hcapture, hkey⟩
    · rintro ⟨text, rest, name, hcapture, hbar, hread, hkey⟩
      rw [NamePattern.name_of_capture? rfl hcapture] at hread
      cases hread
      exact ⟨text, rest, hcapture, hbar, hkey⟩

theorem captured_names_read_escapes :
    NamePattern.atStart.capture? "b\\31\\00004110é\\ .\\#c".toList =
      some ("b\\31\\00004110é\\ ".toList, ".\\#c".toList) ∧
    Parser.name "b\\31\\00004110é\\ ".toList = .ok ("b1A10é ", []) ∧
    (NamePattern.afterSigil '.').capture? "b\\31\\00004110é\\ .\\#c".toList =
      some ("\\#c".toList, []) ∧
    Parser.name "\\#c".toList = .ok ("#c", []) := by
  have htag : NamePattern.atStart.capture? "b\\31\\00004110é\\ .\\#c".toList =
      some ("b\\31\\00004110é\\ ".toList, ".\\#c".toList) := by decide +kernel
  have hclass : (NamePattern.afterSigil '.').capture? "b\\31\\00004110é\\ .\\#c".toList =
      some ("\\#c".toList, []) := by decide +kernel
  obtain ⟨hread, -⟩ := captured_names_read "b\\31\\00004110é\\ .\\#c"
  refine ⟨htag, ?_, hclass, ?_⟩
  · rw [hread _ (by simp [NamePattern.finders]) _ _ htag]
    decide +kernel
  · rw [hread _ (by simp [NamePattern.finders]) _ _ hclass]
    decide +kernel

end Classifier
end SelectorIndex
