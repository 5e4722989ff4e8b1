import SelectorIndex.Text.Escape

/-!
# How escapes are spelled

An escape is read with what follows it in view: a hexadecimal escape goes on as
long as digits do, and takes a blank after them. `Spelled rest esc c` says that
`esc`, in front of `rest`, is the part after the backslash of an escape of `c`.
Only the first character of `rest` matters for it, so an escape can be moved to
another place.
-/

namespace SelectorIndex.Text

theorem of_ascii (P : Char → Prop) (hall : ∀ n : Fin 0x80, P (Char.ofNat n)) {c : Char}
    (h : c.toNat < 0x80) : P c := by
  have := hall ⟨c.toNat, h⟩
  rwa [Char.ofNat_toNat] at this

/-- No hexadecimal escape goes on into this text. -/
def EndsEscape (cs : List Char) : Prop :=
  ∀ c ∈ cs.head?, isHexDigit c = false ∧ isAsciiBlank c = false

@[simp] theorem endsEscape_nil : EndsEscape [] := nofun

theorem endsEscape_cons {c : Char} {cs : List Char} (hhex : isHexDigit c = false)
    (hblank : isAsciiBlank c = false) : EndsEscape (c :: cs) := by
  intro d hd
  cases hd
  exact ⟨hhex, hblank⟩

/-- Where an escape stands in front of `rest`, it can stand in front of `rest'`. -/
def StandsFor (rest' rest : List Char) : Prop := rest'.head? = rest.head? ∨ EndsEscape rest'

theorem StandsFor.refl (rest : List Char) : StandsFor rest rest := .inl rfl

theorem StandsFor.append {rest rest' : List Char} (h : StandsFor rest' rest) (text : List Char) :
    StandsFor (text ++ rest') (text ++ rest) := by
  cases text with
  | nil => exact h
  | cons c text => exact .inl rfl

/-- A text can do without what follows it. -/
theorem standsFor_append (text rest : List Char) : StandsFor text (text ++ rest) := by
  cases text with
  | nil => exact .inr endsEscape_nil
  | cons c text => exact .inl rfl

theorem isHexDigit_of_isAsciiBlank {c : Char} (h : isAsciiBlank c = true) :
    isHexDigit c = false := by
  simp only [isAsciiBlank, Bool.or_eq_true, beq_iff_eq] at h
  rcases h with (((rfl | rfl) | rfl) | rfl) | rfl <;> decide

/-! ## Runs of digits -/

/-- At most `n` digits, in front of a text that continues them only if they are `n`. -/
structure IsHexRun (n : Nat) (digits rest : List Char) : Prop where
  length_le : digits.length ≤ n
  isHexDigit : ∀ c ∈ digits, isHexDigit c = true
  stops : ∀ c ∈ rest.head?, Text.isHexDigit c = true → digits.length = n

theorem isHexRun_nil {n : Nat} {c : Char} {rest : List Char} (h : isHexDigit c = false) :
    IsHexRun n [] (c :: rest) := by
  refine ⟨Nat.zero_le n, nofun, fun d hd hhex => ?_⟩
  cases hd
  rw [h] at hhex
  cases hhex

theorem IsHexRun.isHexDigit_head {n : Nat} {c : Char} {rest : List Char}
    (h : IsHexRun (n + 1) [] (c :: rest)) : Text.isHexDigit c = false :=
  Bool.eq_false_iff.2 fun hhex => nomatch h.stops c rfl hhex

theorem IsHexRun.tail {n : Nat} {c : Char} {digits rest : List Char}
    (h : IsHexRun (n + 1) (c :: digits) rest) : IsHexRun n digits rest where
  length_le := Nat.le_of_succ_le_succ h.length_le
  isHexDigit d hd := h.isHexDigit d (List.mem_cons_of_mem c hd)
  stops d hd hhex := Nat.succ.inj (h.stops d hd hhex)

theorem IsHexRun.takeHex_eq {n : Nat} {digits rest : List Char} (h : IsHexRun n digits rest) :
    takeHex n (digits ++ rest) = (digits.filterMap hexValue?, rest) := by
  induction n generalizing digits with
  | zero =>
    rw [List.eq_nil_of_length_eq_zero (Nat.le_zero.1 h.length_le)]
    rfl
  | succ n ih =>
    cases digits with
    | nil =>
      cases rest with
      | nil => rfl
      | cons c rest =>
        have hc : hexValue? c = none :=
          Option.isNone_iff_eq_none.1 (Option.isSome_eq_false_iff.1 h.isHexDigit_head)
        simp [takeHex, hc]
    | cons c digits =>
      obtain ⟨d, hd⟩ := Option.isSome_iff_exists.1 (h.isHexDigit c List.mem_cons_self)
      simp [takeHex, hd, ih h.tail]

theorem exists_isHexRun (n : Nat) (cs : List Char) :
    ∃ digits rest, cs = digits ++ rest ∧ IsHexRun n digits rest := by
  induction n generalizing cs with
  | zero => exact ⟨[], cs, rfl, Nat.le_refl 0, nofun, fun _ _ _ => rfl⟩
  | succ n ih =>
    cases cs with
    | nil => exact ⟨[], [], rfl, Nat.zero_le _, nofun, nofun⟩
    | cons c cs =>
      cases hc : isHexDigit c with
      | false =>
        refine ⟨[], c :: cs, rfl, Nat.zero_le _, nofun, fun d hd hhex => ?_⟩
        cases hd
        rw [hc] at hhex
        cases hhex
      | true =>
        obtain ⟨digits, rest, rfl, hrun⟩ := ih cs
        exact ⟨c :: digits, rest, rfl, Nat.succ_le_succ hrun.length_le,
          List.forall_mem_cons.2 ⟨hc, hrun.isHexDigit⟩,
          fun d hd hhex => congrArg Nat.succ (hrun.stops d hd hhex)⟩

def hexNumber (digits : List Char) : Nat := ofHex (digits.filterMap hexValue?)

namespace Escape

theorem scalar_eq (code : Nat) :
    scalar code = if Char.ofNat code = '\u0000' then '\ufffd' else Char.ofNat code := by
  rw [scalar]
  by_cases hvalid : code.isValidChar
  · by_cases hzero : code = 0
    · subst hzero
      rfl
    · have hcode : (Char.ofNat code).toNat = code := by
        rw [Char.ofNat, dif_pos hvalid]
        rfl
      have hne : Char.ofNat code ≠ '\u0000' := by
        intro hnull
        rw [hnull] at hcode
        exact hzero hcode.symm
      rw [if_pos ⟨hzero, hvalid⟩, if_neg hne]
  · have hnull : Char.ofNat code = '\u0000' := by
      rw [Char.ofNat, dif_neg hvalid]
      rfl
    rw [if_neg fun h => hvalid h.2, if_pos hnull]

/-! ## Escapes in place -/

/-- The text, in front of `rest`, is what follows the backslash of an escape of a character. -/
inductive Spelled (rest : List Char) : List Char → Char → Prop
  | char {c : Char} (h : isHexDigit c = false) : Spelled rest [c] c
  | hex {digits : List Char} (hne : digits ≠ []) (hrun : IsHexRun 6 digits rest)
      (hblank : ∀ c ∈ rest.head?, isAsciiBlank c = false) :
      Spelled rest digits (scalar (hexNumber digits))
  | hexBlank {digits : List Char} {b : Char} (hne : digits ≠ [])
      (hrun : IsHexRun 6 digits (b :: rest)) (hblank : isAsciiBlank b = true) :
      Spelled rest (digits ++ [b]) (scalar (hexNumber digits))

theorem read?_of_isHexRun {digits rest : List Char} (hne : digits ≠ [])
    (hrun : IsHexRun 6 digits rest) :
    read? (digits ++ rest) = some (scalar (hexNumber digits), dropBlank rest) := by
  obtain ⟨c, cs, rfl⟩ := List.exists_cons_of_ne_nil hne
  obtain ⟨d, hd⟩ := Option.isSome_iff_exists.1 (hrun.isHexDigit c List.mem_cons_self)
  rw [read?, hrun.takeHex_eq, hexNumber, List.filterMap_cons_some hd]

theorem width_of_isHexRun {digits rest : List Char} (hne : digits ≠ [])
    (hrun : IsHexRun 6 digits rest) :
    width (digits ++ rest) = digits.length + if rest.head?.any isAsciiBlank then 1 else 0 := by
  have hlen : (digits.filterMap hexValue?).length = digits.length :=
    List.filterMap_length_eq_length.2 hrun.isHexDigit
  obtain ⟨c, cs, rfl⟩ := List.exists_cons_of_ne_nil hne
  obtain ⟨d, hd⟩ := Option.isSome_iff_exists.1 (hrun.isHexDigit c List.mem_cons_self)
  rw [List.filterMap_cons_some hd] at hlen
  rw [width, hrun.takeHex_eq, List.filterMap_cons_some hd, ← hlen, List.length_cons]
  dsimp only
  split <;> rfl

theorem read?_eq_some_iff {cs rest : List Char} {c : Char} :
    read? cs = some (c, rest) ↔ ∃ esc, cs = esc ++ rest ∧ Spelled rest esc c := by
  constructor
  · intro h
    obtain ⟨digits, tail, rfl, hrun⟩ := exists_isHexRun 6 cs
    by_cases hne : digits = []
    · subst hne
      cases tail with
      | nil => cases h
      | cons d tail =>
        rw [read?, hrun.takeHex_eq] at h
        cases h
        exact ⟨[c], rfl, .char hrun.isHexDigit_head⟩
    · rw [read?_of_isHexRun hne hrun] at h
      cases h
      cases tail with
      | nil => exact ⟨digits, rfl, .hex hne hrun nofun⟩
      | cons b tail =>
        cases hb : isAsciiBlank b with
        | false =>
          rw [dropBlank, if_neg (by simp [hb])]
          refine ⟨digits, rfl, .hex hne hrun fun d hd => ?_⟩
          cases hd
          exact hb
        | true =>
          rw [dropBlank, if_pos hb]
          exact ⟨digits ++ [b], by simp, .hexBlank hne hrun hb⟩
  · rintro ⟨esc, rfl, h⟩
    cases h with
    | char h =>
      show read? ([] ++ c :: rest) = _
      rw [read?, (isHexRun_nil h).takeHex_eq]
      rfl
    | hex hne hrun hblank =>
      rw [read?_of_isHexRun hne hrun]
      cases rest with
      | nil => rfl
      | cons b rest => rw [dropBlank, if_neg (by simp [hblank b rfl])]
    | @hexBlank digits b hne hrun hblank =>
      rw [List.append_assoc, List.singleton_append, read?_of_isHexRun hne hrun, dropBlank,
        if_pos hblank]

/-- After a backslash, only the end of the text is no escape. -/
theorem exists_spelled {cs : List Char} (hne : cs ≠ []) :
    ∃ esc c rest, cs = esc ++ rest ∧ Spelled rest esc c := by
  have hread : (read? cs).isSome = true := by
    have hlen := length_takeHex 6 cs
    unfold read?
    split
    · rfl
    · rfl
    · rename_i heq
      rw [heq] at hlen
      exact absurd (List.eq_nil_of_length_eq_zero hlen.symm) hne
  obtain ⟨⟨c, rest⟩, hread⟩ := Option.isSome_iff_exists.1 hread
  obtain ⟨esc, heq, hesc⟩ := read?_eq_some_iff.1 hread
  exact ⟨esc, c, rest, heq, hesc⟩

namespace Spelled

variable {rest rest' esc : List Char} {c : Char}

theorem ne_nil (h : Spelled rest esc c) : esc ≠ [] := by
  cases h with
  | char => exact List.cons_ne_nil _ _
  | hex hne => exact hne
  | hexBlank => simp

theorem read?_eq (h : Spelled rest esc c) : read? (esc ++ rest) = some (c, rest) :=
  read?_eq_some_iff.2 ⟨esc, rfl, h⟩

/-- An escape can be moved in front of another text that starts alike, or that ends it. -/
theorem move (h : Spelled rest esc c) (hr : StandsFor rest' rest) : Spelled rest' esc c := by
  cases h with
  | char h => exact .char h
  | hex hne hrun hblank =>
    rcases hr with hr | hr
    · exact .hex hne ⟨hrun.length_le, hrun.isHexDigit, hr ▸ hrun.stops⟩ (hr ▸ hblank)
    · refine .hex hne ⟨hrun.length_le, hrun.isHexDigit, fun d hd hhex => ?_⟩ fun d hd => (hr d hd).2
      rw [(hr d hd).1] at hhex
      cases hhex
  | hexBlank hne hrun hblank =>
    exact .hexBlank hne ⟨hrun.length_le, hrun.isHexDigit, hrun.stops⟩ hblank

/-- The characters of an escape: one character, or digits and a blank. -/
theorem mem_cases (h : Spelled rest esc c) :
    esc = [c] ∨ ∀ d ∈ esc, isHexDigit d = true ∨ isAsciiBlank d = true := by
  cases h with
  | char => exact .inl rfl
  | hex _ hrun _ => exact .inr fun d hd => .inl (hrun.isHexDigit d hd)
  | hexBlank _ hrun hblank =>
    refine .inr fun d hd => ?_
    rcases List.mem_append.1 hd with hd | hd
    · exact .inl (hrun.isHexDigit d hd)
    · exact .inr (List.mem_singleton.1 hd ▸ hblank)

/-- A character that no hexadecimal escape has is escaped itself, if it is part of an escape. -/
theorem eq_singleton_of_mem (h : Spelled rest esc c) {d : Char} (hend : EndsEscape [d])
    (hmem : d ∈ esc) : esc = [d] := by
  obtain ⟨hhex, hblank⟩ := hend d rfl
  rcases h.mem_cases with rfl | hall
  · rw [List.mem_singleton.1 hmem]
  · rcases hall d hmem with h | h
    · rw [hhex] at h
      cases h
    · rw [hblank] at h
      cases h

theorem width_eq (h : Spelled rest esc c) : width (esc ++ rest) = esc.length := by
  cases h with
  | char h =>
    show width ([] ++ c :: rest) = _
    rw [width, (isHexRun_nil h).takeHex_eq]
    rfl
  | hex hne hrun hblank =>
    rw [width_of_isHexRun hne hrun]
    cases rest with
    | nil => rfl
    | cons b rest => simp [hblank b rfl]
  | hexBlank hne hrun hblank =>
    rw [List.append_assoc, List.singleton_append, width_of_isHexRun hne hrun]
    simp [hblank]

theorem split?_eq (h : Spelled rest esc c) : split? (esc ++ rest) = some (esc, rest) := by
  have hpos : esc.length ≠ 0 := fun hlen => h.ne_nil (List.eq_nil_of_length_eq_zero hlen)
  rw [split?, h.width_eq]
  split
  · contradiction
  · rw [List.splitAt_eq, List.take_left, List.drop_left]

end Spelled

end Escape

end SelectorIndex.Text
