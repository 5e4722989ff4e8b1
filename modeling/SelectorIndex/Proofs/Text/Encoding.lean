import Mathlib.Algebra.Group.Nat.Defs
import SelectorIndex.Proofs.Text.Escapes
import SelectorIndex.Proofs.Text.Runs

/-!
# Encoded characters

An encoded character is an escape of it whatever follows (`spelled_encodeChar`),
and stays one if the text is trimmed after it (`spelled_trimEnd_encodeChar`): the
blank that closes it is part of the escape, but at the end of a text the escape
does without.
-/

namespace SelectorIndex.Text

/-! ## Hexadecimal spellings -/

theorem hexValue?_digitChar {n : Nat} (h : n < 16) : hexValue? n.digitChar = some n := by
  have hall : ∀ n : Fin 16, hexValue? n.val.digitChar = some n.val := by decide
  exact hall ⟨n, h⟩

theorem isHexDigit_digitChar {n : Nat} (h : n < 16) : isHexDigit n.digitChar = true := by
  rw [isHexDigit, hexValue?_digitChar h]
  rfl

theorem isHexDigit_of_mem_toHex {n : Nat} {c : Char} (h : c ∈ toHex n) : isHexDigit c = true := by
  fun_induction toHex n with
  | case1 n hn =>
    rw [List.mem_singleton.1 h]
    exact isHexDigit_digitChar hn
  | case2 n hn ih =>
    rcases List.mem_append.1 h with h | h
    · exact ih h
    · rw [List.mem_singleton.1 h]
      exact isHexDigit_digitChar (Nat.mod_lt n (by decide))

theorem toNat_lt_of_isHexDigit {c : Char} (h : isHexDigit c = true) : c.toNat < 0x80 := by
  unfold isHexDigit hexValue? at h
  split at h
  · rename_i hc
    exact Nat.lt_of_le_of_lt (Char.le_def.1 hc.2) (by decide)
  · split at h
    · rename_i hc
      exact Nat.lt_of_le_of_lt (Char.le_def.1 hc.2) (by decide)
    · split at h
      · rename_i hc
        exact Nat.lt_of_le_of_lt (Char.le_def.1 hc.2) (by decide)
      · cases h

theorem isBlank_of_isHexDigit {c : Char} (h : isHexDigit c = true) : isBlank c = false := by
  exact of_ascii (fun c => isHexDigit c = true → isBlank c = false) (by decide)
    (toNat_lt_of_isHexDigit h) h

theorem toHex_ne_nil (n : Nat) : toHex n ≠ [] := by
  unfold toHex
  split
  · exact List.cons_ne_nil _ _
  · simp

theorem hexNumber_toHex (n : Nat) : hexNumber (toHex n) = n := by
  fun_induction toHex n with
  | case1 n hn => simp [hexNumber, ofHex, hexValue?_digitChar hn]
  | case2 n hn ih =>
    have hdigit : hexValue? (n % 16).digitChar = some (n % 16) :=
      hexValue?_digitChar (Nat.mod_lt n (by decide))
    rw [hexNumber, ofHex] at ih ⊢
    rw [List.filterMap_append, List.foldl_append, ih]
    simp only [List.filterMap_cons, hdigit, List.filterMap_nil, List.foldl_cons, List.foldl_nil]
    omega

theorem length_toHex_le {n k : Nat} (h : n < 16 ^ (k + 1)) : (toHex n).length ≤ k + 1 := by
  induction k generalizing n with
  | zero =>
    have hdigit : toHex n = [n.digitChar] := by rw [toHex, if_pos (by omega)]
    simp [hdigit]
  | succ k ih =>
    unfold toHex
    split
    · simp
    · have hdiv : n / 16 < 16 ^ (k + 1) := by
        apply Nat.div_lt_of_lt_mul
        rw [Nat.pow_succ] at h
        omega
      have := ih hdiv
      rw [List.length_append, List.length_singleton]
      omega

theorem toNat_lt (c : Char) : c.toNat < 16 ^ (5 + 1) := by
  have hvalid : c.toNat.isValidChar := c.valid
  simp only [Nat.isValidChar] at hvalid
  omega

namespace Escape

theorem scalar_toNat {c : Char} (h : c ≠ '\u0000') : scalar c.toNat = c := by
  have hvalid : c.toNat.isValidChar := c.valid
  have hne : c.toNat ≠ 0 := fun hzero => h (Char.toNat_inj.1 hzero)
  rw [scalar, if_pos ⟨hne, hvalid⟩, Char.ofNat_toNat]

/-! ## Encoded characters -/

theorem isHexRun_toHex {c : Char} {rest : List Char} (h : ∀ d ∈ rest.head?, isHexDigit d = false) :
    IsHexRun 6 (toHex c.toNat) rest where
  length_le := length_toHex_le (toNat_lt c)
  isHexDigit _ hd := isHexDigit_of_mem_toHex hd
  stops d hd hhex := by
    rw [h d hd] at hhex
    cases hhex

/-- The part of an encoded character after the backslash. -/
theorem spelled_encodeChar (rest : List Char) (c : Char) :
    ∃ esc, encodeChar c = '\\' :: esc ∧ Spelled rest esc c := by
  unfold encodeChar
  split
  · rename_i hc
    subst hc
    exact ⟨_, rfl, .char (by decide)⟩
  · rename_i hc
    have hrun : IsHexRun 6 (toHex c.toNat) (' ' :: rest) := isHexRun_toHex fun d hd => by
      cases hd
      rfl
    refine ⟨toHex c.toNat ++ [' '], rfl, ?_⟩
    have hspelled := Spelled.hexBlank (toHex_ne_nil c.toNat) hrun (by decide)
    rwa [hexNumber_toHex, scalar_toNat hc] at hspelled

theorem mem_encodeChar {c d : Char} (h : d ∈ encodeChar c) :
    d = '\\' ∨ isHexDigit d = true ∨ d = ' ' ∨ d = '\u0000' := by
  unfold encodeChar at h
  split at h
  · rename_i hc
    subst hc
    simp only [List.mem_cons, List.not_mem_nil, or_false] at h
    rcases h with h | h
    · exact .inl h
    · exact .inr (.inr (.inr h))
  · rcases List.mem_append.1 h with h | h
    · rcases List.mem_cons.1 h with h | h
      · exact .inl h
      · exact .inr (.inl (isHexDigit_of_mem_toHex h))
    · exact .inr (.inr (.inl (List.mem_singleton.1 h)))

theorem toNat_lt_of_mem_encode {name : List Char} {c : Char} (h : c ∈ encode name) :
    c.toNat < 0x80 := by
  obtain ⟨d, -, hc⟩ := List.mem_flatMap.1 h
  rcases mem_encodeChar hc with rfl | hhex | rfl | rfl
  · decide
  · exact toNat_lt_of_isHexDigit hhex
  · decide
  · decide

theorem notMem_encode {c : Char} (hslash : c ≠ '\\') (hhex : isHexDigit c = false)
    (hspace : c ≠ ' ') (hnul : c ≠ '\u0000') (name : List Char) : c ∉ encode name := by
  intro hmem
  obtain ⟨d, -, hc⟩ := List.mem_flatMap.1 hmem
  rcases mem_encodeChar hc with h | h | h | h
  · exact hslash h
  · rw [hhex] at h
    cases h
  · exact hspace h
  · exact hnul h

theorem isInfix_of_notMem {c : Char} {front back cs : List Char} (hc : c ∉ front)
    (h : c :: cs <:+: front ++ back) : c :: cs <:+: back := by
  induction front with
  | nil => exact h
  | cons d front ih =>
    rw [List.mem_cons, not_or] at hc
    rcases List.infix_cons_iff.1 h with h | h
    · exact absurd (List.cons_prefix_cons.1 h).1 hc.1
    · exact ih hc.2 h

/-- Only digits and U+0000 are escaped in an encoded name. -/
theorem escape_notInfix_encode {c : Char} (hhex : isHexDigit c = false) (hnul : c ≠ '\u0000')
    (name : List Char) : ¬ ['\\', c] <:+: encode name := by
  induction name with
  | nil => simp [encode]
  | cons d ds ih =>
    have hparts : ∃ e es, encodeChar d = '\\' :: e :: es ∧ c ≠ e ∧ '\\' ∉ e :: es := by
      unfold encodeChar
      split
      · rename_i hd
        exact ⟨d, [], rfl, hd ▸ hnul, by rw [hd]; decide⟩
      · obtain ⟨e, es, hes⟩ := List.exists_cons_of_ne_nil (toHex_ne_nil d.toNat)
        have hall : ∀ x ∈ e :: es, isHexDigit x = true := fun x hx =>
          isHexDigit_of_mem_toHex (hes ▸ hx)
        refine ⟨e, es ++ [' '], by rw [hes]; rfl, ?_, ?_⟩
        · rintro rfl
          rw [hall c List.mem_cons_self] at hhex
          cases hhex
        · intro hmem
          rw [← List.cons_append] at hmem
          rcases List.mem_append.1 hmem with hmem | hmem
          · cases hall _ hmem
          · cases List.mem_singleton.1 hmem
    obtain ⟨e, es, hd, hne, hslash⟩ := hparts
    intro hinf
    rw [encode, List.flatMap_cons, hd, List.cons_append] at hinf
    rcases List.infix_cons_iff.1 hinf with h | h
    · exact hne (List.cons_prefix_cons.1 (List.cons_prefix_cons.1 h).2).1
    · exact ih (isInfix_of_notMem hslash h)

/-- At the end of a trimmed text, an encoded character has no blank but is still an escape. -/
theorem spelled_trimEnd_encodeChar (c : Char) :
    ∃ esc, trimEnd (encodeChar c) = '\\' :: esc ∧ Spelled [] esc c := by
  by_cases hc : c = '\u0000'
  · subst hc
    exact ⟨_, by decide, .char (by decide)⟩
  · have hlast : ∀ d ∈ ('\\' :: toHex c.toNat).getLast?, isBlank d = false := by
      intro d hd
      rcases List.mem_cons.1 (List.mem_of_getLast? hd) with rfl | hd
      · rfl
      · exact isBlank_of_isHexDigit (isHexDigit_of_mem_toHex hd)
    have htrim : trimEnd (encodeChar c) = '\\' :: toHex c.toNat := by
      rw [encodeChar, if_neg hc, trimEnd_append_blank _ (by decide), trimEnd_of_getLast? hlast]
    refine ⟨toHex c.toNat, htrim, ?_⟩
    have hspelled : Spelled [] (toHex c.toNat) (scalar (hexNumber (toHex c.toNat))) :=
      .hex (toHex_ne_nil c.toNat) (isHexRun_toHex nofun) nofun
    rwa [hexNumber_toHex, scalar_toNat hc] at hspelled

end Escape

end SelectorIndex.Text
