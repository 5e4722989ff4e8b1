import SelectorIndex.Proofs.Selector.Bare
import SelectorIndex.Proofs.Text.Encoding
import SelectorIndex.Selector.ByteScan

/-!
# Bytes and characters

A text may be scanned byte by byte. An ASCII character is its one byte; the bytes
of any other one are none of the characters that the scanner knows, so all of
them are inside of spans or none is, no text is cut at one, and they take the
scanner where the character takes it (`Scan.afterBytes_encode`). Only the
position of an escaped character is not that of all its bytes: the backslash
escapes the first one, and the others are plain.
-/

namespace SelectorIndex.Selector

open SelectorIndex.Text

/-! ## Wide characters -/

/-- The character is not ASCII, so it is encoded by several bytes. -/
def IsWide (c : Char) : Prop := 0x80 ≤ c.toNat

instance (c : Char) : Decidable (IsWide c) := inferInstanceAs (Decidable (_ ≤ _))

theorem encode_of_not_isWide {c : Char} (h : ¬ IsWide c) :
    ∃ b, String.utf8EncodeChar c = [b] ∧ Char.ofUInt8 b = c := by
  have hlt : c.toNat < 0x80 := Nat.not_le.1 h
  have hsize : c.utf8Size = 1 := Char.utf8Size_eq_one_iff.2 (Nat.le_of_lt_succ hlt)
  refine ⟨_, String.utf8EncodeChar_eq_singleton hsize, Char.toNat_inj.1 ?_⟩
  show c.toNat % 256 = c.toNat
  omega

theorem isWide_ofNat {n : Nat} (h : 0x80 ≤ n % 256) : IsWide (Char.ofUInt8 (UInt8.ofNat n)) := h

theorem isWide_of_mem_encode {c : Char} (h : IsWide c) :
    ∀ b ∈ String.utf8EncodeChar c, IsWide (Char.ofUInt8 b) := by
  have hle : ¬ c.val.toNat ≤ 0x7f := Nat.not_le.2 h
  unfold String.utf8EncodeChar
  simp only [hle, if_false]
  intro b hb
  split at hb
  · simp only [List.mem_cons, List.not_mem_nil, or_false] at hb
    rcases hb with rfl | rfl <;> exact isWide_ofNat (by omega)
  · split at hb
    · simp only [List.mem_cons, List.not_mem_nil, or_false] at hb
      rcases hb with rfl | rfl | rfl <;> exact isWide_ofNat (by omega)
    · simp only [List.mem_cons, List.not_mem_nil, or_false] at hb
      rcases hb with rfl | rfl | rfl | rfl <;> exact isWide_ofNat (by omega)

namespace IsWide

variable {c : Char}

theorem isHexDigit_eq (h : IsWide c) : isHexDigit c = false :=
  Bool.eq_false_iff.2 fun hhex => Nat.not_lt.2 h (toNat_lt_of_isHexDigit hhex)

theorem isSeparator_eq (h : IsWide c) : isSeparator c = false := by
  refine Bool.eq_false_iff.2 fun hsep => ?_
  simp only [isSeparator, isAsciiBlank, Bool.or_eq_true, beq_iff_eq] at hsep
  rcases hsep with ((rfl | rfl) | rfl) | (((rfl | rfl) | rfl) | rfl) | rfl <;>
    exact absurd h (by decide)

theorem isAsciiBlank_eq (h : IsWide c) : isAsciiBlank c = false := by
  have hsep := h.isSeparator_eq
  rw [isSeparator, Bool.or_eq_false_iff] at hsep
  exact hsep.2

theorem isOrdinary (h : IsWide c) : Scan.isOrdinary c = true :=
  Scan.isOrdinary_of_all (p := fun c => decide (IsWide c)) (by decide) (decide_eq_true h)

end IsWide

/-! ## One byte -/

namespace Scan

variable {s : Scan} {c : Char} {bs : List UInt8}

/-- A wide character changes nothing but that it ends an escape. -/
theorem step_wide (hq : s.IsQuotedByMark) (h : IsWide c) :
    (s.step c).1 = { s with escape := .idle } ∧ ((s.step c).2 = .enclosed ↔ s.isOpen = true) := by
  have hidle := step_ordinary_of_idle (s := { s with escape := .idle }) rfl hq h.isOrdinary
  have hopen : (if s.isOpen then Position.enclosed else .plain) = .enclosed ↔ s.isOpen = true := by
    simp
  cases hs : s.escape with
  | idle =>
    rw [setEscape_idle hs, step_ordinary_of_idle hs hq h.isOrdinary]
    exact ⟨rfl, hopen⟩
  | start =>
    simp [step, hs, h.isHexDigit_eq, escapePosition]
  | hex n =>
    have hstep : s.step c = ({ s with escape := .idle } : Scan).step c := by
      simp only [step, hs, h.isHexDigit_eq, h.isAsciiBlank_eq, Bool.false_eq_true, false_and,
        if_false]
    rw [hstep, hidle]
    exact ⟨rfl, hopen⟩

/-! ## The bytes of a character -/

theorem byteMarks_append (s : Scan) (bs bs' : List UInt8) :
    s.byteMarks (bs ++ bs') = s.byteMarks bs ++ (s.afterBytes bs).byteMarks bs' := by
  induction bs generalizing s with
  | nil => rfl
  | cons b bs ih => rw [List.cons_append, byteMarks, ih, byteMarks]; rfl

theorem map_fst_byteMarks (s : Scan) (bs : List UInt8) : (s.byteMarks bs).map Prod.fst = bs := by
  induction bs generalizing s with
  | nil => rfl
  | cons b bs ih => rw [byteMarks, List.map_cons, ih]

/-- Wide bytes change nothing but that the first one ends an escape. -/
theorem marks_wideBytes (hq : s.IsQuotedByMark) (h : ∀ b ∈ bs, IsWide (Char.ofUInt8 b)) :
    (bs ≠ [] → s.afterBytes bs = { s with escape := .idle }) ∧
      ∀ m ∈ s.byteMarks bs, (m.2 = .enclosed ↔ s.isOpen = true) := by
  induction bs generalizing s with
  | nil => exact ⟨fun h => absurd rfl h, nofun⟩
  | cons b bs ih =>
    obtain ⟨hb, hbs⟩ := List.forall_mem_cons.1 h
    obtain ⟨hstep, hpos⟩ := step_wide hq hb
    have hfirst : (s.stepByte b).1 = { s with escape := .idle } := hstep
    obtain ⟨hafter, hmarks⟩ := ih (s := { s with escape := .idle }) hq hbs
    rw [byteMarks, hfirst]
    refine ⟨fun _ => ?_, List.forall_mem_cons.2 ⟨hpos, hmarks⟩⟩
    show (s.stepByte b).1.afterBytes bs = _
    rw [hfirst]
    cases bs with
    | nil => rfl
    | cons b' bs => exact hafter (List.cons_ne_nil b' bs)

theorem afterBytes_append (s : Scan) (bs bs' : List UInt8) :
    s.afterBytes (bs ++ bs') = (s.afterBytes bs).afterBytes bs' := List.foldl_append

theorem keptBytes_append (s : Scan) (bs bs' : List UInt8) :
    s.keptBytes (bs ++ bs') = s.keptBytes bs ++ (s.afterBytes bs).keptBytes bs' := by
  rw [keptBytes, byteMarks_append, List.filter_append, List.map_append, keptBytes, keptBytes]

/-- The bytes of a character take the scanner where the character takes it. -/
theorem afterBytes_encode (hq : s.IsQuotedByMark) (c : Char) :
    s.afterBytes (String.utf8EncodeChar c) = (s.step c).1 := by
  by_cases hc : IsWide c
  · rw [(step_wide hq hc).1]
    exact (marks_wideBytes hq (isWide_of_mem_encode hc)).1 String.utf8EncodeChar_ne_nil
  · obtain ⟨b, hb, hbyte⟩ := encode_of_not_isWide hc
    rw [hb, ← hbyte]
    rfl

/-- The bytes of a character are enclosed just if it is. -/
theorem enclosed_iff_of_mem_byteMarks (hq : s.IsQuotedByMark) (c : Char) :
    ∀ m ∈ s.byteMarks (String.utf8EncodeChar c),
      (m.2 = .enclosed ↔ (s.step c).2 = .enclosed) := by
  by_cases hc : IsWide c
  · rw [(step_wide hq hc).2]
    exact (marks_wideBytes hq (isWide_of_mem_encode hc)).2
  · obtain ⟨b, hb, hbyte⟩ := encode_of_not_isWide hc
    rw [hb, ← hbyte]
    exact List.forall_mem_singleton.2 Iff.rfl

/-- Only the first byte of the character is escaped. -/
example : (({} : Scan).byteMarks (utf8 ['\\', 'é'])).map Prod.snd =
    [.escaped, .escaped, .plain] := by decide

theorem keptBytes_encode (hq : s.IsQuotedByMark) (c : Char) :
    s.keptBytes (String.utf8EncodeChar c) =
      if (s.step c).2 = .enclosed then [] else String.utf8EncodeChar c := by
  have hmarks := enclosed_iff_of_mem_byteMarks hq c
  rw [keptBytes]
  split
  · rename_i hc
    rw [List.filter_eq_nil_iff.2 fun m hm => by simpa using (hmarks m hm).2 hc, List.map_nil]
  · rename_i hc
    rw [List.filter_eq_self.2 fun m hm => by simpa using fun h => hc ((hmarks m hm).1 h),
      map_fst_byteMarks]

/-! ## The bytes of a text -/

theorem afterBytes_utf8 (hq : s.IsQuotedByMark) (cs : List Char) :
    s.afterBytes (utf8 cs) = s.after cs := by
  induction cs generalizing s with
  | nil => rfl
  | cons c cs ih =>
    rw [utf8_cons, afterBytes_append, afterBytes_encode hq, ih (hq.step c), after_cons]

/-- The bytes that are kept are those of the characters that are kept. -/
theorem keptBytes_utf8 (hq : s.IsQuotedByMark) (cs : List Char) :
    s.keptBytes (utf8 cs) = utf8 (s.kept cs) := by
  induction cs generalizing s with
  | nil => rfl
  | cons c cs ih =>
    rw [utf8_cons, keptBytes_append, keptBytes_encode hq, afterBytes_encode hq, ih (hq.step c)]
    by_cases hc : (s.step c).2 = .enclosed
    · rw [if_pos hc, kept_cons_of_eq hc, List.nil_append]
    · rw [if_neg hc, kept_cons_of_ne hc, utf8_cons]

/-! ## Slices -/

variable {text : String} {p : Char → Bool} {start here : Nat}

/-- No text is cut at a wide byte. -/
theorem slices?_wideBytes (hp : ∀ c, IsWide c → p c = false)
    (h : ∀ b ∈ bs, IsWide (Char.ofUInt8 b)) (bs' : List UInt8) :
    s.slices? text p start here (bs ++ bs') =
      (s.afterBytes bs).slices? text p start (here + bs.length) bs' := by
  induction bs generalizing s here with
  | nil => rfl
  | cons b bs ih =>
    obtain ⟨hb, hbs⟩ := List.forall_mem_cons.1 h
    have huncut : ¬ ((s.stepByte b).2 = .plain ∧ p (Char.ofUInt8 b) = true) := by
      simp [hp _ hb]
    rw [List.cons_append, slices?, if_neg huncut, ih hbs, List.length_cons, Nat.add_right_comm,
      Nat.add_assoc]
    rfl

theorem slices?_encode_uncut (hp : ∀ c, IsWide c → p c = false) (hq : s.IsQuotedByMark)
    (h : ¬ ((s.step c).2 = .plain ∧ p c = true)) (bs : List UInt8) :
    s.slices? text p start here (String.utf8EncodeChar c ++ bs) =
      (s.step c).1.slices? text p start (here + (String.utf8EncodeChar c).length) bs := by
  by_cases hc : IsWide c
  · rw [slices?_wideBytes hp (isWide_of_mem_encode hc), afterBytes_encode hq]
  · obtain ⟨b, hb, hbyte⟩ := encode_of_not_isWide hc
    rw [← hbyte] at h
    rw [hb, ← hbyte, List.singleton_append, slices?]
    exact if_neg h

theorem slices?_encode_cut (hp : ∀ c, IsWide c → p c = false)
    (h : (s.step c).2 = .plain ∧ p c = true) (bs : List UInt8) :
    s.slices? text p start here (String.utf8EncodeChar c ++ bs) =
      (slice? text start here).bind fun part =>
        (({} : Scan).slices? text p (here + (String.utf8EncodeChar c).length)
          (here + (String.utf8EncodeChar c).length) bs).map fun parts => part :: parts := by
  have hc : ¬ IsWide c := fun hc => by simp [hp c hc] at h
  have hstart : (s.step c).1 = {} := step_of_plain h.1
  obtain ⟨b, hb, hbyte⟩ := encode_of_not_isWide hc
  rw [← hbyte] at h hstart
  rw [hb, List.singleton_append, slices?, ← hstart]
  exact if_pos h

theorem length_utf8_concat (cs : List Char) (c : Char) :
    (utf8 (cs ++ [c])).length = (utf8 cs).length + (String.utf8EncodeChar c).length := by
  simp [utf8]

theorem modifyHead_nil_append (css : List (List Char)) : css.modifyHead ([] ++ ·) = css :=
  congrFun List.modifyHead_id css

/-- The slices of a text are its pieces: what the scanner has passed since the last cut is between
two boundaries of the text. -/
theorem slices?_utf8 (hp : ∀ c, IsWide c → p c = false) (hq : s.IsQuotedByMark)
    {front part rest : List Char} (h : text.toList = front ++ part ++ rest) :
    s.slices? text p (utf8 front).length (utf8 (front ++ part)).length (utf8 rest) =
      some (((s.pieces p rest).modifyHead (part ++ ·)).map String.ofList) := by
  induction rest generalizing s front part with
  | nil =>
    show (slice? text _ _).map _ = _
    rw [slice?_of_toList h]
    simp [pieces, marks, cut]
  | cons c rest ih =>
    have hhere : (utf8 (front ++ part)).length + (String.utf8EncodeChar c).length =
        (utf8 (front ++ (part ++ [c]))).length := by
      rw [← List.append_assoc, length_utf8_concat]
    rw [utf8_cons]
    by_cases hc : (s.step c).2 = .plain ∧ p c = true
    · have htext : text.toList = front ++ (part ++ [c]) ++ [] ++ rest := by simp [h]
      have hrest := ih .start htext
      rw [List.append_nil, modifyHead_nil_append] at hrest
      rw [slices?_encode_cut hp hc, slice?_of_toList h, hhere, hrest, pieces_cons_cut hc,
        List.modifyHead_cons, List.append_nil]
      rfl
    · have htext : text.toList = front ++ (part ++ [c]) ++ rest := by simp [h]
      have hrest := ih (hq.step c) htext
      rw [slices?_encode_uncut hp hq hc, hhere, hrest, pieces_cons_uncut hc,
        List.modifyHead_modifyHead]
      simp [Function.comp_def]

end Scan

theorem sliced?_eq {p : Char → Bool} (hp : ∀ c, IsWide c → p c = false) (text : String) :
    sliced? text p = some ((({} : Scan).pieces p text.toList).map String.ofList) := by
  have h : text.toList = [] ++ [] ++ text.toList := rfl
  have hslices := Scan.slices?_utf8 hp .start h
  rw [Scan.modifyHead_nil_append] at hslices
  rw [sliced?, bytes_eq]
  exact hslices

theorem isEmpty_ofList (cs : List Char) : (String.ofList cs).isEmpty = cs.isEmpty := by
  rw [Bool.eq_iff_iff, String.isEmpty_iff, String.ofList_eq_empty_iff, List.isEmpty_iff]

theorem slicedGroups?_eq (selector : String) : slicedGroups? selector = some (groups selector) := by
  have hp : ∀ c, IsWide c → (c == ',') = false := by
    intro c hc
    refine beq_false_of_ne ?_
    rintro rfl
    exact absurd hc (by decide)
  rw [slicedGroups?, sliced?_eq hp, Option.map_some, groups, groupTexts]
  simp [List.filter_map, Function.comp_def, isEmpty_ofList]

theorem slicedTokens?_eq (group : String) : slicedTokens? group = some (tokens group) := by
  rw [slicedTokens?, sliced?_eq fun c => IsWide.isSeparator_eq, Option.map_some, tokens, tokenTexts]
  simp [List.filter_map, Function.comp_def, isEmpty_ofList]

theorem keptBytes_bytes (token : String) :
    ({} : Scan).keptBytes (bytes token) = utf8 (bareText token.toList) := by
  rw [bytes_eq, Scan.keptBytes_utf8 .start, bareText_eq_kept]

theorem bareBytes_eq (token : String) : bareBytes token = bareToken token := by
  rw [bareBytes, keptBytes_bytes, decodeLossy_utf8, bareToken]

theorem bareText_sublist (cs : List Char) : (bareText cs).Sublist cs := by
  have h := (List.filter_sublist (p := fun m => m.2 != .enclosed)
    (l := ({} : Scan).marks cs)).map Prod.fst
  rwa [Scan.map_fst_marks] at h

theorem closesBytes_eq (selector : String) : closesBytes selector = isSelfContained selector := by
  rw [closesBytes, bytes_eq, Scan.afterBytes_utf8 .start, isSelfContained]

/-- A text scanned byte by byte is read as it is character by character. Every slice of it is
between boundaries; the bytes of a character are all in spans or all outside, whatever stands
before it; and the bytes that are kept are the encoding of a subsequence of the characters, which
they are read back as. -/
theorem bytes_read_as_characters (text : String) :
    slicedGroups? text = some (groups text) ∧
    slicedTokens? text = some (tokens text) ∧
    closesBytes text = isSelfContained text ∧
    (∀ front c back, text.toList = front ++ c :: back →
      bytes text = utf8 front ++ String.utf8EncodeChar c ++ utf8 back ∧
      (({} : Scan).afterBytes (utf8 front) = ({} : Scan).after front) ∧
      ∀ m ∈ (({} : Scan).afterBytes (utf8 front)).byteMarks (String.utf8EncodeChar c),
        (m.2 = .enclosed ↔ ((({} : Scan).after front).step c).2 = .enclosed)) ∧
    (bareText text.toList).Sublist text.toList ∧
    ({} : Scan).keptBytes (bytes text) = utf8 (bareText text.toList) ∧
    decodeLossy (({} : Scan).keptBytes (bytes text)) = bareText text.toList ∧
    bareBytes text = bareToken text := by
  refine ⟨slicedGroups?_eq text, slicedTokens?_eq text, closesBytes_eq text, ?_,
    bareText_sublist text.toList, keptBytes_bytes text, ?_, bareBytes_eq text⟩
  · intro front c back heq
    have hafter := Scan.afterBytes_utf8 .start front
    refine ⟨?_, hafter, ?_⟩
    · rw [bytes_eq, heq, utf8_append, utf8_cons, List.append_assoc]
    · rw [hafter]
      exact Scan.enclosed_iff_of_mem_byteMarks (Scan.quote_after front) c
  · rw [keptBytes_bytes, decodeLossy_utf8]

end SelectorIndex.Selector
