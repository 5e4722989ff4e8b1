/-!
# Texts as bytes

A text is kept as the UTF-8 encodings of its characters, one after the other. A
slice is named by the offsets of its ends, and there is one only where both are
boundaries between characters. Bytes are read back leniently: where they are not
the encoding of a character, U+FFFD stands for the longest start of an encoding
found there, or for one byte if there is none.
-/

namespace SelectorIndex.Text

def utf8 (cs : List Char) : List UInt8 := cs.flatMap String.utf8EncodeChar

/-- The bytes of a text. -/
def bytes (text : String) : List UInt8 := text.toByteArray.data.toList

/-- The part of a text between two offsets into its bytes; `none` unless both are at a boundary
between characters, the first not after the second. -/
def slice? (text : String) (start stop : Nat) : Option String :=
  if h : start ≤ stop ∧ String.Pos.Raw.IsValid text ⟨start⟩ ∧
      String.Pos.Raw.IsValid text ⟨stop⟩ then
    some (text.extract (text.pos ⟨start⟩ h.2.1) (text.pos ⟨stop⟩ h.2.2))
  else none

/-! ## Lenient decoding -/

/-- The character whose encoding the bytes start with. -/
def firstChar? (bs : List UInt8) : Option Char := bs.toByteArray.utf8DecodeChar? 0

def isContinuation (b : UInt8) : Bool := 0x80 ≤ b && b ≤ 0xbf

/-- Some encoding of three or four bytes starts with these two. -/
def startsLong (first second : UInt8) : Bool :=
  if first = 0xe0 then 0xa0 ≤ second && second ≤ 0xbf
  else if first = 0xed then 0x80 ≤ second && second ≤ 0x9f
  else if first = 0xf0 then 0x90 ≤ second && second ≤ 0xbf
  else if first = 0xf4 then 0x80 ≤ second && second ≤ 0x8f
  else 0xe1 ≤ first && first ≤ 0xf3 && isContinuation second

/-- The number of bytes that belong to a broken encoding after its first byte. -/
def brokenLength (first : UInt8) : List UInt8 → Nat
  | [] => 0
  | second :: rest =>
    if startsLong first second then
      if 0xf0 ≤ first && rest.head?.any isContinuation then 2 else 1
    else 0

/-- The characters that the bytes encode, with U+FFFD for each part that encodes none. -/
def decodeLossy : List UInt8 → List Char
  | [] => []
  | b :: bs =>
    match firstChar? (b :: bs) with
    | some c => c :: decodeLossy (bs.drop (c.utf8Size - 1))
    | none => '\ufffd' :: decodeLossy (bs.drop (brokenLength b bs))
termination_by bs => bs.length
decreasing_by
  · simp only [List.length_drop, List.length_cons]; omega
  · simp only [List.length_drop, List.length_cons]; omega

/-! ## Encoded texts -/

theorem utf8_append (cs ds : List Char) : utf8 (cs ++ ds) = utf8 cs ++ utf8 ds :=
  List.flatMap_append

theorem utf8_cons (c : Char) (cs : List Char) :
    utf8 (c :: cs) = String.utf8EncodeChar c ++ utf8 cs :=
  List.flatMap_cons

theorem toByteArray_utf8 (cs : List Char) : (utf8 cs).toByteArray = cs.utf8Encode := rfl

theorem bytes_eq (text : String) : bytes text = utf8 text.toList := by
  conv => lhs; rw [bytes, ← String.ofList_toList (s := text), String.toByteArray_ofList]
  exact List.toList_data_toByteArray

theorem size_utf8Encode (cs : List Char) : cs.utf8Encode.size = (utf8 cs).length := by
  rw [← toByteArray_utf8, List.size_toByteArray]

theorem utf8ByteSize_ofList (cs : List Char) :
    (String.ofList cs).utf8ByteSize = (utf8 cs).length := by
  rw [← String.size_toByteArray, String.toByteArray_ofList, size_utf8Encode]

/-- What is encoded is read back as it is. -/
theorem decodeLossy_utf8 (cs : List Char) : decodeLossy (utf8 cs) = cs := by
  induction cs with
  | nil => rw [utf8, List.flatMap_nil, decodeLossy]
  | cons c cs ih =>
    obtain ⟨b, bs, hbs⟩ := List.exists_cons_of_ne_nil (String.utf8EncodeChar_ne_nil (c := c))
    have hfirst : firstChar? (utf8 (c :: cs)) = some c := by
      rw [firstChar?, toByteArray_utf8, List.utf8DecodeChar?_utf8Encode_cons]
    have hlength : bs.length = c.utf8Size - 1 := by
      have := String.length_utf8EncodeChar c
      rw [hbs, List.length_cons] at this
      omega
    rw [utf8_cons, hbs, List.cons_append] at hfirst ⊢
    rw [decodeLossy, hfirst]
    show c :: decodeLossy _ = _
    rw [← hlength, List.drop_left, ih]

/-- A part that encodes nothing is replaced as a whole. -/
example : decodeLossy [0x48, 0xf0, 0x90, 0x80, 0x57] = ['H', '\ufffd', 'W'] := by cbv

theorem isValid_of_toList {text : String} {front back : List Char}
    (h : text.toList = front ++ back) :
    String.Pos.Raw.IsValid text ⟨(utf8 front).length⟩ := by
  refine String.Pos.Raw.isValid_iff_exists_append.2
    ⟨String.ofList front, String.ofList back, ?_, ?_⟩
  · rw [← String.ofList_append, ← h, String.ofList_toList]
  · rw [← utf8ByteSize_ofList]
    rfl

/-- Two boundaries of a text cut out what is between them. -/
theorem slice?_of_toList {text : String} {front part back : List Char}
    (h : text.toList = front ++ part ++ back) :
    slice? text (utf8 front).length (utf8 (front ++ part)).length = some (String.ofList part) := by
  have hstart : String.Pos.Raw.IsValid text ⟨(utf8 front).length⟩ :=
    isValid_of_toList (h.trans (List.append_assoc front part back))
  have hstop : String.Pos.Raw.IsValid text ⟨(utf8 (front ++ part)).length⟩ := isValid_of_toList h
  have hle : (utf8 front).length ≤ (utf8 (front ++ part)).length := by
    rw [utf8_append, List.length_append]
    omega
  have htext : text.toByteArray = front.utf8Encode ++ (part.utf8Encode ++ back.utf8Encode) := by
    rw [← String.ofList_toList (s := text), String.toByteArray_ofList, h, List.append_assoc,
      List.utf8Encode_append, List.utf8Encode_append]
  rw [slice?, dif_pos ⟨hle, hstart, hstop⟩, Option.some_inj, ← String.toByteArray_inj,
    String.toByteArray_extract, String.toByteArray_ofList]
  show text.toByteArray.extract (utf8 front).length (utf8 (front ++ part)).length = part.utf8Encode
  rw [htext, utf8_append, List.length_append, ← Nat.add_zero (utf8 front).length, Nat.add_assoc,
    Nat.zero_add, ByteArray.extract_append_size_add' (size_utf8Encode front).symm,
    ByteArray.extract_append_eq_left (size_utf8Encode part).symm]

end SelectorIndex.Text
