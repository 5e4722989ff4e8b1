import SelectorIndex.Selector.Group
import SelectorIndex.Text.Utf8

/-!
# Scanning bytes

The scanner run over the bytes of a text, one step for each byte. A byte is read
as the character with its code, so the bytes of an encoding longer than one are
no delimiters, digits or blanks. A text is cut by slicing it between offsets,
which fails where an offset is inside of a character, and a bare token is read
back from the bytes that are left.
-/

namespace SelectorIndex.Selector

open SelectorIndex.Text

namespace Scan

def stepByte (s : Scan) (b : UInt8) : Scan × Position := s.step (Char.ofUInt8 b)

def afterBytes (s : Scan) (bs : List UInt8) : Scan := bs.foldl (fun t b => (t.stepByte b).1) s

/-- Every byte with its position. -/
def byteMarks (s : Scan) : List UInt8 → List (UInt8 × Position)
  | [] => []
  | b :: bs => (b, (s.stepByte b).2) :: byteMarks (s.stepByte b).1 bs

/-- The bytes outside of every span. -/
def keptBytes (s : Scan) (bs : List UInt8) : List UInt8 :=
  ((s.byteMarks bs).filter fun m => m.2 != .enclosed).map Prod.fst

/-- The parts of a text from the offset `start` on, cut at its plain bytes that satisfy `p`. The
scanner has come to the offset `here`, from which on the bytes are those of the list. -/
def slices? (text : String) (p : Char → Bool) (s : Scan) (start here : Nat) :
    List UInt8 → Option (List String)
  | [] => (slice? text start here).map fun part => [part]
  | b :: bs =>
    if (s.stepByte b).2 = .plain ∧ p (Char.ofUInt8 b) = true then
      (slice? text start here).bind fun part =>
        (slices? text p (s.stepByte b).1 (here + 1) (here + 1) bs).map fun parts => part :: parts
    else slices? text p (s.stepByte b).1 start (here + 1) bs

end Scan

/-- The parts of a text between its plain bytes that satisfy `p`; `none` if one of them begins or
ends inside of a character. -/
def sliced? (text : String) (p : Char → Bool) : Option (List String) :=
  ({} : Scan).slices? text p 0 0 (bytes text)

def slicedGroups? (selector : String) : Option (List Group) :=
  (sliced? selector (· == ',')).map fun parts =>
    flagLast ((parts.map fun part => String.ofList (trim part.toList)).filter (!·.isEmpty))

def slicedTokens? (group : String) : Option (List String) :=
  (sliced? group isSeparator).map fun parts => parts.filter (!·.isEmpty)

/-- The bare token, read back from its bytes. -/
def bareBytes (token : String) : String :=
  String.ofList (decodeLossy (({} : Scan).keptBytes (bytes token)))

/-- The bytes of the selector end outside of every span, and not just after a backslash. -/
def closesBytes (selector : String) : Bool := (({} : Scan).afterBytes (bytes selector)).isClosed

end SelectorIndex.Selector
