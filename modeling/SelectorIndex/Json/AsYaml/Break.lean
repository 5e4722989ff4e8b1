/-!
# Line breaks of texts of JSON in YAML

YAML breaks lines at more characters than JSON has blanks. Three of them may
stand inside a string, where a run of blanks and breaks is folded: the blanks
are dropped, and so is the first break if it stands for a line feed, or becomes
a space where it is the only one.
-/

namespace SelectorIndex.Json.AsYaml

/-- A break that may stand in a string of JSON. -/
def isInnerBreak (c : Char) : Bool := c == '\u0085' || c == '\u2028' || c == '\u2029'

def isBreak (c : Char) : Bool := c == '\n' || c == '\r' || isInnerBreak c

/-- A character after which a word is over. -/
def isBlank (c : Char) : Bool := c == ' ' || c == '\t' || isBreak c

/-! ## Folding -/

def isFoldable (c : Char) : Bool := c == ' ' || isInnerBreak c

/-- A break that is kept, as JSON spells it: the next line stands for a line feed. -/
def kept (c : Char) : List Char := if c = '\u0085' then ['\\', 'n'] else [c]

def foldRun (run : List Char) : List Char :=
  match run.filter isInnerBreak with
  | [] => run
  | ['\u0085'] => [' ']
  | '\u0085' :: breaks => breaks.flatMap kept
  | breaks => breaks.flatMap kept

/-- A text with every run of blanks and breaks folded. -/
def fold (cs : List Char) : List Char :=
  (cs.splitBy fun a b => isFoldable a == isFoldable b).flatMap foldRun

/-! ## Markers -/

/-- What follows three hyphens or dots that stand alone at the start of a line. -/
def afterMarker? (mark : Char) : List Char → Option (List Char)
  | a :: b :: c :: rest =>
    if a = mark ∧ b = mark ∧ c = mark ∧ rest.head?.all isBlank then some rest else none
  | _ => none

/-- Some line that starts in a string starts with a marker. -/
def hasInnerMarker : List Char → Bool
  | [] => false
  | c :: cs =>
    (isInnerBreak c && ((afterMarker? '-' cs).isSome || (afterMarker? '.' cs).isSome))
      || hasInnerMarker cs

end SelectorIndex.Json.AsYaml
