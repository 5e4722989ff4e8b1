import SelectorIndex.Json.Parser
import SelectorIndex.Text.Cut
import SelectorIndex.Json.AsYaml.Layout

/-!
# Texts of JSON as YAML

This is no reader of YAML. A text of JSON is a text of YAML too, and may then be
one of several documents that lines of three hyphens separate. It has printable
characters only and no escaped surrogates, its layout is that of YAML, and an
empty document is an empty record. A text in any other form of YAML is not
admitted.
-/

namespace SelectorIndex.Json.AsYaml

open SelectorIndex.Json (SyntaxError)

/-! ## Characters -/

def isPrintable (c : Char) : Bool :=
  c == '\t' || c == '\n' || c == '\r' || (0x20 ≤ c.toNat && c.toNat ≤ 0x7e) || c == '\u0085'
    || (0xa0 ≤ c.toNat && c.toNat ≤ 0xfffd) || 0x10000 ≤ c.toNat

/-- Some escape in the text has the code of a surrogate. -/
def hasSurrogate : List Char → Bool
  | '\\' :: 'u' :: d :: x :: rest =>
    ((d == 'd' || d == 'D') && (Text.hexValue? x).any (8 ≤ ·)) || hasSurrogate rest
  | '\\' :: _ :: rest => hasSurrogate rest
  | _ :: rest => hasSurrogate rest
  | [] => false

/-- A text as JSON, if it has nothing that only JSON admits. -/
def toJson? (cs : List Char) : Option (List Char) :=
  if cs.all isPrintable && !hasSurrogate cs then
    (layOut? cs).bind fun cs => if hasInnerMarker cs then none else some (fold cs)
  else none

/-! ## Documents -/

/-- The runs of lines between separators. A separator may have the start of the next document after
its hyphens. -/
def runsOfLines : List (List Char) → List (List (List Char))
  | [] => [[]]
  | line :: rest =>
    match afterMarker? '-' line with
    | some start => [] :: (runsOfLines rest).modifyHead (start :: ·)
    | none => (runsOfLines rest).modifyHead (line :: ·)

/-- The documents of a text; a separator before the first one is not needed. -/
def documents (cs : List Char) : List (List Char) :=
  let lines := Text.cut (cs.map fun c => (c, c == '\n'))
  let runs := (runsOfLines lines).map fun run => ['\n'].intercalate run
  match runs with
  | first :: second :: rest =>
    if first.all Json.Token.isSpace then second :: rest else first :: second :: rest
  | runs => runs

def parseDocument (cs : List Char) : Except SyntaxError Written :=
  if cs.all Json.Token.isSpace then .ok (.object []) else Json.parse cs

def parse (cs : List Char) : Except SyntaxError (List Written) :=
  match toJson? cs with
  | some cs => (documents cs).mapM parseDocument
  | none => .error .notAdmitted

end SelectorIndex.Json.AsYaml
