import SelectorIndex.Text.Escape
import SelectorIndex.Text.Word

/-!
# Names within a token

The index reads names off a bare token with no regard for the grammar around
them: a name is the longest run of name characters and escapes. A line feed
cannot be escaped in such a name, and a sigil counts wherever it stands,
escaped or not, if a name follows it.
-/

namespace SelectorIndex.Selector

open SelectorIndex.Text

/-- An escape within a name: its text after the backslash, and what follows it. -/
def nameEscape? (cs : List Char) : Option (List Char × List Char) :=
  if cs.head? = some '\n' then none else Escape.split? cs

theorem length_lt_of_nameEscape? {cs text rest : List Char}
    (h : nameEscape? cs = some (text, rest)) : rest.length < cs.length := by
  unfold nameEscape? at h
  split at h
  · cases h
  · exact Escape.length_lt_of_split? h

/-- The longest name at the front, as it is written, and what follows it. -/
def nameSpan : List Char → List Char × List Char
  | [] => ([], [])
  | c :: cs =>
    if c = '\\' then
      match h : nameEscape? cs with
      | some (text, rest) =>
        have := length_lt_of_nameEscape? h
        let (name, tail) := nameSpan rest
        (c :: text ++ name, tail)
      | none => ([], c :: cs)
    else if isNameChar c then
      let (name, tail) := nameSpan cs
      (c :: name, tail)
    else ([], c :: cs)
termination_by cs => cs.length

/-- The name after the first `sigil` that a name follows, as it is written. -/
def nameAfter? (sigil : Char) : List Char → Option (List Char)
  | [] => none
  | c :: cs =>
    if c = sigil then
      match nameSpan cs with
      | ([], _) => nameAfter? sigil cs
      | (name, _) => some name
    else nameAfter? sigil cs

/-- The name at the front, as it is written, unless a bar makes it a namespace. -/
def leadingName? (cs : List Char) : Option (List Char) :=
  match nameSpan cs with
  | ([], _) => none
  | (_, '|' :: _) => none
  | (name, _) => some name

end SelectorIndex.Selector
