import SelectorIndex.Text.Hex
import SelectorIndex.Text.Printable

/-!
# Quoted texts

The form in which reports show a text: between double quotes, with the
characters that would be misread or unseen written as escapes. A list of texts
is shown in brackets.
-/

namespace SelectorIndex.Text

def quotedChar (c : Char) : List Char :=
  if c = '"' then ['\\', '"']
  else if c = '\\' then ['\\', '\\']
  else if c = '\n' then ['\\', 'n']
  else if c = '\r' then ['\\', 'r']
  else if c = '\t' then ['\\', 't']
  else if c = '\u0000' then ['\\', '0']
  else if isHidden c then ['\\', 'u', '{'] ++ toHex c.toNat ++ ['}']
  else [c]

def quoted (s : String) : String :=
  String.ofList ('"' :: s.toList.flatMap quotedChar ++ ['"'])

def bracketed (items : List String) : String := "[" ++ ", ".intercalate items ++ "]"

def quotedList (items : List String) : String := bracketed (items.map quoted)

end SelectorIndex.Text
