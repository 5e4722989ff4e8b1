import SelectorIndex.Text.Blank
import SelectorIndex.Text.Hex
import SelectorIndex.Text.Pattern
import SelectorIndex.Text.Word

/-!
# The patterns of names

What the index takes for a name, and where, written as patterns. Two of the
three kinds of units overlap: a hexadecimal escape is tried before the escape of
a single character, which would match the first of its digits.
-/

namespace SelectorIndex.Selector.NamePattern

open SelectorIndex.Text

def hexDigits : Pattern := .seq (.one isHexDigit) (.upTo 5 (.one isHexDigit))

def hexCode : Pattern := .seq hexDigits (.atMostOnce (.one isAsciiBlank))

def hexEscape : Pattern := .seq (.char '\\') hexCode

def charEscape : Pattern := .seq (.char '\\') (.one (· != '\n'))

/-- A character of a name, or an escape. -/
def unit : Pattern := .alt (.one isNameChar) (.alt hexEscape charEscape)

def name : Pattern := .atLeastOnce unit

/-- A name after a sigil, anywhere. -/
def afterSigil (sigil : Char) : Finder := ⟨false, .char sigil, name⟩

def atStart : Finder := ⟨true, .empty, name⟩

/-- The patterns of ids, classes and tags. -/
def finders : List Finder := [afterSigil '#', afterSigil '.', atStart]

end SelectorIndex.Selector.NamePattern
