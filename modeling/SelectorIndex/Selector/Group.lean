import SelectorIndex.Selector.Scan

/-!
# Groups and tokens

A selector is a list of alternatives, its groups, separated by plain commas. A
group is a chain of compounds, its tokens, separated by plain blanks and
combinators. What a rule is indexed by is read off the last token of a group,
made bare of its spans.
-/

namespace SelectorIndex.Selector

open SelectorIndex.Text

def isSeparator (c : Char) : Bool := c == '>' || c == '+' || c == '~' || isAsciiBlank c

/-- The trimmed alternatives of a selector; empty ones are skipped. -/
def groupTexts (cs : List Char) : List (List Char) :=
  ((({} : Scan).pieces (· == ',') cs).map trim).filter (!·.isEmpty)

/-- The compounds of a group, without the combinators between them. -/
def tokenTexts (cs : List Char) : List (List Char) :=
  (({} : Scan).pieces isSeparator cs).filter (!·.isEmpty)

/-- The text without its spans. -/
def bareText (cs : List Char) : List Char :=
  ((({} : Scan).marks cs).filter fun m => m.2 != .enclosed).map Prod.fst

/-- The text can be followed by another alternative without swallowing it. -/
def isSelfContained (selector : String) : Bool :=
  (({} : Scan).after selector.toList).isClosed

structure Group where
  text : String
  isLast : Bool
  deriving DecidableEq, Repr

/-- The texts as groups, the last one flagged. -/
def flagLast : List String → List Group
  | [] => []
  | [text] => [⟨text, true⟩]
  | text :: texts => ⟨text, false⟩ :: flagLast texts

/-- The alternatives of a selector. -/
def groups (selector : String) : List Group :=
  flagLast ((groupTexts selector.toList).map String.ofList)

def tokens (group : String) : List String := (tokenTexts group.toList).map String.ofList

/-- The rightmost compound of a group; a group of combinators alone has none. -/
def lastToken? (group : String) : Option String := (tokens group).getLast?

def bareToken (token : String) : String := String.ofList (bareText token.toList)

@[simp] theorem map_text_flagLast (texts : List String) :
    (flagLast texts).map Group.text = texts := by
  fun_induction flagLast texts <;> simp_all

/-- The flag is on the last text and on no other. -/
theorem getElem?_flagLast (texts : List String) (i : Nat) :
    (flagLast texts)[i]? = texts[i]?.map fun text => ⟨text, i + 1 == texts.length⟩ := by
  fun_induction flagLast texts generalizing i with
  | case1 => rfl
  | case2 text => cases i <;> simp
  | case3 text texts hne ih =>
    have hlength : texts.length ≠ 0 := fun h => hne (List.length_eq_zero_iff.1 h)
    cases i with
    | zero => simp; omega
    | succ i => simp [ih]

theorem map_text_groups (selector : String) :
    (groups selector).map Group.text = (groupTexts selector.toList).map String.ofList :=
  map_text_flagLast _

theorem isLast_iff_of_getElem?_groups {selector : String} {i : Nat} {group : Group}
    (h : (groups selector)[i]? = some group) :
    group.isLast = true ↔ i + 1 = (groups selector).length := by
  have hlength : (groups selector).length = (groupTexts selector.toList).length := by
    simpa using congrArg List.length (map_text_groups selector)
  rw [groups, getElem?_flagLast, List.length_map, Option.map_eq_some_iff] at h
  obtain ⟨text, -, rfl⟩ := h
  rw [beq_iff_eq, hlength]

end SelectorIndex.Selector
