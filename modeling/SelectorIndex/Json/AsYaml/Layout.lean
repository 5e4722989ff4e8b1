import SelectorIndex.Json.AsYaml.Break

/-!
# Layout of texts of JSON in YAML

JSON may be laid out at will, YAML may not: the name of a field and its colon
stand on one line and close to one another, and a line outside of all containers
does not start with a tab. On the other hand any break ends a line, and a line
may start with a byte order mark. The layout of a text is followed character by
character, with no more of its values than strings and the level of containers.
-/

namespace SelectorIndex.Json.AsYaml

structure Layout where
  level : Nat := 0
  inString : Bool := false
  /-- Within a string, after a backslash. -/
  escaped : Bool := false
  /-- The bytes since the start of the last string, while its line goes on. -/
  name? : Option Nat := none
  /-- Nothing is on the line. -/
  fresh : Bool := true
  /-- Nothing but blanks is on the line. -/
  blank : Bool := true

namespace Layout

/-- The greatest number of bytes between the start of a name and its colon. -/
def reach : Nat := 1024

def stepString (l : Layout) (c : Char) : Layout :=
  if l.escaped then { l with escaped := false }
  else if c = '\\' then { l with escaped := true }
  else { l with inString := c != '"' }

def stepBetween (l : Layout) (c : Char) : Option Layout :=
  if c = ' ' then some { l with fresh := false }
  else if c = '\t' then
    if l.blank && l.level == 0 then none else some { l with fresh := false }
  else if c = '\ufeff' ∧ l.fresh then some { l with fresh := false }
  else
    let l := { l with fresh := false, blank := false }
    if c = '"' then some { l with inString := true, name? := some 0 }
    else if c = ':' then if l.name?.any (· ≤ reach) then some l else none
    else if c = '[' ∨ c = '\x7b' then some { l with level := l.level + 1 }
    else if c = ']' ∨ c = '\x7d' then some { l with level := l.level - 1 }
    else some l

def step (l : Layout) (c : Char) : Option Layout :=
  if l.inString then
    some { l.stepString c with name? := if isBreak c then none else l.name?.map (· + c.utf8Size) }
  else if isBreak c then some { l with name? := none, fresh := true, blank := true }
  else { l with name? := l.name?.map (· + c.utf8Size) }.stepBetween c

/-- A character as JSON spells it: between strings a break is a line feed, and a mark is a space. -/
def spelled (l : Layout) (c : Char) : Char :=
  if l.inString then c
  else if isBreak c then '\n'
  else if c = '\ufeff' ∧ l.fresh then ' '
  else c

def rest? (l : Layout) : List Char → Option (List Char)
  | [] => some []
  | c :: cs => do
    let after ← l.step c
    return l.spelled c :: (← rest? after cs)

end Layout

/-- A text laid out as JSON, if it is laid out as YAML has to be. -/
def layOut? (cs : List Char) : Option (List Char) := Layout.rest? {} cs

end SelectorIndex.Json.AsYaml
