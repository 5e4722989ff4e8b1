import SelectorIndex.Json

/-!
# Written values

A value as a text spells it, before it is decided what its scalars mean: a
scalar without quotes keeps its spelling, and a string may hold an escape that
names no character. A part of a text that nobody reads may hold such strings,
and numbers of any size.
-/

namespace SelectorIndex

inductive Written where
  /-- A scalar without quotes: null, a boolean or a number. -/
  | plain (spelling : String)
  /-- A number of double precision that was never spelled. -/
  | double (x : Double)
  /-- A string, unless one of its escapes names no character. -/
  | quoted (content : Option String)
  | array (items : List Written)
  | object (fields : List (Option String × Written))
  deriving Inhabited, Repr

namespace Written

/-! ## The spelling of a value -/

mutual

def ofJson : Json → Written
  | .null => plain "null"
  | .bool true => plain "true"
  | .bool false => plain "false"
  | .int n => plain (toString n)
  | .double x => double x
  | .string s => quoted (some s)
  | .array items => array (ofItems items)
  | .object fields => object (ofFields fields)

def ofItems : List Json → List Written
  | [] => []
  | j :: rest => ofJson j :: ofItems rest

def ofFields : List (String × Json) → List (Option String × Written)
  | [] => []
  | (key, j) :: rest => (some key, ofJson j) :: ofFields rest

end

/-! ## Depth -/

mutual

def depth : Written → Nat
  | array items => depthItems items + 1
  | object fields => depthFields fields + 1
  | _ => 0

def depthItems : List Written → Nat
  | [] => 0
  | w :: rest => max (depth w) (depthItems rest)

def depthFields : List (Option String × Written) → Nat
  | [] => 0
  | (_, w) :: rest => max (depth w) (depthFields rest)

end

end Written

end SelectorIndex
