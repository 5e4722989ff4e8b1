import SelectorIndex.Selector.Group
import SelectorIndex.Selector.Name
import SelectorIndex.Text.UpperCase

/-!
# Classifiers

A classifier reads an index key off the bare last token of a group, and off an
element the keys to look it up under. The two sides have to agree: a rule filed
under a key is found only by elements with that key.

The built-in order is id, class, tag; the universal classifier comes after all
others and claims what is left.
-/

namespace SelectorIndex

open SelectorIndex.Text

/-- What an index reads off an element. -/
structure Facets where
  id? : Option String := none
  classes : List String := []
  tag : String
  deriving DecidableEq, Repr

/-- A source of index keys. -/
structure Classifier where
  /-- The name of the index it feeds. -/
  name : String
  /-- Its name in reports on the state of an index. -/
  label : String
  /-- The key of a bare token, or `none` to pass the token on. -/
  tokenKey? : String → Option String
  /-- Every key that an element is looked up under. -/
  elementKeys : Facets → List String

namespace Classifier

def decodedName (name : List Char) : String := String.ofList (Escape.decode name)

/-- Keys tokens by the name after their first number sign, elements by their id. -/
def byId : Classifier where
  name := "id"
  label := "IdClassifier"
  tokenKey? token := (Selector.nameAfter? '#' token.toList).map decodedName
  elementKeys facets := facets.id?.toList

/-- Keys tokens by the name after their first dot, elements by each of their classes. -/
def byClass : Classifier where
  name := "class"
  label := "ClassClassifier"
  tokenKey? token := (Selector.nameAfter? '.' token.toList).map decodedName
  elementKeys facets := facets.classes

def upperName (name : String) : String := String.ofList (upper name.toList)

/-- Keys tokens by the name they start with, elements by their tag, both in upper case. -/
def byTag : Classifier where
  name := "tag"
  label := "TagClassifier"
  tokenKey? token :=
    (Selector.leadingName? token.toList).map fun name => upperName (decodedName name)
  elementKeys facets := [upperName facets.tag]

def universalKey : String := "*"

def universal : Classifier where
  name := "universal"
  label := "UniversalClassifier"
  tokenKey? _ := some universalKey
  elementKeys _ := [universalKey]

/-- Keys tokens that start with an at sign by the rest of them, elements by each of their
classes: an index for a notation of its own. -/
def byRole : Classifier where
  name := "role"
  label := "RoleClassifier"
  tokenKey? token :=
    match token.toList with
    | '@' :: role => some (String.ofList role)
    | _ => none
  elementKeys facets := facets.classes

/-- The built-in classifiers in order, without the universal one. -/
def builtin : List Classifier := [byId, byClass, byTag]

end Classifier

/-- The slot of a group: the number of an index in classifier order, and a key in it. -/
structure Placement where
  index : Nat
  key : String
  deriving DecidableEq, Repr

namespace Placement

/-- The slot that the first classifier with a key for the token gives it. -/
def ofToken? : List Classifier → String → Option Placement
  | [], _ => none
  | c :: cs, token =>
    match c.tokenKey? token with
    | some key => some ⟨0, key⟩
    | none => (ofToken? cs token).map fun p => ⟨p.index + 1, p.key⟩

/-- The slot of a group, read off its last token. A group without tokens has none. -/
def ofGroup? (classifiers : List Classifier) (group : String) : Option Placement :=
  (Selector.lastToken? group).bind fun token => ofToken? classifiers (Selector.bareToken token)

end Placement

end SelectorIndex
