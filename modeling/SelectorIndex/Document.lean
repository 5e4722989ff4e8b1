import SelectorIndex.Classifier
import SelectorIndex.Text.Blank

/-!
# Documents

A document is a tree of elements, kept as the list of its elements in document
order: each element before its children, and a subtree before its later
siblings. An element is named by its number in that order, the root by 0.
-/

namespace SelectorIndex

/-! ## Attributes -/

/-- Values by name, each name once. -/
abbrev Attributes := List (String × String)

namespace Attributes

def get? (attrs : Attributes) (name : String) : Option String := attrs.lookup name

/-- The value of a name set, in the place of an earlier one. -/
def set (name value : String) : Attributes → Attributes
  | [] => [(name, value)]
  | (n, v) :: rest => if n = name then (name, value) :: rest else (n, v) :: set name value rest

def ofList (entries : List (String × String)) : Attributes :=
  entries.foldl (fun attrs (name, value) => set name value attrs) []

end Attributes

/-! ## Trees -/

/-- A tree of elements as it is described. -/
structure Node where
  tag : String := ""
  id? : Option String := none
  /-- The class names, separated by blanks. -/
  class? : Option String := none
  attrs : Attributes := []
  children : List Node := []
  deriving Inhabited, Repr

namespace Node

def withId (node : Node) (id : String) : Node := { node with id? := some id }

def withClass (node : Node) (name : String) : Node :=
  { node with class? := some (node.class?.elim name (· ++ " " ++ name)) }

def withAttr (node : Node) (name value : String) : Node :=
  { node with attrs := node.attrs.set name value }

def withChild (node child : Node) : Node := { node with children := node.children ++ [child] }

/-- The attributes of the element, id and class among them. -/
def allAttrs (node : Node) : Attributes :=
  let attrs := node.id?.elim node.attrs fun id => node.attrs.set "id" id
  node.class?.elim attrs fun c => attrs.set "class" c

mutual

def size : Node → Nat
  | ⟨_, _, _, _, children⟩ => sizes children + 1

def sizes : List Node → Nat
  | [] => 0
  | node :: rest => size node + sizes rest

end

mutual

/-- The subtrees in document order. -/
def preorder : Node → List Node
  | ⟨tag, id?, class?, attrs, children⟩ => ⟨tag, id?, class?, attrs, children⟩ :: preorders children

def preorders : List Node → List Node
  | [] => []
  | node :: rest => preorder node ++ preorders rest

end

end Node

/-! ## Documents -/

structure Document.Entry where
  tag : String
  attrs : Attributes
  parent? : Option Nat
  children : List Nat
  deriving DecidableEq, Inhabited, Repr

/-- The elements in document order. -/
structure Document where
  entries : Array Document.Entry
  deriving Repr

namespace Document

/-- The numbers of sibling trees, the first of them at `number`. -/
def numbers (number : Nat) : List Node → List Nat
  | [] => []
  | node :: rest => number :: numbers (number + node.size) rest

mutual

/-- The elements of a tree whose root is at `number`. -/
def entriesAt (parent? : Option Nat) (number : Nat) : Node → List Entry
  | ⟨tag, id?, class?, attrs, children⟩ =>
    ⟨tag, Node.allAttrs ⟨tag, id?, class?, attrs, []⟩, parent?, numbers (number + 1) children⟩
      :: siblingsAt number (number + 1) children

/-- The elements of sibling trees, the first of them at `number`. -/
def siblingsAt (parent number : Nat) : List Node → List Entry
  | [] => []
  | node :: rest =>
    entriesAt (some parent) number node ++ siblingsAt parent (number + node.size) rest

end

def ofNode (root : Node) : Document := ⟨(entriesAt none 0 root).toArray⟩

def size (doc : Document) : Nat := doc.entries.size

/-- The entry of an element; one that is not in the document has no neighbours. -/
def entry (doc : Document) (e : Nat) : Entry := doc.entries[e]?.getD ⟨"", [], none, []⟩

def tag (doc : Document) (e : Nat) : String := (doc.entry e).tag

def attr? (doc : Document) (e : Nat) (name : String) : Option String :=
  (doc.entry e).attrs.get? name

def id? (doc : Document) (e : Nat) : Option String := doc.attr? e "id"

/-- The words of a text. -/
def wordsOf (s : String) : List String := (Text.words s.toList).map String.ofList

def classes (doc : Document) (e : Nat) : List String := (doc.attr? e "class").elim [] wordsOf

def facets (doc : Document) (e : Nat) : Facets := ⟨doc.id? e, doc.classes e, doc.tag e⟩

/-! ## Neighbours -/

def parent? (doc : Document) (e : Nat) : Option Nat := (doc.entry e).parent?

def children (doc : Document) (e : Nat) : List Nat := (doc.entry e).children

/-- The first `bound` ancestors, nearest first. -/
def ancestorsWithin (doc : Document) : Nat → Nat → List Nat
  | 0, _ => []
  | bound + 1, e =>
    match doc.parent? e with
    | some p => p :: ancestorsWithin doc bound p
    | none => []

def ancestors (doc : Document) (e : Nat) : List Nat := doc.ancestorsWithin doc.size e

/-- The siblings before an element, nearest first. -/
def preceding (doc : Document) (e : Nat) : List Nat :=
  match doc.parent? e with
  | some p => ((doc.children p).takeWhile (· != e)).reverse
  | none => []

/-- The first `bound` elements met when each element of the stack is followed by its subtree. -/
def walk (doc : Document) : Nat → List Nat → List Nat
  | 0, _ => []
  | _ + 1, [] => []
  | bound + 1, e :: stack => e :: walk doc bound (doc.children e ++ stack)

/-- The elements below an element, in document order. -/
def descendants (doc : Document) (e : Nat) : List Nat := doc.walk doc.size (doc.children e)

/-! ## Short forms -/

/-- An element's tag, id and class names in the notation of selectors. -/
def describe (doc : Document) (e : Nat) : String :=
  doc.tag e ++ (doc.id? e).elim "" ("#" ++ ·) ++ String.join ((doc.classes e).map ("." ++ ·))

def inspect (doc : Document) (e : Nat) : String := "<" ++ doc.describe e ++ ">"

end Document

end SelectorIndex
