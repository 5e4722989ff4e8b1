import SelectorIndex.Document
import SelectorIndex.Json.Text

/-!
# Documents from JSON

The description of a tree: every field of a node has a default, and the tree
may be as deep as the rules of reading allow.
-/

namespace SelectorIndex.Node

/-- The record of a node whose children are read by `readChild`. -/
def record (readChild : Reader Node) : Record Node where
  name := "NodeSpec"
  default := {}
  fields := [
    .of "tag" Reader.string fun tag node => { node with tag },
    .of "id" (.optional Reader.string) fun id? node => { node with id? },
    .of "class" (.optional Reader.string) fun class? node => { node with class? },
    .of "attrs" (.map Reader.string) fun attrs node => { node with attrs := .ofList attrs },
    .of "children" (.list readChild) fun children node => { node with children }]

def readerWithin : Nat → Reader Node
  | 0 => fun _ _ => .error .tooDeep
  | levels + 1 => (record (readerWithin levels)).reader

/-- Reads a node; its levels are bounded by those of the containers it is written in. -/
def reader : Reader Node
  | r, w => readerWithin (r.levels + 1) r w

/-- A node from a value, whose fields are taken in ascending order. -/
def ofJson (j : Json) : Except DecodeError Node := Json.readValue reader j

end SelectorIndex.Node
