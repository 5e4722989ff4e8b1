import SelectorIndex.Document
import SelectorIndex.Host
import SelectorIndex.Selector.Parser

/-!
# Matching in documents

A chain is matched from its right end: the element has to satisfy the last
compound, and the chain before it has to match some element that stands to it
as the combinator says. Ancestors and siblings are searched exhaustively, so a
first fit that leads nowhere is given up again. Tags are compared up to the
case of ASCII letters, everything else exactly.
-/

namespace SelectorIndex

open Selector

/-- Equal up to the case of ASCII letters. -/
def sameTag (a b : String) : Bool := a.toList.map Char.toLower == b.toList.map Char.toLower

def Selector.parseOrFail (selector : String) : Except Failure (List Chain) :=
  (parse selector).mapError fun cause => .invalidSelector selector cause.message

namespace Document

def satisfiesAttr (value : String) : AttrTest → Bool
  | .present => true
  | .equals expected => value == expected
  | .includes word => (wordsOf value).contains word

def satisfiesSimple (doc : Document) (e : Nat) : Simple → Bool
  | .tag name => sameTag (doc.tag e) name
  | .id name => doc.id? e == some name
  | .className name => (doc.classes e).contains name
  | .attr name test => (doc.attr? e name).any (satisfiesAttr · test)

def satisfies (doc : Document) (e : Nat) (c : Compound) : Bool := c.all (doc.satisfiesSimple e)

/-- The elements that the left neighbour of a compound may be tested on, if `e` is the one the
compound is tested on. -/
def related (doc : Document) (e : Nat) : Combinator → List Nat
  | .descendant => doc.ancestors e
  | .child => (doc.parent? e).toList
  | .adjacent => (doc.preceding e).head?.toList
  | .sibling => doc.preceding e

def matchesChain (doc : Document) : Chain → Nat → Bool
  | .one c, e => doc.satisfies e c
  | .step left k c, e => doc.satisfies e c && (doc.related e k).any (doc.matchesChain left)

def matchesAny (doc : Document) (cs : List Chain) (e : Nat) : Bool :=
  cs.any fun c => doc.matchesChain c e

/-- The document as a host: the reference meaning of selectors. -/
def host (doc : Document) : Host Nat where
  facets := doc.facets
  test e selector := do return doc.matchesAny (← parseOrFail selector) e
  select root selector := do
    let cs ← parseOrFail selector
    return (doc.descendants root).filter (doc.matchesAny cs)

/-- The first of an element and the elements below it that matches; none if the selector
cannot be read. -/
def find? (doc : Document) (e : Nat) (selector : String) : Option Nat :=
  (e :: doc.descendants e).find? fun x => (doc.host.test x selector).toOption.getD false

end Document

end SelectorIndex
