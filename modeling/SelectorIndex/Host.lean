import SelectorIndex.Classifier

/-!
# Hosts

A set of rules only narrows down candidates. What its elements are, whether one
matches a selector, and which elements below another do, is for the host of the
set to say. A lookup is a consultation of the host: its result together with
the calls it made, in order. The first call that fails ends it.
-/

namespace SelectorIndex

/-- What a lookup or a configuration can fail with. -/
inductive Failure where
  /-- The host cannot read a selector. -/
  | invalidSelector (selector cause : String)
  /-- Any other failure of the host. -/
  | engine (cause : String)
  | invalidConfig (cause : String)
  deriving DecidableEq, Repr

def Failure.message : Failure → String
  | invalidSelector selector cause => "invalid selector \"" ++ selector ++ "\": " ++ cause
  | engine cause => "selector engine failed: " ++ cause
  | invalidConfig cause => "invalid config: " ++ cause

/-- The elements of an application, and its meaning of selectors. -/
structure Host (ε : Type) where
  facets : ε → Facets
  /-- The element matches the selector. -/
  test : ε → String → Except Failure Bool
  /-- The elements below a root that match the selector, in document order. -/
  select : ε → String → Except Failure (List ε)

inductive Call (ε : Type) where
  | test (element : ε) (selector : String)
  | select (root : ε) (selector : String)
  deriving DecidableEq, Repr

/-- A result that was reached by calls of a host. -/
structure Consult (ε α : Type) where
  calls : List (Call ε)
  result : Except Failure α

namespace Consult

variable {ε α β : Type}

def pure (a : α) : Consult ε α := ⟨[], .ok a⟩

/-- The second part is reached only from a result of the first. -/
def bind (x : Consult ε α) (f : α → Consult ε β) : Consult ε β :=
  match x.result with
  | .ok a =>
    let y := f a
    ⟨x.calls ++ y.calls, y.result⟩
  | .error cause => ⟨x.calls, .error cause⟩

instance : Monad (Consult ε) where
  pure := Consult.pure
  bind := Consult.bind

def test (host : Host ε) (e : ε) (selector : String) : Consult ε Bool :=
  ⟨[.test e selector], host.test e selector⟩

def select (host : Host ε) (root : ε) (selector : String) : Consult ε (List ε) :=
  ⟨[.select root selector], host.select root selector⟩

@[simp] theorem calls_pure (a : α) : (Pure.pure a : Consult ε α).calls = [] := rfl

@[simp] theorem result_pure (a : α) : (Pure.pure a : Consult ε α).result = .ok a := rfl

theorem bind_of_ok {x : Consult ε α} {a : α} (h : x.result = .ok a) (f : α → Consult ε β) :
    x >>= f = ⟨x.calls ++ (f a).calls, (f a).result⟩ := by
  simp [Bind.bind, bind, h]

theorem bind_of_error {x : Consult ε α} {cause : Failure} (h : x.result = .error cause)
    (f : α → Consult ε β) : x >>= f = ⟨x.calls, .error cause⟩ := by
  simp [Bind.bind, bind, h]

end Consult

end SelectorIndex
