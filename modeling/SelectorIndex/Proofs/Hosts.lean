import SelectorIndex.Host
import SelectorIndex.Rule
import SelectorIndex.Selector.Group

/-!
# Hosts that are asked

What a consultation asks, and what it may rely on. `AskedInTurn` describes a
consultation that asks about one rule after the other; `Host.Obeys` is the word
that a host gives to those who query it.
-/

namespace SelectorIndex

variable {ε δ : Type}

theorem Consult.result_bind_eq_ok {α β : Type} {x : Consult ε α} {f : α → Consult ε β} {b : β}
    (h : (x >>= f).result = .ok b) : ∃ a, x.result = .ok a ∧ (f a).result = .ok b := by
  cases hx : x.result with
  | error cause =>
    rw [bind_of_error hx] at h
    cases h
  | ok a =>
    rw [bind_of_ok hx] at h
    exact ⟨a, rfl, h⟩

namespace Host

def accepts (host : Host ε) (e : ε) (selector : String) : Bool :=
  (host.test e selector).toOption.getD false

/-- The host answers whether the element matches the selector. -/
def Answers (host : Host ε) (e : ε) (selector : String) : Prop :=
  ∃ b, host.test e selector = .ok b

theorem accepts_of_test {host : Host ε} {e : ε} {selector : String} {b : Bool}
    (h : host.test e selector = .ok b) : host.accepts e selector = b := by
  rw [accepts, h]
  rfl

theorem accepts_eq_true_iff {host : Host ε} {e : ε} {selector : String} :
    host.accepts e selector = true ↔ host.test e selector = .ok true := by
  rw [accepts]
  cases host.test e selector with
  | error cause => simp [Except.toOption]
  | ok b => simp [Except.toOption]

/-- The elements below the root that the host says match the selector. -/
def selected (host : Host ε) (root : ε) (selector : String) : List ε :=
  (host.select root selector).toOption.getD []

theorem selected_of_select {host : Host ε} {root : ε} {selector : String} {elements : List ε}
    (h : host.select root selector = .ok elements) : host.selected root selector = elements := by
  rw [selected, h]
  rfl

/-- A host that answers for readable selectors, and means by a query and by a list of selectors
what it means by matching. `below` are the elements below a root in document order. -/
structure Obeys (host : Host ε) (below : ε → List ε) (readable : String → Prop) : Prop where
  answers : ∀ e s, readable s → host.Answers e s
  select_eq : ∀ root s, readable s →
    host.select root s = .ok ((below root).filter fun e => host.accepts e s)
  join : ∀ ss : List String, ss ≠ [] →
    (∀ s ∈ ss, readable s ∧ Selector.isSelfContained s = true) →
    readable (", ".intercalate ss) ∧
      ∀ e, host.accepts e (", ".intercalate ss) = ss.any fun s => host.accepts e s

end Host

/-- A consultation that asks about rules in turn: the first failure ends it, and its result is
the rules that the element matches. -/
def AskedInTurn (host : Host ε) (e : ε) (called : List (Rule δ))
    (consult : Consult ε (List (Rule δ))) : Prop :=
  (∃ front r back cause, called = front ++ r :: back ∧
    (∀ q ∈ front, host.Answers e q.selector) ∧ host.test e r.selector = .error cause ∧
    consult.calls = (front ++ [r]).map (fun q => .test e q.selector) ∧
    consult.result = .error cause) ∨
  ((∀ q ∈ called, host.Answers e q.selector) ∧
    consult.calls = called.map (fun q => .test e q.selector) ∧
    consult.result = .ok (called.filter fun q => host.accepts e q.selector))

theorem AskedInTurn.result_of_answers {host : Host ε} {e : ε} {called : List (Rule δ)}
    {consult : Consult ε (List (Rule δ))} (h : AskedInTurn host e called consult)
    (ha : ∀ q ∈ called, host.Answers e q.selector) :
    consult.result = .ok (called.filter fun q => host.accepts e q.selector) := by
  rcases h with ⟨front, r, back, cause, rfl, -, hr, -⟩ | ⟨-, -, hres⟩
  · obtain ⟨b, hb⟩ := ha r (List.mem_append_right _ List.mem_cons_self)
    rw [hr] at hb
    cases hb
  · exact hres

end SelectorIndex
