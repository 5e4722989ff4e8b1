import SelectorIndex.Proofs.Queries
import SelectorIndex.Proofs.Selector.Pieces
import SelectorIndex.Proofs.Selector.Segments

/-!
# Accepted selectors are self-contained

A query joins selectors into a list, but for those that would swallow what
follows them there. No selector that a document can read is such: whether a text
is closed shows in how the scanner marks a comma after it
(`Scan.isClosed_iff_step_comma`), and after a chain the comma is plain
(`isClosed_of_chain`). A selector is closed if its pieces are
(`Scan.isClosed_of_pieces`). So a query never asks a document about a selector
alone that the document can read (`accepted_self_contained`).
-/

namespace SelectorIndex

open SelectorIndex.Text

namespace Selector

/-! ## Closed selectors -/

/-- A comma after a chain would separate it from what follows. -/
theorem isClosed_of_chain {cs : List Char} {c : Chain} (h : Parser.chain cs = .ok c) :
    (({} : Scan).after cs).isClosed = true := by
  obtain ⟨trail, hcs, htrail, hreads⟩ := reads_of_chain h
  generalize Parser.segments cs = segments at hcs hreads
  subst hcs
  rw [Scan.after_append]
  refine Scan.isClosed_after_blanks (Scan.isClosed_iff_step_comma.2 ?_) htrail
  have hends : StandsFor [','] trail := .inr (endsEscape_cons rfl rfl)
  have hempty : StandsFor [] trail := .inr endsEscape_nil
  have hcomma := hreads.marks_append hends
  have hnone := hreads.marks_append hempty
  rw [List.append_nil, Scan.marks, List.append_nil] at hnone
  rw [Scan.marks_append, hnone, List.append_cancel_left_eq] at hcomma
  exact congrArg Prod.snd (List.cons.inj hcomma).1

theorem isClosed_of_piece {piece : List Char}
    (h : trim piece ≠ [] → ∃ c, Parser.chain (trim piece) = .ok c) :
    (({} : Scan).after piece).isClosed = true := by
  obtain ⟨front, back, hpiece, hfront, hback⟩ := exists_trim piece
  rw [hpiece, Scan.after_append, Scan.after_append, Scan.after_blanks hfront]
  refine Scan.isClosed_after_blanks ?_ hback
  by_cases hne : trim piece = []
  · rw [hne]
    rfl
  · obtain ⟨c, hc⟩ := h hne
    exact isClosed_of_chain hc

theorem isSelfContained_of_parse {selector : String} {chains : List Chain}
    (h : parse selector = .ok chains) : isSelfContained selector = true := by
  obtain ⟨-, hchains⟩ := isReadable_iff.2 ⟨chains, h⟩
  refine Scan.isClosed_of_pieces fun p hp => isClosed_of_piece fun hne => ?_
  refine hchains _ (List.mem_filter.2 ⟨List.mem_map_of_mem hp, ?_⟩)
  simpa using hne

end Selector

/-! ## Calls of a query -/

namespace Consult

variable {ε α β : Type} {P : Call ε → Prop}

def Asks (x : Consult ε α) (P : Call ε → Prop) : Prop := ∀ call ∈ x.calls, P call

theorem asks_pure (a : α) : (Pure.pure a : Consult ε α).Asks P := nofun

theorem Asks.bind {x : Consult ε α} {f : α → Consult ε β} (h : x.Asks P)
    (hf : ∀ a, (f a).Asks P) : (x >>= f).Asks P := by
  cases hx : x.result with
  | error cause =>
    rw [bind_of_error hx]
    exact h
  | ok a =>
    rw [bind_of_ok hx]
    intro call hcall
    exact (List.mem_append.1 hcall).elim (h call) (hf a call)

end Consult

namespace RuleSet

variable {ε δ : Type} {P : Call ε → Prop} {set : RuleSet δ} {host : Host ε} {root : ε}

theorem asks_testEach (htest : ∀ e s, P (.test e s)) (e : ε) (rules : List (Rule δ)) :
    (testEach host e rules).Asks P := by
  induction rules with
  | nil => exact Consult.asks_pure _
  | cons r rest ih =>
    have hcall : (Consult.test host e r.selector).Asks P :=
      List.forall_mem_singleton.2 (htest e r.selector)
    exact hcall.bind fun _ => ih.bind fun _ => Consult.asks_pure _

theorem asks_matchEach (htest : ∀ e s, P (.test e s)) (elements : List ε) :
    (set.matchEach host elements).Asks P := by
  induction elements with
  | nil => exact Consult.asks_pure _
  | cons e rest ih =>
    exact (asks_testEach htest e _).bind fun _ => ih.bind fun _ => Consult.asks_pure _

theorem asks_queryJoined (htest : ∀ e s, P (.test e s)) {selectors : List String}
    (hjoin : P (.select root (", ".intercalate selectors))) :
    (set.queryJoined host root selectors).Asks P := by
  cases selectors with
  | nil => exact Consult.asks_pure _
  | cons s rest =>
    have hcall : (Consult.select host root (", ".intercalate (s :: rest))).Asks P :=
      List.forall_mem_singleton.2 hjoin
    exact hcall.bind fun elements => asks_matchEach htest elements

theorem asks_queryIsolated {selectors : List String} (h : ∀ s ∈ selectors, P (.select root s)) :
    (queryIsolated host root selectors).Asks P := by
  induction selectors with
  | nil => exact Consult.asks_pure _
  | cons s rest ih =>
    obtain ⟨hs, hrest⟩ := List.forall_mem_cons.1 h
    have hcall : (Consult.select host root s).Asks P := List.forall_mem_singleton.2 hs
    exact hcall.bind fun _ => (ih hrest).bind fun _ => Consult.asks_pure _

/-- A query asks for the list of the joined selectors and for isolated ones; whatever else it
asks is whether elements match. -/
theorem asks_queryAll (htest : ∀ e s, P (.test e s))
    (hjoin : P (.select root (", ".intercalate set.queryPlan.joined)))
    (halone : ∀ s ∈ set.queryPlan.isolated, P (.select root s)) :
    (set.queryAll host root).Asks P :=
  (asks_queryJoined htest hjoin).bind fun _ =>
    (asks_queryIsolated halone).bind fun _ => Consult.asks_pure _

theorem isSelfContained_of_mem_isolated {s : String} (h : s ∈ set.queryPlan.isolated) :
    Selector.isSelfContained s = false := by
  rw [queryPlan, List.partition_eq_filter_filter] at h
  simpa using (List.mem_filter.1 h).2

/-- A selector that documents can read is self-contained, so a query never asks for it alone; and
one that ends within a span or an escape is read by no document. -/
theorem accepted_self_contained (selector : String) (set : RuleSet δ) (doc : Document)
    (root : Nat) :
    (∀ chains, Selector.parse selector = .ok chains →
      Selector.isSelfContained selector = true ∧ selector ∉ set.queryPlan.isolated ∧
      ∀ r, .select r selector ∈ (set.queryAll doc.host root).calls →
        r = root ∧ selector = ", ".intercalate set.queryPlan.joined) ∧
    (Selector.isSelfContained selector = false → ∃ cause,
      Selector.parse selector = .error cause ∧
      ∀ e, doc.host.test e selector = .error (.invalidSelector selector cause.message) ∧
        doc.host.select e selector = .error (.invalidSelector selector cause.message)) := by
  constructor
  · intro chains h
    have hclosed := Selector.isSelfContained_of_parse h
    have hjoined : selector ∉ set.queryPlan.isolated := fun hmem => by
      rw [isSelfContained_of_mem_isolated hmem] at hclosed
      cases hclosed
    have hasks : (set.queryAll doc.host root).Asks fun call =>
        ∀ r, call = .select r selector →
          r = root ∧ selector = ", ".intercalate set.queryPlan.joined := by
      apply asks_queryAll
      · exact fun e s r hcall => nomatch hcall
      · intro r hcall
        cases hcall
        exact ⟨rfl, rfl⟩
      · intro s hs r hcall
        cases hcall
        exact absurd hs hjoined
    exact ⟨hclosed, hjoined, fun r hr => hasks _ hr r rfl⟩
  · intro hopen
    cases h : Selector.parse selector with
    | ok chains =>
      rw [Selector.isSelfContained_of_parse h] at hopen
      cases hopen
    | error cause =>
      exact ⟨cause, rfl, fun e =>
        ⟨Document.test_host_of_error doc e h, Document.select_host_of_error doc e h⟩⟩

/-- One rule that is read, with brackets in a string, and one that ends within a span. -/
def bracketRules : RuleSet Nat := ((empty.add "p[x='][']" 0).2.add "p[x" 1).2

theorem accepted_self_contained_brackets :
    Selector.parse "p[x='][']" = .ok [.one [.tag "p", .attr "x" (.equals "][")]] ∧
    Selector.isSelfContained "p[x='][']" = true ∧
    (∀ r, .select r "p[x='][']" ∈
        (bracketRules.queryAll (Document.ofNode { tag := "p" }).host 0).calls →
      r = 0 ∧ "p[x='][']" = ", ".intercalate bracketRules.queryPlan.joined) ∧
    Selector.isSelfContained "p[x" = false ∧
    (∃ cause, Selector.parse "p[x" = .error cause) ∧
    bracketRules.queryPlan = ⟨["p[x='][']"], ["p[x"]⟩ := by
  have hparse : Selector.parse "p[x='][']" =
      .ok [.one [.tag "p", .attr "x" (.equals "][")]] := by decide +kernel
  have hopen : Selector.isSelfContained "p[x" = false := by decide +kernel
  obtain ⟨hread, -⟩ :=
    accepted_self_contained "p[x='][']" bracketRules (Document.ofNode { tag := "p" }) 0
  obtain ⟨-, hunread⟩ :=
    accepted_self_contained "p[x" bracketRules (Document.ofNode { tag := "p" }) 0
  obtain ⟨hclosed, -, hcalls⟩ := hread _ hparse
  obtain ⟨cause, hcause, -⟩ := hunread hopen
  exact ⟨hparse, hclosed, hcalls, hopen, ⟨cause, hcause⟩, by decide +kernel⟩

end RuleSet

end SelectorIndex
