import SelectorIndex.Text.Pattern
import SelectorIndex.Proofs.Text.Escapes

/-!
# The match a search settles on

A search goes back only if what stands after a choice fails. Where it does not, the
first choices stand (`head?_andThen_of_some`), so a repetition takes the preferred
match at each turn (`head?_repeated_of_some`), and digits at most so many are taken
as far as they go (`head?_repeated_hexDigits`). Whatever stands in front of its group,
a finder captures a preferred match of the group (`exists_head?_of_capture?`).
-/

namespace SelectorIndex.Text

namespace Pattern

variable {a b : List Char → List Match} {cs front mid back rest : List Char}

theorem andThen_of_none (ha : (a cs).head? = none) : andThen a b cs = [] := by
  rw [andThen, List.head?_eq_none_iff.1 ha, List.flatMap_nil]

/-- Two preferred matches, one on what follows the other, make the preferred match of both. -/
theorem head?_andThen_of_some (ha : (a cs).head? = some (front, mid))
    (hb : (b mid).head? = some (back, rest)) :
    (andThen a b cs).head? = some (front ++ back, rest) := by
  obtain ⟨others, ha⟩ := List.head?_eq_some_iff.1 ha
  rw [andThen, ha, List.flatMap_cons, List.head?_append, List.head?_map, hb]
  rfl

theorem head?_repeated_of_none (ha : (a cs).head? = none) (n : Nat) :
    (repeated a n cs).head? = some ([], cs) := by
  cases n with
  | zero => rfl
  | succ n => rw [repeated, andThen_of_none ha]; rfl

/-- A repetition would rather go on than stop. -/
theorem head?_repeated_of_some {n : Nat} (ha : (a cs).head? = some (front, mid))
    (hn : (repeated a n mid).head? = some (back, rest)) :
    (repeated a (n + 1) cs).head? = some (front ++ back, rest) := by
  rw [repeated, List.head?_append, head?_andThen_of_some ha hn]
  rfl

theorem head?_one (p : Char → Bool) (c : Char) (cs : List Char) :
    ((one p).ways (c :: cs)).head? = if p c then some ([c], cs) else none := by
  rw [ways]
  split <;> rfl

theorem head?_one_of_pos {p : Char → Bool} {c : Char} (h : p c = true) (cs : List Char) :
    ((one p).ways (c :: cs)).head? = some ([c], cs) := by
  rw [head?_one, if_pos h]

theorem ways_char_seq (c : Char) (b : Pattern) (cs : List Char) :
    (seq (char c) b).ways (c :: cs) = (b.ways cs).map (prepend [c]) := by
  simp [ways, char, andThen]

/-- A repetition of digits takes all that it may. -/
theorem head?_repeated_hexDigits {n : Nat} {digits : List Char} (h : IsHexRun n digits rest) :
    (repeated (one isHexDigit).ways n (digits ++ rest)).head? = some (digits, rest) := by
  induction n generalizing digits with
  | zero =>
    rw [List.eq_nil_of_length_eq_zero (Nat.le_zero.1 h.length_le)]
    rfl
  | succ n ih =>
    cases digits with
    | nil =>
      refine head?_repeated_of_none ?_ (n + 1)
      cases rest with
      | nil => rfl
      | cons c rest => simp [head?_one, h.isHexDigit_head]
    | cons c digits =>
      have hc := head?_one_of_pos (h.isHexDigit c List.mem_cons_self) (digits ++ rest)
      exact head?_repeated_of_some hc (ih h.tail)

end Pattern

namespace Finder

variable {f : Finder} {cs : List Char} {m : Match}

theorem captureHere?_eq (f : Finder) (cs : List Char) :
    f.captureHere? cs = (f.lead.ways cs).findSome? fun m => (f.group.ways m.2).head? := by
  rw [captureHere?, List.head?_flatMap]

theorem exists_head?_of_captureHere? (h : f.captureHere? cs = some m) :
    ∃ tail, (f.group.ways tail).head? = some m := by
  rw [captureHere?_eq] at h
  obtain ⟨way, -, hway⟩ := List.exists_of_findSome?_eq_some h
  exact ⟨way.2, hway⟩

/-- What a group captures is its preferred match at some place of the text. -/
theorem exists_head?_of_capture? (h : f.capture? cs = some m) :
    ∃ tail, (f.group.ways tail).head? = some m := by
  induction cs with
  | nil => exact exists_head?_of_captureHere? h
  | cons c cs ih =>
    rw [capture?, Option.or_eq_some_iff] at h
    rcases h with h | ⟨-, h⟩
    · exact exists_head?_of_captureHere? h
    · split at h
      · cases h
      · exact ih h

theorem capture?_cons (hf : f.anchored = false) (c : Char) (cs : List Char) :
    f.capture? (c :: cs) = (f.captureHere? (c :: cs)).or (f.capture? cs) := by
  rw [capture?, if_neg (by simp [hf])]

theorem capture?_of_anchored (h : f.anchored = true) (cs : List Char) :
    f.capture? cs = f.captureHere? cs := by
  cases cs with
  | nil => rfl
  | cons c cs => rw [capture?, if_pos h, Option.or_none]

end Finder

end SelectorIndex.Text
