/-!
# Cutting a text at marked characters

A text whose characters are each marked as kept or as a separator is cut into
the runs between its separators, empty runs included. So a text with `n`
separators has `n + 1` runs, and nothing but the separators is lost.
-/

namespace SelectorIndex.Text

/-- The runs of unmarked characters between the marked ones. -/
def cut : List (Char × Bool) → List (List Char)
  | [] => [[]]
  | (_, true) :: rest => [] :: cut rest
  | (c, false) :: rest => (cut rest).modifyHead (c :: ·)

@[simp] theorem cut_ne_nil (cs : List (Char × Bool)) : cut cs ≠ [] := by
  induction cs with
  | nil => simp [cut]
  | cons p rest ih =>
    obtain ⟨c, _ | _⟩ := p
    · cases h : cut rest with
      | nil => exact absurd h ih
      | cons run runs => simp [cut, h]
    · simp [cut]

/-- Only the marked characters are lost. -/
theorem flatten_cut (cs : List (Char × Bool)) :
    (cut cs).flatten = (cs.filter fun p => !p.2).map Prod.fst := by
  induction cs with
  | nil => rfl
  | cons p rest ih =>
    obtain ⟨c, _ | _⟩ := p
    · cases h : cut rest with
      | nil => exact absurd h (cut_ne_nil rest)
      | cons run runs => simp [cut, h, ← ih]
    · simp [cut, ih]

end SelectorIndex.Text
