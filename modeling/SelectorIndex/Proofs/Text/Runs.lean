import SelectorIndex.Text.Blank

/-!
# Runs of a text

How a cut treats a text in two parts, and that a run, trimmed or not, is a part
of the text that it is cut from.
-/

namespace SelectorIndex.Text

theorem cut_append_marked (front : List (Char × Bool)) (c : Char) (back : List (Char × Bool)) :
    cut (front ++ (c, true) :: back) = cut front ++ cut back := by
  induction front with
  | nil => rfl
  | cons p front ih =>
    obtain ⟨d, _ | _⟩ := p
    · obtain ⟨run, runs, h⟩ := List.exists_cons_of_ne_nil (cut_ne_nil front)
      simp [cut, ih, h]
    · simp [cut, ih]

theorem cut_append_unmarked (front : List Char) (back : List (Char × Bool)) :
    cut (front.map (·, false) ++ back) = (cut back).modifyHead (front ++ ·) := by
  obtain ⟨run, runs, h⟩ := List.exists_cons_of_ne_nil (cut_ne_nil back)
  induction front with
  | nil => simp [h]
  | cons c front ih => simp [cut, ih, h]

theorem exists_cut_append (front : List (Char × Bool)) :
    ∃ runs run, ∀ back : List Char, cut (front ++ back.map (·, false)) = runs ++ [run ++ back] := by
  induction front with
  | nil => exact ⟨[], [], fun back => by simpa [cut] using cut_append_unmarked back []⟩
  | cons p front ih =>
    obtain ⟨runs, run, hcut⟩ := ih
    obtain ⟨c, _ | _⟩ := p
    · cases runs with
      | nil => exact ⟨[], c :: run, fun back => by simp [cut, hcut]⟩
      | cons run' runs => exact ⟨(c :: run') :: runs, run, fun back => by simp [cut, hcut]⟩
    · exact ⟨[] :: runs, run, fun back => by simp [cut, hcut]⟩

theorem head_cut_isPrefix {cs : List (Char × Bool)} {run : List Char} {runs : List (List Char)}
    (h : cut cs = run :: runs) : run <+: cs.map Prod.fst := by
  induction cs generalizing run runs with
  | nil => cases h; exact List.nil_prefix
  | cons p rest ih =>
    obtain ⟨c, _ | _⟩ := p
    · obtain ⟨run', runs', h'⟩ := List.exists_cons_of_ne_nil (cut_ne_nil rest)
      rw [cut, h'] at h
      cases h
      exact List.cons_prefix_cons.2 ⟨rfl, ih h'⟩
    · cases h
      exact List.nil_prefix

theorem isInfix_of_mem_cut {cs : List (Char × Bool)} {run : List Char} (h : run ∈ cut cs) :
    run <:+: cs.map Prod.fst := by
  induction cs with
  | nil =>
    rw [List.mem_singleton.1 h]
    exact List.nil_infix
  | cons p rest ih =>
    have hsuffix : rest.map Prod.fst <:+ (p :: rest).map Prod.fst := List.suffix_cons _ _
    obtain ⟨c, _ | _⟩ := p
    · obtain ⟨run', runs', h'⟩ := List.exists_cons_of_ne_nil (cut_ne_nil rest)
      rw [h'] at ih
      rw [cut, h'] at h
      rcases List.mem_cons.1 h with rfl | h
      · exact (List.cons_prefix_cons.2 ⟨rfl, head_cut_isPrefix h'⟩).isInfix
      · exact (ih (List.mem_cons_of_mem run' h)).trans hsuffix.isInfix
    · rcases List.mem_cons.1 h with rfl | h
      · exact List.nil_infix
      · exact (ih h).trans hsuffix.isInfix

theorem trim_cons_blank {c : Char} (h : isBlank c = true) (cs : List Char) :
    trim (c :: cs) = trim cs := by
  rw [trim, List.dropWhile_cons_of_pos h, trim]

theorem trim_isPrefix_dropWhile (cs : List Char) : trim cs <+: cs.dropWhile isBlank := by
  rw [trim, ← List.reverse_suffix, List.reverse_reverse]
  exact List.dropWhile_suffix _

theorem trim_isInfix (cs : List Char) : trim cs <:+: cs :=
  (trim_isPrefix_dropWhile cs).isInfix.trans (List.dropWhile_suffix _).isInfix

theorem exists_trim (cs : List Char) :
    ∃ front back, cs = front ++ trim cs ++ back ∧ (∀ c ∈ front, isBlank c = true) ∧
      ∀ c ∈ back, isBlank c = true := by
  have hblank (ds : List Char) : ∀ c ∈ ds.takeWhile isBlank, isBlank c = true :=
    List.all_eq_true.1 List.all_takeWhile
  refine ⟨cs.takeWhile isBlank, ((cs.dropWhile isBlank).reverse.takeWhile isBlank).reverse, ?_,
    hblank cs, fun c hc => hblank _ c (List.mem_reverse.1 hc)⟩
  rw [trim, List.append_assoc, ← List.reverse_append, List.takeWhile_append_dropWhile,
    List.reverse_reverse, List.takeWhile_append_dropWhile]

theorem head?_dropWhile_isBlank {cs : List Char} {c : Char}
    (h : c ∈ (cs.dropWhile isBlank).head?) : isBlank c = false := by
  have := List.head?_dropWhile_not isBlank cs
  rwa [Option.mem_def.1 h] at this

theorem head?_trim {cs : List Char} {c : Char} (h : c ∈ (trim cs).head?) : isBlank c = false := by
  obtain ⟨tail, htail⟩ := trim_isPrefix_dropWhile cs
  have hmem : c ∈ (cs.dropWhile isBlank).head? := by
    rw [← htail, List.head?_append, Option.mem_def.1 h]
    rfl
  exact head?_dropWhile_isBlank hmem

theorem getLast?_trim {cs : List Char} {c : Char} (h : c ∈ (trim cs).getLast?) :
    isBlank c = false := by
  rw [trim, List.getLast?_reverse] at h
  exact head?_dropWhile_isBlank h

def trimEnd (cs : List Char) : List Char := (cs.reverse.dropWhile isBlank).reverse

theorem trim_eq_trimEnd {cs : List Char} (h : ∀ c ∈ cs.head?, isBlank c = false) :
    trim cs = trimEnd cs := by
  cases cs with
  | nil => rfl
  | cons c cs =>
    rw [trim, List.dropWhile_cons_of_neg (by simp [h c rfl])]
    rfl

theorem trimEnd_ne_nil {cs : List Char} {c : Char} (hc : c ∈ cs) (h : isBlank c = false) :
    trimEnd cs ≠ [] := by
  rw [trimEnd, ne_eq, List.reverse_eq_nil_iff]
  intro hnil
  have hall : cs.reverse.takeWhile isBlank = cs.reverse := by
    rw [← List.append_nil (cs.reverse.takeWhile isBlank), ← hnil, List.takeWhile_append_dropWhile]
  have hblank : ∀ d ∈ cs.reverse.takeWhile isBlank, isBlank d = true :=
    List.all_eq_true.1 List.all_takeWhile
  rw [hall] at hblank
  have := hblank c (List.mem_reverse.2 hc)
  rw [h] at this
  cases this

theorem trimEnd_isPrefix (cs : List Char) : trimEnd cs <+: cs := by
  rw [trimEnd, ← List.reverse_suffix, List.reverse_reverse]
  exact List.dropWhile_suffix _

theorem head?_trimEnd {cs : List Char} {c : Char} (hc : cs.head? = some c)
    (h : isBlank c = false) : (trimEnd cs).head? = some c := by
  obtain ⟨d, ds, hd⟩ := List.exists_cons_of_ne_nil (trimEnd_ne_nil (List.mem_of_mem_head? hc) h)
  obtain ⟨tail, htail⟩ := trimEnd_isPrefix cs
  rw [hd] at htail ⊢
  rw [← htail] at hc
  exact hc

theorem trimEnd_append (front : List Char) {back : List Char} (h : trimEnd back ≠ []) :
    trimEnd (front ++ back) = front ++ trimEnd back := by
  rw [trimEnd, ne_eq, List.reverse_eq_nil_iff] at h
  have hne : (back.reverse.dropWhile isBlank).isEmpty = false := List.isEmpty_eq_false_iff.2 h
  rw [trimEnd, List.reverse_append, List.dropWhile_append, hne, if_neg Bool.false_ne_true,
    List.reverse_append, List.reverse_reverse]
  rfl

theorem trimEnd_append_blank (cs : List Char) {c : Char} (h : isBlank c = true) :
    trimEnd (cs ++ [c]) = trimEnd cs := by
  rw [trimEnd, List.reverse_append, List.reverse_singleton, List.singleton_append,
    List.dropWhile_cons_of_pos h, trimEnd]

theorem trimEnd_of_getLast? {cs : List Char} (h : ∀ c ∈ cs.getLast?, isBlank c = false) :
    trimEnd cs = cs := by
  rw [← List.head?_reverse] at h
  rw [trimEnd]
  cases hcs : cs.reverse with
  | nil => rw [List.reverse_eq_nil_iff.1 hcs]; rfl
  | cons d tail =>
    rw [hcs] at h
    rw [List.dropWhile_cons_of_neg (by simp [h d rfl]), ← hcs, List.reverse_reverse]

theorem trim_trim (cs : List Char) : trim (trim cs) = trim cs := by
  rw [trim_eq_trimEnd fun c hc => head?_trim hc, trimEnd_of_getLast? fun c hc => getLast?_trim hc]

end SelectorIndex.Text
