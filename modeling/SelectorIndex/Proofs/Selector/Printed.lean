import SelectorIndex.Proofs.Selector.Accepted
import SelectorIndex.Proofs.Selector.Tokens
import SelectorIndex.Proofs.Text.Encoding

/-!
# Printed selectors

A text for every tree. Names and values are encoded character by character, so
that nothing in them can be taken for syntax; only the first character of a tag
stands for itself, as no tag starts with an escape. A name that ends a group
loses the blank of its last escape when the group is trimmed: `Shown` is a text
as it stands in front of another, in full or trimmed at the very end.
-/

namespace SelectorIndex.Selector

open SelectorIndex.Text

/-! ## Printing -/

/-- A name or a value in escapes. -/
def printName (name : String) : List Char := Escape.encode name.toList

/-- A tag in escapes but for its first character. -/
def printTag (name : String) : List Char :=
  match name.toList with
  | [] => []
  | c :: cs => c :: Escape.encode cs

def AttrTest.print : AttrTest → List Char
  | present => []
  | equals value => '=' :: '"' :: (printName value ++ ['"'])
  | includes word => '~' :: '=' :: '"' :: (printName word ++ ['"'])

def Simple.print : Simple → List Char
  | tag name => printTag name
  | id name => '#' :: printName name
  | className name => '.' :: printName name
  | attr name test => '[' :: (printName name ++ (test.print ++ [']']))

/-- The tests one after the other, or a star where there are none. -/
def Compound.print : Compound → List Char
  | [] => ['*']
  | tests => tests.flatMap Simple.print

def Combinator.print : Combinator → List Char
  | descendant => [' ']
  | child => [' ', '>', ' ']
  | adjacent => [' ', '+', ' ']
  | sibling => [' ', '~', ' ']

def Chain.print : Chain → List Char
  | one c => c.print
  | step left k c => left.print ++ (k.print ++ Compound.print c)

def print (cs : List Chain) : String := ", ".intercalate (cs.map fun c => String.ofList c.print)

/-! ## First characters -/

theorem exists_toList {name : String} (hne : name ≠ "") : ∃ c cs, name.toList = c :: cs :=
  List.exists_cons_of_ne_nil (mt String.toList_eq_nil_iff.1 hne)

/-- What a test other than a tag starts with goes on with no name. -/
theorem of_sigil {c : Char} (h : c ∈ ['#', '.', '[']) :
    isBlank c = false ∧ c ≠ '*' ∧ c ≠ '\\' ∧ Parser.isNameChar c = false := by
  simp only [List.mem_cons, List.not_mem_nil, or_false] at h
  rcases h with rfl | rfl | rfl <;> decide

theorem head?_printName {name : String} (hne : name ≠ "") :
    (printName name).head? = some '\\' := by
  obtain ⟨c, cs, hname⟩ := exists_toList hne
  obtain ⟨esc, hesc, -⟩ := Escape.spelled_encodeChar [] c
  rw [printName, hname, Escape.encode, List.flatMap_cons, hesc]
  rfl

theorem Simple.head?_print {test : Simple} (h : test.isTag = false) :
    ∃ c ∈ ['#', '.', '['], test.print.head? = some c := by
  cases test with
  | tag name => cases h
  | id name => exact ⟨'#', by simp, rfl⟩
  | className name => exact ⟨'.', by simp, rfl⟩
  | attr name what => exact ⟨'[', by simp, rfl⟩

theorem head?_flatMap_print {tests : List Simple} (h : ∀ test ∈ tests, test.isTag = false) :
    ∀ c ∈ (tests.flatMap Simple.print).head?, c ∈ ['#', '.', '['] := by
  cases tests with
  | nil => exact nofun
  | cons test tests =>
    obtain ⟨c, hc, hhead⟩ := Simple.head?_print (h test List.mem_cons_self)
    intro d hd
    rw [List.flatMap_cons, List.head?_append, hhead] at hd
    cases hd
    exact hc

theorem Compound.head?_print {c : Compound} (h : c.WellFormed) :
    ∃ d, (Compound.print c).head? = some d ∧ isBlank d = false ∧ isSeparator d = false := by
  match c with
  | [] => exact ⟨'*', rfl, rfl, rfl⟩
  | .tag name :: tests =>
    have hne : name ≠ "" := h.name_ne_empty (.tag name) List.mem_cons_self
    obtain ⟨d, ds, hname⟩ := exists_toList hne
    obtain ⟨hd, hblank⟩ := h.tag_start (.tag name) List.mem_cons_self rfl d
      (Option.mem_def.2 (congrArg List.head? hname))
    refine ⟨d, ?_, hblank, isSeparator_of_isNameChar hd⟩
    show (printTag name ++ _).head? = some d
    rw [printTag, hname]
    rfl
  | .id name :: tests => exact ⟨'#', rfl, rfl, rfl⟩
  | .className name :: tests => exact ⟨'.', rfl, rfl, rfl⟩
  | .attr name what :: tests => exact ⟨'[', rfl, rfl, rfl⟩

theorem Chain.head?_print {c : Chain} (h : c.WellFormed) :
    ∃ d, c.print.head? = some d ∧ isBlank d = false := by
  induction c with
  | one c =>
    obtain ⟨d, hd, hblank, -⟩ := Compound.head?_print (Chain.wellFormed_one.1 h)
    exact ⟨d, hd, hblank⟩
  | step left k c ih =>
    obtain ⟨d, hd, hblank⟩ := ih (Chain.wellFormed_step.1 h).1
    exact ⟨d, by rw [Chain.print, List.head?_append, hd]; rfl, hblank⟩

/-! ## No comma -/

theorem comma_notMem_encode (name : List Char) : ',' ∉ Escape.encode name :=
  Escape.notMem_encode (by decide) (by decide) (by decide) (by decide) name

theorem comma_notMem_printTag {name : String}
    (h : ∀ d ∈ name.toList.head?, Parser.isNameChar d = true) : ',' ∉ printTag name := by
  rw [printTag]
  cases hname : name.toList with
  | nil => exact List.not_mem_nil
  | cons d ds =>
    have hd := h d (by rw [hname]; rfl)
    rw [List.mem_cons, not_or]
    refine ⟨?_, comma_notMem_encode ds⟩
    rintro rfl
    cases hd

theorem AttrTest.comma_notMem_print (test : AttrTest) : ',' ∉ test.print := by
  cases test with
  | present => exact List.not_mem_nil
  | equals value => simp [AttrTest.print, printName, comma_notMem_encode]
  | includes word => simp [AttrTest.print, printName, comma_notMem_encode]

theorem Compound.comma_notMem_print {c : Compound} (h : c.WellFormed) :
    ',' ∉ Compound.print c := by
  have htests : ',' ∉ c.flatMap Simple.print := by
    rw [List.mem_flatMap]
    rintro ⟨test, htest, hmem⟩
    cases test with
    | tag name =>
      exact comma_notMem_printTag (fun d hd => (h.tag_start _ htest rfl d hd).1) hmem
    | id name => simp [Simple.print, printName, comma_notMem_encode] at hmem
    | className name => simp [Simple.print, printName, comma_notMem_encode] at hmem
    | attr name what =>
      simp [Simple.print, printName, comma_notMem_encode, AttrTest.comma_notMem_print] at hmem
  cases c with
  | nil => decide
  | cons test tests => exact htests

theorem Chain.comma_notMem_print {c : Chain} (h : c.WellFormed) : ',' ∉ c.print := by
  induction c with
  | one c => exact Compound.comma_notMem_print (Chain.wellFormed_one.1 h)
  | step left k c ih =>
    obtain ⟨hleft, hc⟩ := Chain.wellFormed_step.1 h
    rw [Chain.print, List.mem_append, List.mem_append, not_or, not_or]
    refine ⟨ih hleft, ?_, Compound.comma_notMem_print hc⟩
    cases k <;> decide

/-! ## Texts in front of others -/

/-- The text stands for `full` in front of `rest`: it is `full`, or, at the very end, `full`
without the blanks at its end. -/
def Shown (full text rest : List Char) : Prop := text = full ∨ text = trimEnd full ∧ rest = []

namespace Shown

variable {full front back text rest : List Char}

theorem refl (full rest : List Char) : Shown full full rest := .inl rfl

theorem trimmed (full : List Char) : Shown full (trimEnd full) [] := .inr ⟨rfl, rfl⟩

theorem eq_of_trimEnd (h : Shown full text rest) (hfull : trimEnd full = full) : text = full := by
  rcases h with h | ⟨h, -⟩
  · exact h
  · rw [h, hfull]

/-- Only the second of two parts is trimmed, if that leaves anything of it. -/
theorem append (h : Shown (front ++ back) text rest) (hback : trimEnd back ≠ []) :
    ∃ text', text = front ++ text' ∧ Shown back text' rest := by
  rcases h with rfl | ⟨rfl, rfl⟩
  · exact ⟨back, rfl, .refl _ _⟩
  · exact ⟨trimEnd back, trimEnd_append front hback, .trimmed back⟩

theorem split (h : Shown (front ++ back) text rest) (hback : back = [] ∨ trimEnd back ≠ []) :
    ∃ text₁ text₂, text = text₁ ++ text₂ ∧ Shown front text₁ (text₂ ++ rest) ∧
      Shown back text₂ rest := by
  rcases hback with rfl | hback
  · rw [List.append_nil] at h
    exact ⟨text, [], by simp, h, .refl _ _⟩
  · obtain ⟨text', rfl, hshown⟩ := h.append hback
    exact ⟨front, text', rfl, .refl _ _, hshown⟩

theorem cons {c : Char} (h : Shown (c :: back) text rest) (hback : back = [] ∨ trimEnd back ≠ [])
    (hc : isBlank c = false) : ∃ text', text = c :: text' ∧ Shown back text' rest := by
  have hparts : Shown ([c] ++ back) text rest := h
  obtain ⟨text₁, text₂, rfl, hfront, hback⟩ := hparts.split hback
  rw [hfront.eq_of_trimEnd (trimEnd_of_getLast? fun d hd => by cases hd; exact hc)]
  exact ⟨text₂, rfl, hback⟩

theorem head?_eq {c : Char} (h : Shown full text rest) (hfull : full.head? = some c)
    (hc : isBlank c = false) : text.head? = some c := by
  rcases h with rfl | ⟨rfl, -⟩
  · exact hfull
  · exact head?_trimEnd hfull hc

end Shown

theorem trimEnd_encode (name : List Char) :
    Escape.encode name = [] ∨ trimEnd (Escape.encode name) ≠ [] := by
  cases name with
  | nil => exact .inl rfl
  | cons c cs =>
    obtain ⟨esc, hesc, -⟩ := Escape.spelled_encodeChar [] c
    have hslash : '\\' ∈ Escape.encode (c :: cs) := by
      rw [Escape.encode, List.flatMap_cons, hesc]
      simp
    exact .inr (trimEnd_ne_nil hslash rfl)

theorem trimEnd_flatMap_print {tests : List Simple} (h : ∀ test ∈ tests, test.isTag = false) :
    tests.flatMap Simple.print = [] ∨ trimEnd (tests.flatMap Simple.print) ≠ [] := by
  cases hprint : tests.flatMap Simple.print with
  | nil => exact .inl rfl
  | cons c cs =>
    have hc := head?_flatMap_print h c (by rw [hprint]; rfl)
    exact .inr (trimEnd_ne_nil List.mem_cons_self (of_sigil hc).1)

theorem Shown.spells {p : Char → Bool} {name text rest : List Char}
    (h : Shown (Escape.encode name) text rest) : Spells p rest text name := by
  induction name generalizing text with
  | nil =>
    rw [h.eq_of_trimEnd (by rfl)]
    exact .nil
  | cons c cs ih =>
    obtain ⟨text₁, text₂, rfl, hfront, hback⟩ := h.split (trimEnd_encode cs)
    have hesc : ∃ esc, text₁ = '\\' :: esc ∧ Escape.Spelled (text₂ ++ rest) esc c := by
      rcases hfront with rfl | ⟨rfl, hrest⟩
      · exact Escape.spelled_encodeChar (text₂ ++ rest) c
      · rw [hrest]
        exact Escape.spelled_trimEnd_encodeChar c
    obtain ⟨esc, rfl, hesc⟩ := hesc
    exact .escape hesc (ih hback)

end SelectorIndex.Selector
