import SelectorIndex.Selector.Group
import SelectorIndex.Selector.Syntax
import SelectorIndex.Text.Hex

/-!
# Reading selectors

The reference grammar: type and universal selectors, `#id`, `.class`, the
attribute tests `[a]`, `[a=v]` and `[a~=v]`, and the four combinators. A reader
takes the text it reads off the front and returns the rest, which is never
longer; the first fault ends it.
-/

namespace SelectorIndex.Selector

open SelectorIndex.Text

inductive ParseError where
  | emptySelector
  | pseudoClass
  | unexpectedCharacter
  | missingCompound
  | unsupportedAttrTest
  | unterminatedAttr
  | missingValue
  | unterminatedString
  | missingName
  | danglingEscape
  deriving DecidableEq, Repr

def ParseError.message : ParseError → String
  | emptySelector => "empty selector"
  | pseudoClass => "pseudo-classes are not supported"
  | unexpectedCharacter => "unexpected character"
  | missingCompound => "expected a compound selector"
  | unsupportedAttrTest => "unsupported attribute test"
  | unterminatedAttr => "unterminated attribute selector"
  | missingValue => "missing attribute value"
  | unterminatedString => "unterminated string"
  | missingName => "expected a name"
  | danglingEscape => "dangling escape"

namespace Parser

/-- ASCII letters and digits, hyphen, underscore, and everything beyond ASCII. -/
def isNameChar (c : Char) : Bool := c.isAlphanum || c == '-' || c == '_' || 0x80 ≤ c.toNat

def skipBlanks (cs : List Char) : List Char := cs.dropWhile isBlank

theorem length_skipBlanks_le (cs : List Char) : (skipBlanks cs).length ≤ cs.length :=
  (List.dropWhile_sublist _).length_le

/-! ## Names and values -/

/-- The character that an escape stands for and what follows it, from the text after the backslash.
A code of no character stands for U+FFFD, and so does zero. -/
def escape (cs : List Char) : Except ParseError (Char × List Char) :=
  match takeHex 6 cs with
  | (d :: digits, rest) =>
    let c := Char.ofNat (ofHex (d :: digits))
    .ok (if c = '\u0000' then '\ufffd' else c,
      if rest.head?.any isAsciiBlank then rest.tail else rest)
  | ([], c :: rest) => .ok (c, rest)
  | ([], []) => .error .danglingEscape

theorem length_lt_of_escape {cs rest : List Char} {c : Char} (h : escape cs = .ok (c, rest)) :
    rest.length < cs.length := by
  have hlen := length_takeHex 6 cs
  unfold escape at h
  split at h
  · rename_i tail heq
    rw [heq] at hlen
    cases h
    split <;> simp at hlen ⊢ <;> omega
  · rename_i heq
    rw [heq] at hlen
    cases h
    simp at hlen
    omega
  · cases h

/-- The longest run of name characters and escapes, decoded. -/
def nameChars : List Char → Except ParseError (List Char × List Char)
  | [] => .ok ([], [])
  | c :: cs =>
    if c = '\\' then
      match h : escape cs with
      | .ok (d, rest) =>
        have := length_lt_of_escape h
        match nameChars rest with
        | .ok (name, tail) => .ok (d :: name, tail)
        | .error cause => .error cause
      | .error cause => .error cause
    else if isNameChar c then
      match nameChars cs with
      | .ok (name, tail) => .ok (c :: name, tail)
      | .error cause => .error cause
    else .ok ([], c :: cs)
termination_by cs => cs.length

def name (cs : List Char) : Except ParseError (String × List Char) :=
  match nameChars cs with
  | .ok ([], _) => .error .missingName
  | .ok (name, rest) => .ok (String.ofList name, rest)
  | .error cause => .error cause

/-- A string up to its closing quote, decoded. -/
def quotedChars (quote : Char) : List Char → Except ParseError (List Char × List Char)
  | [] => .error .unterminatedString
  | c :: cs =>
    if c = quote then .ok ([], cs)
    else if c = '\\' then
      match h : escape cs with
      | .ok (d, rest) =>
        have := length_lt_of_escape h
        match quotedChars quote rest with
        | .ok (text, tail) => .ok (d :: text, tail)
        | .error cause => .error cause
      | .error cause => .error cause
    else
      match quotedChars quote cs with
      | .ok (text, tail) => .ok (c :: text, tail)
      | .error cause => .error cause
termination_by cs => cs.length

/-- The value of an attribute test: a quoted string or a name. -/
def value (cs : List Char) : Except ParseError (String × List Char) :=
  match skipBlanks cs with
  | [] => .error .missingValue
  | c :: rest =>
    if c = '"' ∨ c = '\'' then
      match quotedChars c rest with
      | .ok (text, tail) => .ok (String.ofList text, tail)
      | .error cause => .error cause
    else name (c :: rest)

/-- The end of an attribute test on a value. -/
def attrEnd (simple : Simple) (cs : List Char) : Except ParseError (Simple × List Char) :=
  match skipBlanks cs with
  | ']' :: rest => .ok (simple, rest)
  | _ => .error .unterminatedAttr

/-- An attribute test, from the text after its opening bracket. -/
def attr (cs : List Char) : Except ParseError (Simple × List Char) := do
  let (name, rest) ← name (skipBlanks cs)
  match skipBlanks rest with
  | ']' :: rest => return (.attr name .present, rest)
  | '=' :: rest =>
    let (text, rest) ← value rest
    attrEnd (.attr name (.equals text)) rest
  | '~' :: '=' :: rest =>
    let (text, rest) ← value rest
    attrEnd (.attr name (.includes text)) rest
  | _ => .error .unsupportedAttrTest

/-! ## Compounds -/

/-- The test at the front, if one starts there. -/
def simple? : List Char → Except ParseError (Option (Simple × List Char))
  | '#' :: cs => do let (name, rest) ← name cs; return some (.id name, rest)
  | '.' :: cs => do let (name, rest) ← name cs; return some (.className name, rest)
  | '[' :: cs => do let (test, rest) ← attr cs; return some (test, rest)
  | ':' :: _ => .error .pseudoClass
  | _ => .ok none

/-! ## What readers leave -/

theorem bind_eq_ok {α β : Type} {x : Except ParseError α} {f : α → Except ParseError β} {b : β}
    (h : x >>= f = .ok b) : ∃ a, x = .ok a ∧ f a = .ok b := by
  cases x with
  | error cause => cases h
  | ok a => exact ⟨a, rfl, h⟩

theorem length_le_of_nameChars {cs text rest : List Char}
    (h : nameChars cs = .ok (text, rest)) : rest.length ≤ cs.length := by
  fun_induction nameChars cs generalizing text rest with
  | case1 => cases h; simp
  | case2 c d tail hr hlt name tail' heq ih =>
    cases h
    have := ih heq
    simp; omega
  | case3 => cases h
  | case4 => cases h
  | case5 c cs _ _ name tail heq ih =>
    cases h
    have := ih heq
    simp; omega
  | case6 => cases h
  | case7 => cases h; simp

theorem length_le_of_name {cs rest : List Char} {n : String}
    (h : name cs = .ok (n, rest)) : rest.length ≤ cs.length := by
  unfold name at h
  split at h
  · cases h
  · rename_i heq; cases h; exact length_le_of_nameChars heq
  · cases h

theorem length_le_of_quotedChars {quote : Char} {cs text rest : List Char}
    (h : quotedChars quote cs = .ok (text, rest)) : rest.length ≤ cs.length := by
  fun_induction quotedChars quote cs generalizing text rest with
  | case1 => cases h
  | case2 => cases h; simp
  | case3 _ _ _ _ _ _ _ hq _ ih =>
    cases h
    have := ih hq
    simp; omega
  | case4 => cases h
  | case5 => cases h
  | case6 c cs _ _ text tail heq ih =>
    cases h
    have := ih heq
    simp; omega
  | case7 => cases h

theorem length_le_of_value {cs rest : List Char} {text : String}
    (h : value cs = .ok (text, rest)) : rest.length ≤ cs.length := by
  have hs := length_skipBlanks_le cs
  unfold value at h
  split at h
  · cases h
  · rename_i c tail heq
    rw [heq] at hs
    simp only [List.length_cons] at hs
    split at h
    · split at h
      · rename_i hq
        cases h
        have := length_le_of_quotedChars hq
        omega
      · cases h
    · have := length_le_of_name h
      simp only [List.length_cons] at this
      omega

theorem length_le_of_attrEnd {test test' : Simple} {cs rest : List Char}
    (h : attrEnd test cs = .ok (test', rest)) : rest.length ≤ cs.length := by
  have hs := length_skipBlanks_le cs
  unfold attrEnd at h
  split at h
  · rename_i heq
    rw [heq] at hs
    cases h
    simp only [List.length_cons] at hs
    omega
  · cases h

theorem length_le_of_attr {cs rest : List Char} {test : Simple}
    (h : attr cs = .ok (test, rest)) : rest.length ≤ cs.length := by
  obtain ⟨⟨n, mid⟩, hn, h⟩ := bind_eq_ok h
  have h1 := length_skipBlanks_le cs
  have h2 := length_le_of_name hn
  have h3 := length_skipBlanks_le mid
  dsimp only at h
  split at h
  · rename_i heq
    rw [heq] at h3
    cases h
    simp only [List.length_cons] at h3
    omega
  · rename_i tail heq
    rw [heq] at h3
    simp only [List.length_cons] at h3
    obtain ⟨⟨text, tail'⟩, hv, h⟩ := bind_eq_ok h
    have := length_le_of_value hv
    have : rest.length ≤ tail'.length := length_le_of_attrEnd h
    omega
  · rename_i tail heq
    rw [heq] at h3
    simp only [List.length_cons] at h3
    obtain ⟨⟨text, tail'⟩, hv, h⟩ := bind_eq_ok h
    have := length_le_of_value hv
    have : rest.length ≤ tail'.length := length_le_of_attrEnd h
    omega
  · cases h

theorem length_lt_of_simple? {cs rest : List Char} {test : Simple}
    (h : simple? cs = .ok (some (test, rest))) : rest.length < cs.length := by
  unfold simple? at h
  split at h
  · obtain ⟨⟨n, mid⟩, hn, h⟩ := bind_eq_ok h
    cases h
    have := length_le_of_name hn
    simp only [List.length_cons]
    omega
  · obtain ⟨⟨n, mid⟩, hn, h⟩ := bind_eq_ok h
    cases h
    have := length_le_of_name hn
    simp only [List.length_cons]
    omega
  · obtain ⟨⟨n, mid⟩, hn, h⟩ := bind_eq_ok h
    cases h
    have := length_le_of_attr hn
    simp only [List.length_cons]
    omega
  · cases h
  · cases h

def simples (cs : List Char) : Except ParseError (List Simple × List Char) :=
  match h : simple? cs with
  | .error cause => .error cause
  | .ok none => .ok ([], cs)
  | .ok (some (test, rest)) =>
    have := length_lt_of_simple? h
    match simples rest with
    | .ok (tests, tail) => .ok (test :: tests, tail)
    | .error cause => .error cause
termination_by cs.length

/-- What a compound may start with: the universal selector, a tag, or nothing. -/
inductive Head where
  | universal
  | tag (name : String)
  | absent
  deriving DecidableEq, Repr

def head : List Char → Except ParseError (Head × List Char)
  | '*' :: cs => .ok (.universal, cs)
  | c :: cs =>
    if isNameChar c then do let (name, rest) ← name (c :: cs); return (.tag name, rest)
    else .ok (.absent, c :: cs)
  | [] => .ok (.absent, [])

def compound (cs : List Char) : Except ParseError (Compound × List Char) := do
  let (head, rest) ← head cs
  let (tests, rest) ← simples rest
  match head, tests with
  | .absent, [] => .error .missingCompound
  | .tag name, tests => return (.tag name :: tests, rest)
  | _, tests => return (tests, rest)

/-! ## Chains -/

/-- The combinator after a compound, with the blanks around it; `none` at the end. -/
def combinator? (cs : List Char) : Except ParseError (Option (Combinator × List Char)) :=
  match skipBlanks cs with
  | [] => .ok none
  | '>' :: rest => .ok (some (.child, skipBlanks rest))
  | '+' :: rest => .ok (some (.adjacent, skipBlanks rest))
  | '~' :: rest => .ok (some (.sibling, skipBlanks rest))
  | c :: rest =>
    if cs.head?.any isBlank then .ok (some (.descendant, c :: rest))
    else if c = ':' then .error .pseudoClass
    else .error .unexpectedCharacter

theorem length_le_of_simples {cs rest : List Char} {tests : List Simple}
    (h : simples cs = .ok (tests, rest)) : rest.length ≤ cs.length := by
  fun_induction simples cs generalizing tests rest with
  | case1 => cases h
  | case2 => cases h; exact Nat.le_refl _
  | case3 cs test mid hs hlt tests tail heq ih =>
    cases h
    have := ih heq
    omega
  | case4 => cases h

theorem length_le_of_head {cs rest : List Char} {hd : Head}
    (h : head cs = .ok (hd, rest)) : rest.length ≤ cs.length := by
  unfold head at h
  split at h
  · cases h; simp
  · split at h
    · obtain ⟨⟨n, mid⟩, hn, h⟩ := bind_eq_ok h
      cases h
      exact length_le_of_name hn
    · cases h; exact Nat.le_refl _
  · cases h; exact Nat.le_refl _

theorem length_le_of_compound {cs rest : List Char} {c : Compound}
    (h : compound cs = .ok (c, rest)) : rest.length ≤ cs.length := by
  obtain ⟨⟨hd, mid⟩, hh, h⟩ := bind_eq_ok h
  obtain ⟨⟨tests, tail⟩, hs, h⟩ := bind_eq_ok h
  have h1 := length_le_of_head hh
  have h2 := length_le_of_simples hs
  dsimp only at h
  split at h <;> cases h <;> omega

theorem length_lt_of_combinator? {cs rest : List Char} {k : Combinator}
    (h : combinator? cs = .ok (some (k, rest))) : rest.length < cs.length := by
  have h1 := length_skipBlanks_le cs
  unfold combinator? at h
  split at h
  · cases h
  · rename_i tail heq
    cases h
    rw [heq, List.length_cons] at h1
    have := length_skipBlanks_le tail
    omega
  · rename_i tail heq
    cases h
    rw [heq, List.length_cons] at h1
    have := length_skipBlanks_le tail
    omega
  · rename_i tail heq
    cases h
    rw [heq, List.length_cons] at h1
    have := length_skipBlanks_le tail
    omega
  · rename_i c tail _ _ _ heq
    split at h
    · rename_i hb
      cases h
      cases cs with
      | nil => cases hb
      | cons b cs =>
        have hb : isBlank b = true := hb
        have := length_skipBlanks_le cs
        rw [skipBlanks, List.dropWhile_cons_of_pos hb, ← skipBlanks] at heq
        rw [heq] at this
        exact Nat.lt_succ_of_le this
    · split at h <;> cases h

/-- A chain after the part `left` of it. -/
def chainFrom (left : Chain) (cs : List Char) : Except ParseError Chain :=
  match h : combinator? cs with
  | .error cause => .error cause
  | .ok none => .ok left
  | .ok (some (k, rest)) =>
    match hc : compound rest with
    | .ok (c, tail) =>
      have := length_lt_of_combinator? h
      have := length_le_of_compound hc
      chainFrom (.step left k c) tail
    | .error cause => .error cause
termination_by cs.length

/-- A chain and nothing after it. -/
def chain (cs : List Char) : Except ParseError Chain := do
  let (c, rest) ← compound cs
  chainFrom (.one c) rest

end Parser

/-- A selector of the reference grammar, one chain for each of its groups. -/
def parse (selector : String) : Except ParseError (List Chain) :=
  match groups selector with
  | [] => .error .emptySelector
  | gs => gs.mapM fun g => Parser.chain g.text.toList

end SelectorIndex.Selector
