import SelectorIndex.Proofs.Selector.Regrouped

/-!
# Balanced texts

A balanced text is a row of units, where a unit in parentheses or brackets holds
a balanced text again. The scanner knows of no nesting: it counts. What a unit
does to it is said by `Scan.Carries`, which leaves open how far an escape at the
end of a text has come. In these terms a unit leads from a state outside of quotes
back to the same state and has no plain comma, unless it is one
(`BalancedUnit.carries`), so balanced texts without outermost commas are the pieces
of the list that they are joined to (`groups_of_undivided`).
-/

namespace SelectorIndex.Selector

open SelectorIndex.Text

/-! ## Units -/

/-- The text can stand between quotation marks: none of them is unescaped in it, and no backslash
is left at its end. -/
inductive IsQuotable (quote : Char) : List Char → Prop where
  | nil : IsQuotable quote []
  | char {c : Char} {cs : List Char} (hquote : c ≠ quote) (hbackslash : c ≠ '\\')
      (h : IsQuotable quote cs) : IsQuotable quote (c :: cs)
  | escape {c : Char} {cs : List Char} (h : IsQuotable quote cs) :
      IsQuotable quote ('\\' :: c :: cs)

/-- The units that a balanced text is a row of. -/
inductive BalancedUnit : List Char → Prop where
  /-- A character other than a backslash, a quotation mark, a parenthesis or a bracket. -/
  | char {c : Char} (h : Scan.isOrdinary c = true) : BalancedUnit [c]
  | escape (c : Char) : BalancedUnit ['\\', c]
  | quoted {quote : Char} {text : List Char} (hquote : quote = '"' ∨ quote = '\'')
      (h : IsQuotable quote text) : BalancedUnit (quote :: (text ++ [quote]))
  | parens {units : List (List Char)} (h : ∀ u ∈ units, BalancedUnit u) :
      BalancedUnit ('(' :: (units.flatten ++ [')']))
  | brackets {units : List (List Char)} (h : ∀ u ∈ units, BalancedUnit u) :
      BalancedUnit ('[' :: (units.flatten ++ [']']))

/-- The text is a row of units, none of them a comma. -/
def IsUndivided (cs : List Char) : Prop :=
  ∃ units : List (List Char), cs = units.flatten ∧ (∀ u ∈ units, BalancedUnit u) ∧ [','] ∉ units

/-! ## What units do to the scanner -/

namespace Scan

variable {s base base' base'' : Scan} {c : Char} {cs ds : List Char}

/-- The state is this one, up to an escape that may still go on. -/
def IsAt (s base : Scan) : Prop := ∃ e, e ≠ .start ∧ s = { base with escape := e }

/-- The text leads from one state to another, up to escapes that may go on, and has no plain
comma. -/
def Carries (base : Scan) (cs : List Char) (base' : Scan) : Prop :=
  ∀ s : Scan, s.IsAt base → (s.after cs).IsAt base' ∧ s.IsWhole cs

theorem isAt_start : ({} : Scan).IsAt {} := ⟨.idle, nofun, rfl⟩

theorem isClosed_of_isAt (h : s.IsAt {}) : s.isClosed = true := by
  obtain ⟨e, he, rfl⟩ := h
  exact isClosed_iff.2 ⟨rfl, he⟩

namespace Carries

theorem nil (base : Scan) : base.Carries [] base := fun _ h => ⟨h, isWhole_nil⟩

theorem append (h : base.Carries cs base') (h' : base'.Carries ds base'') :
    base.Carries (cs ++ ds) base'' := by
  intro s hs
  obtain ⟨hafter, hwhole⟩ := h s hs
  obtain ⟨hafter', hwhole'⟩ := h' _ hafter
  rw [after_append]
  exact ⟨hafter', isWhole_append_iff.2 ⟨hwhole, hwhole'⟩⟩

theorem flatten {units : List (List Char)} (h : ∀ u ∈ units, base.Carries u base) :
    base.Carries units.flatten base := by
  induction units with
  | nil => exact nil base
  | cons u units ih =>
    obtain ⟨hu, hunits⟩ := List.forall_mem_cons.1 h
    exact append hu (ih hunits)

end Carries

theorem carries_singleton (h : ∀ s : Scan, s.IsAt base →
    (s.step c).1.IsAt base' ∧ ((s.step c).2 = .plain → c ≠ ',')) : base.Carries [c] base' := by
  intro s hs
  obtain ⟨hafter, hcomma⟩ := h s hs
  exact ⟨hafter, isWhole_cons_iff.2 ⟨fun ⟨hc, hplain⟩ => hcomma hplain hc, isWhole_nil⟩⟩

/-- A delimiter cannot go on with an escape. -/
theorem carries_delimiter (hc : isOrdinary c = false)
    (hstep : { base with escape := .idle }.stepUnescaped c =
      ({ base' with escape := .idle }, .enclosed)) : base.Carries [c] base' := by
  have hhex : ¬ isHexDigit c = true := fun h =>
    Bool.eq_false_iff.1 hc (isOrdinary_of_all (by decide) h)
  have hblank : ¬ isAsciiBlank c = true := fun h =>
    Bool.eq_false_iff.1 hc (isOrdinary_of_all (by decide) h)
  refine carries_singleton ?_
  rintro s ⟨e, he, rfl⟩
  obtain ⟨e', -, hcases, -⟩ | ⟨-, hs⟩ := step_cases { base with escape := e } c
  · -- an escape goes on with anything right after its backslash, then with digits and a blank
    obtain h | h | h := hcases
    · exact absurd h he
    · exact absurd h hhex
    · exact absurd h hblank
  · rw [hs.trans hstep]
    exact ⟨⟨.idle, nofun, rfl⟩, nofun⟩

/-- A character that leaves the state as it is may also go on with an escape. -/
theorem carries_of_stepUnescaped {pos : Position}
    (hstep : { base with escape := .idle }.stepUnescaped c =
      ({ base with escape := .idle }, pos)) (hpos : pos = .plain → c ≠ ',') :
    base.Carries [c] base := by
  refine carries_singleton ?_
  rintro s ⟨e, -, rfl⟩
  obtain ⟨e', he', -, hs⟩ | ⟨-, hs⟩ := step_cases { base with escape := e } c
  · rw [hs]
    exact ⟨⟨e', he', rfl⟩, fun hplain => absurd hplain (escapePosition_ne_plain _)⟩
  · rw [hs.trans hstep]
    exact ⟨⟨.idle, nofun, rfl⟩, hpos⟩

theorem carries_ordinary (hquote : base.quote = none) (hc : isOrdinary c = true)
    (hcomma : base.isOpen = true ∨ c ≠ ',') : base.Carries [c] base := by
  have hstep := step_ordinary (s := { base with escape := .idle }) rfl hquote hc
  refine carries_of_stepUnescaped hstep fun hplain => hcomma.resolve_left fun hopen => ?_
  have hidle : ({ base with escape := .idle } : Scan).isOpen = true := hopen
  rw [hidle] at hplain
  cases hplain

theorem carries_escape (base : Scan) (c : Char) : base.Carries ['\\', c] base := by
  rintro s ⟨e, he, rfl⟩
  have hstart : ({ base with escape := e } : Scan).step '\\' =
      ({ base with escape := .start }, base.escapePosition) := step_backslash_of_ne he
  obtain ⟨e', he', -, hs⟩ | ⟨hne, -⟩ := step_cases { base with escape := .start } c
  · refine ⟨⟨e', he', ?_⟩, ?_⟩
    · rw [after_cons, hstart, after_cons, hs]
      rfl
    · rw [isWhole_cons_iff, hstart, isWhole_cons_iff, hs]
      exact ⟨fun h => escapePosition_ne_plain _ h.2, fun h => escapePosition_ne_plain _ h.2,
        isWhole_nil⟩
  · exact absurd rfl hne

/-! ## Spans -/

/-- A span leads back to where it starts, if what is within leads back to where it is opened. -/
theorem carries_span (inner : Scan) {opener closer : Char} (hopener : isOrdinary opener = false)
    (hcloser : isOrdinary closer = false)
    (hopen : { base with escape := .idle }.stepUnescaped opener =
      ({ inner with escape := .idle }, .enclosed))
    (hclose : { inner with escape := .idle }.stepUnescaped closer =
      ({ base with escape := .idle }, .enclosed))
    (h : inner.Carries cs inner) : base.Carries (opener :: (cs ++ [closer])) base := by
  have hfirst : base.Carries [opener] inner := carries_delimiter hopener hopen
  have hlast : inner.Carries [closer] base := carries_delimiter hcloser hclose
  exact hfirst.append (h.append hlast)

theorem carries_quotable {quote : Char} (h : IsQuotable quote cs)
    (hquote : base.quote = some quote) : base.Carries cs base := by
  induction h with
  | nil => exact .nil base
  | @char c cs hne hbackslash _ ih =>
    have hstep : { base with escape := .idle }.stepUnescaped c =
        ({ base with escape := .idle }, .enclosed) := by
      simp [stepUnescaped, hbackslash, hquote, hne]
    have hc : base.Carries [c] base := carries_of_stepUnescaped hstep (by simp)
    exact hc.append ih
  | @escape c cs _ ih => exact (carries_escape base c).append ih

theorem carries_quoted {quote : Char} (hmark : quote = '"' ∨ quote = '\'')
    (h : IsQuotable quote cs) (hquote : base.quote = none) :
    base.Carries (quote :: (cs ++ [quote])) base := by
  have hdelimiter : isOrdinary quote = false := by obtain rfl | rfl := hmark <;> decide
  refine carries_span { base with quote := some quote } hdelimiter hdelimiter ?_ ?_
    (carries_quotable h rfl)
  · obtain rfl | rfl := hmark <;> simp [stepUnescaped, stepUnquoted, hquote]
  · obtain rfl | rfl := hmark <;> simp [stepUnescaped, hquote]

theorem carries_parens (h : { base with parens := base.parens + 1 }.Carries cs
      { base with parens := base.parens + 1 })
    (hquote : base.quote = none) : base.Carries ('(' :: (cs ++ [')'])) base := by
  refine carries_span { base with parens := base.parens + 1 } (by decide) (by decide) ?_ ?_ h
  · simp [stepUnescaped, stepUnquoted, hquote]
  · simp [stepUnescaped, stepUnquoted, hquote]

theorem carries_brackets (h : { base with brackets := base.brackets + 1 }.Carries cs
      { base with brackets := base.brackets + 1 })
    (hquote : base.quote = none) : base.Carries ('[' :: (cs ++ [']'])) base := by
  refine carries_span { base with brackets := base.brackets + 1 } (by decide) (by decide) ?_ ?_ h
  · simp [stepUnescaped, stepUnquoted, hquote]
  · simp [stepUnescaped, stepUnquoted, hquote]

end Scan

/-- From a state outside of quotes a unit leads back to it, and only a comma outside of every span
is a plain one. -/
theorem BalancedUnit.carries {u : List Char} (h : BalancedUnit u) {base : Scan}
    (hquote : base.quote = none) (hcomma : base.isOpen = true ∨ u ≠ [',']) :
    base.Carries u base := by
  induction h generalizing base with
  | char hc =>
    refine Scan.carries_ordinary hquote hc (hcomma.imp_right fun hne hc => hne ?_)
    rw [hc]
  | escape c => exact Scan.carries_escape base c
  | quoted hmark htext => exact Scan.carries_quoted hmark htext hquote
  | parens _ ih =>
    -- a comma within the span is not plain, as the span is open
    exact Scan.carries_parens (.flatten fun u hu => ih u hu hquote (.inl rfl)) hquote
  | brackets _ ih =>
    refine Scan.carries_brackets (.flatten fun u hu => ih u hu hquote (.inl ?_)) hquote
    simp [Scan.isOpen]

/-! ## Lists of balanced texts -/

namespace IsUndivided

variable {u cs ds : List Char}

theorem of_unit (h : BalancedUnit u) (hne : u ≠ [',']) : IsUndivided u :=
  ⟨[u], by simp, by simpa using h, by simpa using hne.symm⟩

theorem of_ordinary (cs : List Char) (h : cs.all fun c => Scan.isOrdinary c && c != ',') :
    IsUndivided cs := by
  have hchar : ∀ c ∈ cs, Scan.isOrdinary c = true ∧ c ≠ ',' := by simpa using h
  refine ⟨cs.map ([·]), ?_, List.forall_mem_map.2 fun c hc => .char (hchar c hc).1, fun hmem => ?_⟩
  · rw [← List.flatMap_def, List.flatMap_singleton']
  · obtain ⟨c, hc, heq⟩ := List.mem_map.1 hmem
    exact (hchar c hc).2 (List.singleton_inj.1 heq)

theorem append (h : IsUndivided cs) (h' : IsUndivided ds) : IsUndivided (cs ++ ds) := by
  obtain ⟨units, rfl, hunits, hcomma⟩ := h
  obtain ⟨units', rfl, hunits', hcomma'⟩ := h'
  refine ⟨units ++ units', by rw [List.flatten_append], ?_, ?_⟩
  · exact List.forall_mem_append.2 ⟨hunits, hunits'⟩
  · exact List.not_mem_append hcomma hcomma'

theorem carries (h : IsUndivided cs) : ({} : Scan).Carries cs {} := by
  obtain ⟨units, rfl, hunits, hcomma⟩ := h
  refine .flatten fun u hu => (hunits u hu).carries rfl (.inr ?_)
  rintro rfl
  exact hcomma hu

theorem isWhole (h : IsUndivided cs) : ({} : Scan).IsWhole cs :=
  (h.carries {} Scan.isAt_start).2

theorem isClosed (h : IsUndivided cs) : (({} : Scan).after cs).isClosed = true :=
  Scan.isClosed_of_isAt (h.carries {} Scan.isAt_start).1

end IsUndivided

theorem pieces_intercalate {css : List (List Char)} (hne : css ≠ [])
    (hwhole : ∀ cs ∈ css, ({} : Scan).IsWhole cs)
    (hclosed : ∀ cs ∈ css, (({} : Scan).after cs).isClosed = true) :
    ({} : Scan).pieces (· == ',') ([','].intercalate css) = css :=
  Scan.pieces_intercalate hne hwhole fun cs hcs => hclosed cs (List.dropLast_subset css hcs)

/-- Undivided texts joined by commas are self-contained, and the groups are those of the trimmed
texts that are not empty, the last one flagged. -/
theorem groups_of_undivided {texts : List String} (h : ∀ text ∈ texts, IsUndivided text.toList) :
    let list := ",".intercalate texts
    (groups list).map (·.text.toList) =
      (texts.map fun text => trim text.toList).filter (!·.isEmpty) ∧
    (∀ i group, (groups list)[i]? = some group →
      (group.isLast = true ↔ i + 1 = (groups list).length)) ∧
    isSelfContained list = true := by
  intro list
  by_cases hne : texts = []
  · subst hne
    refine ⟨by decide, fun i group => isLast_iff_of_getElem?_groups, by decide⟩
  · have hchars : ∀ cs ∈ texts.map String.toList, IsUndivided cs := List.forall_mem_map.2 h
    have hclosed : ∀ cs ∈ texts.map String.toList, (({} : Scan).after cs).isClosed = true :=
      fun cs hcs => (hchars cs hcs).isClosed
    have hpieces : ({} : Scan).pieces (· == ',') list.toList = texts.map String.toList := by
      rw [show list.toList = [','].intercalate (texts.map String.toList) from
        String.toList_intercalate]
      exact pieces_intercalate (by simpa using hne) (fun cs hcs => (hchars cs hcs).isWhole) hclosed
    refine ⟨?_, fun i group => isLast_iff_of_getElem?_groups, ?_⟩
    · have htexts := map_ofList_eq_iff.1 (map_text_groups list).symm
      rw [groupTexts, hpieces, List.map_map, List.map_map] at htexts
      exact htexts.symm
    · rw [isSelfContained]
      exact Scan.isClosed_of_pieces (hpieces ▸ hclosed)

/-- Closers and the other quotation mark in strings, nested spans with commas, a hexadecimal escape
right before a comma, and a blank text. -/
theorem groups_of_undivided_spans :
    let texts := ["a:is([x=')'],'\"[',\\()", "\\2c", " ", "b "]
    (∀ text ∈ texts, IsUndivided text.toList) ∧
    (groups (",".intercalate texts)).map (·.text.toList) =
      ["a:is([x=')'],'\"[',\\()".toList, "\\2c".toList, "b".toList] ∧
    (∀ i group, (groups (",".intercalate texts))[i]? = some group →
      (group.isLast = true ↔ i + 1 = (groups (",".intercalate texts)).length)) ∧
    isSelfContained (",".intercalate texts) = true := by
  intro texts
  have hbrackets : BalancedUnit ['[', 'x', '=', '\'', ')', '\'', ']'] := by
    have hstring : BalancedUnit ['\'', ')', '\''] :=
      .quoted (.inr rfl) (.char (by decide) (by decide) .nil)
    have hunits : ∀ u ∈ [['x'], ['='], ['\'', ')', '\'']], BalancedUnit u :=
      List.forall_mem_cons.2 ⟨.char (by decide), List.forall_mem_cons.2 ⟨.char (by decide),
        List.forall_mem_singleton.2 hstring⟩⟩
    exact .brackets hunits
  have hstring : BalancedUnit ['\'', '"', '[', '\''] :=
    .quoted (.inr rfl) (.char (by decide) (by decide) (.char (by decide) (by decide) .nil))
  have hparens : BalancedUnit "([x=')'],'\"[',\\()".toList := by
    have hunits : ∀ u ∈ [['[', 'x', '=', '\'', ')', '\'', ']'], [','], ['\'', '"', '[', '\''],
        [','], ['\\', '(']], BalancedUnit u :=
      List.forall_mem_cons.2 ⟨hbrackets, List.forall_mem_cons.2 ⟨.char (by decide),
        List.forall_mem_cons.2 ⟨hstring, List.forall_mem_cons.2 ⟨.char (by decide),
          List.forall_mem_singleton.2 (.escape '(')⟩⟩⟩⟩
    exact .parens hunits
  have htexts : ∀ text ∈ texts, IsUndivided text.toList :=
    List.forall_mem_cons.2 ⟨.append (.of_ordinary "a:is".toList (by decide))
        (.of_unit hparens (by decide)),
      List.forall_mem_cons.2 ⟨.append (.of_unit (.escape '2') (by decide))
          (.of_ordinary ['c'] (by decide)),
        List.forall_mem_cons.2 ⟨.of_ordinary [' '] (by decide),
          List.forall_mem_singleton.2 (.of_ordinary ['b', ' '] (by decide))⟩⟩⟩
  obtain ⟨hgroups, hlast, hclosed⟩ := groups_of_undivided htexts
  exact ⟨htexts, hgroups.trans (by decide), hlast, hclosed⟩

end SelectorIndex.Selector
