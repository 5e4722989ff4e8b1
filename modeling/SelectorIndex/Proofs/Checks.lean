import SelectorIndex.Proofs.Commands
import SelectorIndex.Proofs.Selector.Accepted

/-!
# What a check tells

A check of rules tries the selectors that are filed somewhere, which are those
with a token in some group (`isEmpty_classify_buildSet`). No document reads a group
without tokens (`parse_eq_missingCompound`), yet a selector of such groups alone is
not tried. So a check says of the selectors with tokens what it is asked to say of
all selectors with groups, and the two come to the same exactly where every
selector with a group has a token (`check_tries_tokens`).
-/

namespace SelectorIndex

open SelectorIndex.Text Selector

/-! ## Groups without tokens -/

namespace Selector

theorem isSeparator_of_tokenTexts_eq_nil {cs : List Char} (h : tokenTexts cs = []) :
    ∀ c ∈ cs, isSeparator c = true := by
  intro c hc
  have hlost := flatten_tokenTexts cs
  rw [h, List.flatten_nil, eq_comm, List.map_eq_nil_iff, List.filter_eq_nil_iff] at hlost
  rw [← Scan.map_fst_marks {} cs] at hc
  obtain ⟨m, hm, rfl⟩ := List.mem_map.1 hc
  have hmarked := hlost m hm
  rw [Bool.not_eq_true, Bool.not_eq_false', cutMark, Bool.and_eq_true] at hmarked
  exact hmarked.2

theorem chain_eq_missingCompound {text : List Char} (hne : text ≠ [])
    (hhead : ∀ c ∈ text.head?, isBlank c = false) (h : tokenTexts text = []) :
    Parser.chain text = .error .missingCompound := by
  obtain ⟨c, cs, rfl⟩ := List.exists_cons_of_ne_nil hne
  have hsep := isSeparator_of_tokenTexts_eq_nil h c List.mem_cons_self
  have hblank : isAsciiBlank c = false := by
    apply Bool.eq_false_iff.2
    intro hb
    have hwide := hhead c rfl
    rw [isBlank_of_isAsciiBlank hb] at hwide
    cases hwide
  simp only [isSeparator, hblank, Bool.or_false, Bool.or_eq_true, beq_iff_eq] at hsep
  rcases hsep with (rfl | rfl) | rfl
  · exact Parser.chain_eq_missingCompound (by decide) (by decide)
  · exact Parser.chain_eq_missingCompound (by decide) (by decide)
  · exact Parser.chain_eq_missingCompound (by decide) (by decide)

def hasToken (selector : String) : Bool := (groups selector).any fun g => !(tokens g.text).isEmpty

theorem groups_ne_nil_of_hasToken {selector : String} (h : hasToken selector = true) :
    groups selector ≠ [] := by
  intro hnil
  rw [hasToken, hnil] at h
  cases h

theorem parse_eq_missingCompound {selector : String} (hgroup : groups selector ≠ [])
    (h : hasToken selector = false) : parse selector = .error .missingCompound := by
  rw [ne_eq, groups_eq_nil_iff] at hgroup
  obtain ⟨text, texts, htexts⟩ := List.exists_cons_of_ne_nil hgroup
  have hmem : text ∈ groupTexts selector.toList := htexts ▸ List.mem_cons_self
  have hne : text ≠ [] := by simpa using (List.mem_filter.1 hmem).2
  have htokens : tokenTexts text = [] := by
    have hg : String.ofList text ∈ (groups selector).map Group.text := by
      rw [map_text_groups]
      exact List.mem_map_of_mem hmem
    obtain ⟨g, hg, htext⟩ := List.mem_map.1 hg
    have hnone := List.any_eq_false.1 h g hg
    simpa [htext, tokens] using hnone
  have hchain := chain_eq_missingCompound hne (head?_of_mem_groupTexts hmem) htokens
  rw [parse_eq, if_neg hgroup, htexts, List.mapM_cons, hchain]
  rfl

/-- With the universal classifier at the end, a selector is filed somewhere if it has a token. -/
theorem isEmpty_slots (classifiers : List Classifier) (selector : String) :
    (Placement.slots (classifiers ++ [Classifier.universal]) selector).isEmpty =
      !hasToken selector := by
  rw [Bool.eq_iff_iff, List.isEmpty_iff, Bool.not_eq_true', hasToken, List.any_eq_false,
    List.eq_nil_iff_forall_not_mem]
  simp only [Placement.mem_slots, not_exists, not_and]
  constructor
  · intro h g hg
    rw [Bool.not_eq_true, Bool.not_eq_false', List.isEmpty_iff]
    apply List.getLast?_eq_none_iff.1
    apply Option.eq_none_iff_forall_ne_some.2
    intro token htoken
    obtain ⟨slot, hslot⟩ := Placement.exists_ofToken? classifiers (bareToken token)
    apply h slot g hg
    rw [Placement.ofGroup?, lastToken?, htoken]
    exact hslot
  · intro h slot g hg hslot
    have hnil : tokens g.text = [] := by simpa using h g hg
    rw [Placement.ofGroup?, lastToken?, hnil] at hslot
    cases hslot

end Selector

/-! ## Faults -/

namespace RuleSet

theorem hasGroup_iff {selector : String} : hasGroup selector = true ↔ groups selector ≠ [] := by
  rw [hasGroup, Bool.not_eq_true', List.isEmpty_eq_false_iff]

theorem hasGroup_of_hasToken {selector : String} (h : hasToken selector = true) :
    hasGroup selector = true :=
  hasGroup_iff.2 (groups_ne_nil_of_hasToken h)

end RuleSet

namespace Document

open RuleSet

variable {δ : Type} {doc : Document} {e : Nat} {selector : String}

/-- Why the document does not answer about a selector. -/
def fault? (doc : Document) (e : Nat) (selector : String) : Option Failure :=
  match doc.host.test e selector with
  | .ok _ => none
  | .error cause => some cause

theorem fault?_eq_none_iff : doc.fault? e selector = none ↔ doc.host.Answers e selector := by
  rw [fault?, Host.Answers]
  cases doc.host.test e selector <;> simp

/-- All elements of all documents give the same answer, and name the selector in it. -/
theorem fault?_eq (doc : Document) (e : Nat) (selector : String) :
    doc.fault? e selector = match parse selector with
      | .ok _ => none
      | .error cause => some (.invalidSelector selector cause.message) := by
  cases h : parse selector with
  | ok cs => rw [fault?, test_host_of_parse doc e h]
  | error cause => rw [fault?, test_host_of_error doc e h]

theorem fault?_of_hasToken (hgroup : hasGroup selector = true) (h : hasToken selector = false) :
    doc.fault? e selector =
      some (.invalidSelector selector ParseError.missingCompound.message) := by
  rw [fault?_eq, parse_eq_missingCompound (hasGroup_iff.1 hgroup) h]

theorem selector_eq_of_fault? {s cause : String}
    (h : doc.fault? e selector = some (.invalidSelector s cause)) : selector = s := by
  rw [fault?_eq] at h
  split at h
  · cases h
  · cases h
    rfl

/-- The faults of those rules that have a selector of some kind. -/
def faults (doc : Document) (e : Nat) (loaded : List (Rule δ)) (p : String → Bool) :
    List Failure :=
  (loaded.filter fun r => p r.selector).filterMap fun r => doc.fault? e r.selector

theorem mem_faults {loaded : List (Rule δ)} {p : String → Bool} {cause : Failure} :
    cause ∈ doc.faults e loaded p ↔
      ∃ r ∈ loaded, p r.selector = true ∧ doc.fault? e r.selector = some cause := by
  simp only [faults, List.mem_filterMap, List.mem_filter, and_assoc]

theorem faults_eq_nil_iff {loaded : List (Rule δ)} {p : String → Bool} :
    doc.faults e loaded p = [] ↔
      ∀ r ∈ loaded, p r.selector = true → doc.host.Answers e r.selector := by
  simp only [faults, List.filterMap_eq_nil_iff, List.mem_filter, and_imp, fault?_eq_none_iff]

/-- The faults of the rules with tokens are those of all rules with groups only if no rule has
groups without tokens. -/
theorem faults_hasToken_iff (doc : Document) (e : Nat) (loaded : List (Rule δ)) :
    doc.faults e loaded hasToken = doc.faults e loaded hasGroup ↔
      ∀ r ∈ loaded, hasGroup r.selector = true → hasToken r.selector = true := by
  constructor
  · intro h r hr hgroup
    rw [← Bool.not_eq_false]
    intro htoken
    have hmem : .invalidSelector r.selector ParseError.missingCompound.message ∈
        doc.faults e loaded hasGroup :=
      mem_faults.2 ⟨r, hr, hgroup, fault?_of_hasToken hgroup htoken⟩
    -- a fault names its selector, so another rule with this fault has the same selector
    rw [← h] at hmem
    obtain ⟨r', -, htoken', hfault⟩ := mem_faults.1 hmem
    rw [selector_eq_of_fault? hfault, htoken] at htoken'
    cases htoken'
  · intro h
    apply congrArg (List.filterMap _)
    apply List.filter_congr
    intro r hr
    rw [Bool.eq_iff_iff]
    exact ⟨hasGroup_of_hasToken, h r hr⟩

/-- No document answers about groups without tokens. -/
theorem answers_hasGroup_iff (doc : Document) (e : Nat) (loaded : List (Rule δ)) :
    (∀ r ∈ loaded, hasGroup r.selector = true → doc.host.Answers e r.selector) ↔
      (∀ r ∈ loaded, hasToken r.selector = true → doc.host.Answers e r.selector) ∧
      ∀ r ∈ loaded, hasGroup r.selector = true → hasToken r.selector = true := by
  constructor
  · intro h
    refine ⟨fun r hr htoken => h r hr (hasGroup_of_hasToken htoken), fun r hr hgroup => ?_⟩
    rw [← Bool.not_eq_false]
    intro htoken
    have hanswers := fault?_eq_none_iff.2 (h r hr hgroup)
    rw [fault?_of_hasToken hgroup htoken] at hanswers
    cases hanswers
  · rintro ⟨hanswers, htokens⟩ r hr hgroup
    exact hanswers r hr (htokens r hr hgroup)

end Document

/-! ## The check -/

namespace Cli

open RuleSet

variable {loader : Loader} {files : Files} {rules : String} {config : Config Json}

theorem classifiers_buildSet (config : Config Json) :
    (buildSet config).classifiers = Classifier.builtin ++ [Classifier.universal] := by
  have hrun : buildSet config = (withClassifiers Classifier.builtin).run [.extend config] := rfl
  rw [hrun, classifiers_run, classifiers_withClassifiers]

theorem isEmpty_classify_buildSet (config : Config Json) (selector : String) :
    ((buildSet config).classify selector).isEmpty = !hasToken selector := by
  rw [isEmpty_classify, classifiers_buildSet, isEmpty_slots]

theorem invalidSelectors_buildSet (config : Config Json) (doc : Document) (e : Nat) :
    invalidSelectors (buildSet config) = doc.faults e (buildSet config).toList hasToken := by
  rw [invalidSelectors, Document.faults, List.filterMap_filter]
  apply List.filterMap_congr
  intro r _
  rw [isEmpty_classify_buildSet]
  cases hasToken r.selector with
  | false => rfl
  | true => exact (probe.fault?_eq 0 r.selector).trans (doc.fault?_eq e r.selector).symm

theorem run_check (hrules : loadConfig loader files rules = .ok config) :
    run files ["check", rules] loader = match invalidSelectors (buildSet config) with
      | [] => ⟨0, lines ["Rules valid: " ++ toString (buildSet config).size ++ " loaded, "
          ++ toString (config.rules.length - (buildSet config).size) ++ " skipped"], ""⟩
      | causes => ⟨1, "", (Fault.invalidSelectors causes).report⟩ := by
  have hargs : Command.ofArgs ["check", rules] = .ok (.check rules) := rfl
  rw [run, hargs]
  simp only [Command.outcome, Command.run, runCheck, hrules, bind, Except.bind]
  cases invalidSelectors (buildSet config) <;> rfl

theorem code_check_eq_zero_iff (hrules : loadConfig loader files rules = .ok config) :
    (run files ["check", rules] loader).code = 0 ↔ invalidSelectors (buildSet config) = [] := by
  rw [run_check hrules]
  cases invalidSelectors (buildSet config) <;> simp

theorem run_check_of_ne (hrules : loadConfig loader files rules = .ok config)
    (hne : (run files ["check", rules] loader).code ≠ 0) :
    run files ["check", rules] loader =
      ⟨1, "", (Fault.invalidSelectors (invalidSelectors (buildSet config))).report⟩ := by
  rw [ne_eq, code_check_eq_zero_iff hrules] at hne
  rw [run_check hrules]
  cases h : invalidSelectors (buildSet config) with
  | nil => exact absurd h hne
  | cons cause causes => rfl

/-- A check of rules that load succeeds exactly if documents answer about every selector with a
token, and else reports the faults of these, in the order of ids. That is what it should say of
every selector with a group, but where it succeeds although a selector has groups without tokens
only: no document answers about that one. -/
theorem check_tries_tokens (hrules : loadConfig loader files rules = .ok config) (doc : Document)
    (e : Nat) :
    let outcome := run files ["check", rules] loader
    let loaded := (buildSet config).toList
    let faults := doc.faults e loaded hasToken
    (outcome.code = 0 ↔
      ∀ r ∈ loaded, hasToken r.selector = true → doc.host.Answers e r.selector) ∧
    (outcome.code ≠ 0 → outcome = ⟨1, "",
      "error: " ++ (toString faults.length ++ " invalid selector(s):\n  "
        ++ "\n  ".intercalate (faults.map Failure.message)) ++ "\n"⟩) ∧
    (faults = doc.faults e loaded hasGroup ↔
      ∀ r ∈ loaded, hasGroup r.selector = true → hasToken r.selector = true) ∧
    ((outcome.code = 0 ↔
        ∀ r ∈ loaded, hasGroup r.selector = true → doc.host.Answers e r.selector) ↔
      outcome.code ≠ 0 ∨
        ∀ r ∈ loaded, hasGroup r.selector = true → hasToken r.selector = true) := by
  intro outcome loaded faults
  have hinvalid : invalidSelectors (buildSet config) = faults :=
    invalidSelectors_buildSet config doc e
  have hcode : outcome.code = 0 ↔
      ∀ r ∈ loaded, hasToken r.selector = true → doc.host.Answers e r.selector := by
    rw [← Document.faults_eq_nil_iff]
    exact (code_check_eq_zero_iff hrules).trans (by rw [hinvalid])
  have hreport (hne : outcome.code ≠ 0) : outcome = ⟨1, "",
      "error: " ++ (toString faults.length ++ " invalid selector(s):\n  "
        ++ "\n  ".intercalate (faults.map Failure.message)) ++ "\n"⟩ := by
    rw [← hinvalid]
    exact run_check_of_ne hrules hne
  refine ⟨hcode, hreport, doc.faults_hasToken_iff e loaded, ?_⟩
  rw [doc.answers_hasGroup_iff e loaded, ← hcode]
  tauto

/-- Rules of which two cannot be read, and one that has a group but no token. -/
def faultyFiles : Files := Folder.read ⟨[("rules.json",
  "\x7b\"rules\": [\x7b\"selector\": \"p, #a:b\"\x7d, \x7b\"selector\": \">\"\x7d, " ++
    "\x7b\"selector\": \"p >\"\x7d]\x7d")]⟩

theorem check_tries_tokens_faulty : ∃ config,
    loadConfig .json faultyFiles "rules.json" = .ok config ∧
    probe.faults 0 (buildSet config).toList hasToken =
      [.invalidSelector "p, #a:b" "pseudo-classes are not supported",
        .invalidSelector "p >" "expected a compound selector"] ∧
    run faultyFiles ["check", "rules.json"] = ⟨1, "",
      "error: 2 invalid selector(s):\n" ++
      "  invalid selector \"p, #a:b\": pseudo-classes are not supported\n" ++
      "  invalid selector \"p >\": expected a compound selector\n"⟩ ∧
    probe.faults 0 (buildSet config).toList hasToken ≠
      probe.faults 0 (buildSet config).toList hasGroup := by
  have hfaults : (loadConfig .json faultyFiles "rules.json").toOption.map
      (fun config => probe.faults 0 (buildSet config).toList hasToken) =
      some [.invalidSelector "p, #a:b" "pseudo-classes are not supported",
        .invalidSelector "p >" "expected a compound selector"] := by decide +kernel
  have hskipped : (loadConfig .json faultyFiles "rules.json").toOption.any
      (fun config => (buildSet config).toList.any fun r =>
        hasGroup r.selector && !hasToken r.selector) = true := by
    decide +kernel
  have hcode : (run faultyFiles ["check", "rules.json"]).code ≠ 0 := by decide +kernel
  cases hrules : loadConfig .json faultyFiles "rules.json" with
  | error fault =>
    rw [hrules] at hfaults
    cases hfaults
  | ok config =>
    rw [hrules] at hfaults hskipped
    obtain ⟨-, hreport, hsame, -⟩ := check_tries_tokens hrules probe 0
    have hlisted : probe.faults 0 (buildSet config).toList hasToken =
        [.invalidSelector "p, #a:b" "pseudo-classes are not supported",
          .invalidSelector "p >" "expected a compound selector"] := Option.some.inj hfaults
    refine ⟨config, rfl, hlisted, ?_, fun h => ?_⟩
    · rw [hreport hcode, hlisted]
      rfl
    · obtain ⟨r, hr, hskip⟩ := List.any_eq_true.1 hskipped
      obtain ⟨hgroup, htoken⟩ := Bool.and_eq_true_iff.1 hskip
      rw [hsame.1 h r hr hgroup] at htoken
      cases htoken

/-- A check passes over a lone combinator, which no document can read. -/
theorem check_passes_combinator : ∃ config,
    loadConfig .json pageFiles "rules.json" = .ok config ∧
    ¬ ((run pageFiles ["check", "rules.json"]).code = 0 ↔
      ∀ r ∈ (buildSet config).toList, groups r.selector ≠ [] →
        probe.host.Answers 0 r.selector) := by
  have hcode : (run pageFiles ["check", "rules.json"]).code = 0 := by decide +kernel
  have hfault : (loadConfig .json pageFiles "rules.json").toOption.any (fun config =>
      (buildSet config).toList.any fun r =>
        hasGroup r.selector && (probe.fault? 0 r.selector).isSome) = true := by
    decide +kernel
  cases hrules : loadConfig .json pageFiles "rules.json" with
  | error fault =>
    rw [hrules] at hfault
    cases hfault
  | ok config =>
    rw [hrules] at hfault
    obtain ⟨r, hr, hfault⟩ := List.any_eq_true.1 hfault
    obtain ⟨hgroup, hfault⟩ := Bool.and_eq_true_iff.1 hfault
    refine ⟨config, rfl, fun h => ?_⟩
    have hanswers := h.1 hcode r hr (hasGroup_iff.1 hgroup)
    rw [Document.fault?_eq_none_iff.2 hanswers] at hfault
    cases hfault

end Cli

end SelectorIndex
