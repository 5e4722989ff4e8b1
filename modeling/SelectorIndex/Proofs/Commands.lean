import SelectorIndex.Cli
import SelectorIndex.Proofs.Agreement

/-!
# Commands on rules and documents

What a check of the rules says of the commands that use them. A check tries each
filed selector alone, on a document of its own; a query asks about one joined
list, and a lookup about the candidates of one element. All three succeed
exactly where the filed selectors can be read (`FiledReadable`), whatever the
document.
-/

namespace SelectorIndex

open Selector

namespace RuleSet

variable {δ : Type} {set : RuleSet δ}

/-- Every rule that is filed somewhere has a selector that documents can read. -/
def FiledReadable (set : RuleSet δ) : Prop := ∀ r ∈ set.filed, IsReadable r.selector

theorem isEmpty_classify (set : RuleSet δ) (selector : String) :
    (set.classify selector).isEmpty = (Placement.slots set.classifiers selector).isEmpty := by
  rw [classify, Placement.slots, List.isEmpty_map, List.isEmpty_map]

namespace WellFiled

theorem groupTexts_ne_nil (h : WellFiled set) {r : Rule δ} (hr : r ∈ set.filed) :
    groupTexts r.selector.toList ≠ [] := by
  have hgroup := hasGroup_of_isFiled (h.mem_filed.1 hr).2
  rw [hasGroup, Bool.not_eq_true', List.isEmpty_eq_false_iff] at hgroup
  rwa [ne_eq, ← groups_eq_nil_iff]

/-- The joined list can be read only if each of its selectors can, and the others are asked for
one by one. -/
theorem filedReadable_of_queryAll (h : WellFiled set) {doc : Document} {root : Nat}
    {found : List (QueryMatch Nat δ)} (hq : (set.queryAll doc.host root).result = .ok found) :
    set.FiledReadable := by
  obtain ⟨hits, hjoined, hq⟩ := Consult.result_bind_eq_ok hq
  obtain ⟨alone, hisolated, -⟩ := Consult.result_bind_eq_ok hq
  intro r hr
  obtain ⟨hlive, hfiled⟩ := h.mem_filed.1 hr
  cases hclosed : isSelfContained r.selector with
  | true =>
    have hmem : r.selector ∈ set.queryPlan.joined :=
      h.mem_joined.2 ⟨⟨r, hlive, hfiled, rfl⟩, hclosed⟩
    have hparts : ∀ s ∈ set.queryPlan.joined.dropLast, isSelfContained s = true := fun s hs =>
      (h.mem_joined.1 (List.dropLast_subset _ hs)).2
    have hlist : IsReadable (", ".intercalate set.queryPlan.joined) := by
      cases hj : set.queryPlan.joined with
      | nil =>
        rw [hj] at hmem
        cases hmem
      | cons s rest =>
        rw [hj] at hjoined
        obtain ⟨elements, hselect, -⟩ := Consult.result_bind_eq_ok hjoined
        exact Document.isReadable_of_select hselect
    exact ((isReadable_intercalate_iff hparts).1 hlist).2 _ hmem (h.groupTexts_ne_nil hr)
  | false =>
    have hmem : r.selector ∈ set.queryPlan.isolated :=
      h.mem_isolated.2 ⟨⟨r, hlive, hfiled, rfl⟩, hclosed⟩
    exact Document.isReadable_of_select ((of_queryIsolated_eq_ok hisolated).1 _ hmem)

theorem queryAll_ok_iff (h : WellFiled set) (doc : Document) (root : Nat) :
    (∃ found, (set.queryAll doc.host root).result = .ok found) ↔ set.FiledReadable := by
  constructor
  · rintro ⟨found, hq⟩
    exact h.filedReadable_of_queryAll hq
  · intro hread
    exact ⟨_, h.result_queryAll doc.obeys_host hread root⟩

theorem matching_ok (h : WellFiled set) (hread : set.FiledReadable) (doc : Document) (e : Nat) :
    ∃ found, (set.matching doc.host e).result = .ok found :=
  ⟨_, h.result_matching doc.host e fun r hr => Document.answers_host_iff.2 (hread r hr)⟩

end WellFiled

end RuleSet

/-! ## Exit codes -/

namespace Cli

open RuleSet

variable {loader : Loader} {files : Files} {rules document : String} {config : Config Json}
  {doc : Document}

theorem wellFiled_buildSet (config : Config Json) : WellFiled (buildSet config) :=
  wellFiled_run Classifier.builtin [.extend config]

theorem code_outcome_eq_zero_iff {command : Command} :
    (command.outcome loader files).code = 0 ↔ ∃ out, command.run loader files = .ok out := by
  rw [Command.outcome]
  cases command.run loader files <;> simp

theorem code_run_eq_zero_iff {args : List String} {command : Command}
    (h : Command.ofArgs args = .ok command) :
    (run files args loader).code = 0 ↔ ∃ out, command.run loader files = .ok out := by
  rw [run, h]
  exact code_outcome_eq_zero_iff

/-- The check finds no fault exactly if every filed selector can be read. -/
theorem invalidSelectors_eq_nil_iff {set : RuleSet Json} (h : WellFiled set) :
    invalidSelectors set = [] ↔ set.FiledReadable := by
  rw [invalidSelectors, List.filterMap_eq_nil_iff]
  simp only [FiledReadable, h.mem_filed, and_imp]
  refine forall₂_congr fun r _ => ?_
  rw [isEmpty_classify, isFiled, ← @Document.answers_host_iff probe 0, Host.Answers]
  cases (Placement.slots set.classifiers r.selector).isEmpty with
  | true => simp
  | false => cases probe.host.test 0 r.selector <;> simp

theorem runCheck_ok_iff (hrules : loadConfig loader files rules = .ok config) :
    (∃ out, runCheck loader files rules = .ok out) ↔ (buildSet config).FiledReadable := by
  rw [← invalidSelectors_eq_nil_iff (wellFiled_buildSet config), runCheck, hrules]
  simp only [bind, Except.bind]
  cases invalidSelectors (buildSet config) <;> simp [pure, Except.pure]

theorem runQuery_ok_iff (hrules : loadConfig loader files rules = .ok config)
    (hdoc : loadDocument loader files document = .ok doc) :
    (∃ out, runQuery loader files rules document = .ok out) ↔ (buildSet config).FiledReadable := by
  rw [← (wellFiled_buildSet config).queryAll_ok_iff doc 0, runQuery, hrules, hdoc]
  simp only [bind, Except.bind]
  cases ((buildSet config).queryAll doc.host 0).result <;>
    simp [Except.mapError, pure, Except.pure]

theorem runLookup_ok (hrules : loadConfig loader files rules = .ok config)
    (hdoc : loadDocument loader files document = .ok doc) {select? : Option String} {e : Nat}
    (hpick : pick doc select? = .ok e) (hread : (buildSet config).FiledReadable) :
    ∃ out, runLookup loader files rules document select? = .ok out := by
  obtain ⟨found, hfound⟩ := (wellFiled_buildSet config).matching_ok hread doc e
  rw [runLookup, hrules, hdoc]
  simp only [bind, Except.bind, hpick, hfound]
  exact ⟨_, rfl⟩

/-- For rules and a document that load, by whatever loader, a check succeeds exactly if a query
does, and then a lookup succeeds as well, of the root and of every element that a selector picks. -/
theorem check_foretells (hrules : loadConfig loader files rules = .ok config)
    (hdoc : loadDocument loader files document = .ok doc) :
    ((run files ["check", rules] loader).code = 0 ↔
      (run files ["query", rules, document] loader).code = 0) ∧
    ((run files ["check", rules] loader).code = 0 →
      (run files ["match", rules, document] loader).code = 0 ∧
      ∀ selector e, doc.find? 0 selector = some e →
        (run files ["match", rules, document, "--select", selector] loader).code = 0) := by
  have hcheck : (run files ["check", rules] loader).code = 0 ↔ (buildSet config).FiledReadable := by
    have hargs : Command.ofArgs ["check", rules] = .ok (.check rules) := rfl
    exact (code_run_eq_zero_iff hargs).trans (runCheck_ok_iff hrules)
  have hquery : (run files ["query", rules, document] loader).code = 0 ↔
      (buildSet config).FiledReadable := by
    have hargs : Command.ofArgs ["query", rules, document] = .ok (.query rules document) := rfl
    exact (code_run_eq_zero_iff hargs).trans (runQuery_ok_iff hrules hdoc)
  have hlookup (options : List String) (select? : Option String) (e : Nat)
      (hargs : Command.ofArgs ("match" :: rules :: document :: options) =
        .ok (.lookup rules document select?))
      (hpick : pick doc select? = .ok e) (h : (run files ["check", rules] loader).code = 0) :
      (run files ("match" :: rules :: document :: options) loader).code = 0 :=
    (code_run_eq_zero_iff hargs).2 (runLookup_ok hrules hdoc hpick (hcheck.1 h))
  refine ⟨hcheck.trans hquery.symm, fun h => ⟨?_, fun selector e hfind => ?_⟩⟩
  · exact hlookup [] none 0 rfl rfl h
  · have hpick : pick doc (some selector) = .ok e := by rw [pick, hfind]
    exact hlookup ["--select", selector] (some selector) e rfl hpick h

/-- Rules of which one is filed nowhere, as its selector has no compound, and one is passed over;
and a page. -/
def pageFiles : Files := Folder.read ⟨[
  ("rules.json",
    "\x7b\"rules\": [\x7b\"selector\": \"p, #a\"\x7d, \x7b\"selector\": \">\"\x7d, \x7b\x7d]\x7d"),
  ("page.json", "\x7b\"tag\": \"body\", \"children\": [\x7b\"tag\": \"p\"\x7d]\x7d")]⟩

theorem check_foretells_page : ∃ config doc,
    loadConfig .json pageFiles "rules.json" = .ok config ∧
    loadDocument .json pageFiles "page.json" = .ok doc ∧ doc.find? 0 "p" = some 1 ∧
    (run pageFiles ["check", "rules.json"]).code = 0 ∧
    (run pageFiles ["query", "rules.json", "page.json"]).code = 0 ∧
    (run pageFiles ["match", "rules.json", "page.json"]).code = 0 ∧
    (run pageFiles ["match", "rules.json", "page.json", "--select", "p"]).code = 0 := by
  have hcheck : (run pageFiles ["check", "rules.json"]).code = 0 := by decide +kernel
  have hload : (loadConfig .json pageFiles "rules.json").isOk = true := by decide +kernel
  have hfind : (loadDocument .json pageFiles "page.json").toOption.bind (·.find? 0 "p") =
      some 1 := by
    decide +kernel
  cases hrules : loadConfig .json pageFiles "rules.json" with
  | error fault =>
    rw [hrules] at hload
    cases hload
  | ok config =>
    cases hdoc : loadDocument .json pageFiles "page.json" with
    | error fault =>
      rw [hdoc] at hfind
      cases hfind
    | ok doc =>
      rw [hdoc] at hfind
      obtain ⟨hquery, hlookup⟩ := check_foretells hrules hdoc
      obtain ⟨hroot, hselect⟩ := hlookup hcheck
      exact ⟨config, doc, rfl, rfl, hfind, hcheck, hquery.1 hcheck, hroot, hselect "p" 1 hfind⟩

end Cli

end SelectorIndex
