/-
What the rules of the catalog may say.

A rule of the catalog reports with one severity, fixed for the rule: the rules in `Catalog.blocking` raise issues, all
others warnings. A rule that confirms a good pattern does so once and reports nothing along with it, and only the rules
in `Catalog.confirming` ever do. Both follow from the way in which a rule checks: conditions with their signals, a count
against a limit, measured numbers judged one by one, or a single verdict.

From one rule and one text this carries over to whole audits, because a finding of an audit was raised by a rule of the
catalog in one of the collected files (`FileSystem.Raised`).

Main result:
- `audit_disciplined`: severities, categories, names and passes of every rule, and of every audit with the catalog.
-/
import Mathlib.Tactic
import AppAudit.Proofs.Findings

namespace AppAudit

/-! ## Severities -/

/-- the severity that a signal reports with; a pass and a break-down report nothing -/
def Signal.severity? : Signal → Option Severity
  | issue _ => some .issue
  | warn _ => some .warning
  | pass | fail => none

namespace Catalog

/-- the rules whose findings are issues -/
def blocking : List String :=
  ["touch-target-size", "scrollview-map", "list-key-extractor", "effect-cleanup", "animated-layout", "secure-storage"]

/-- the rules that can confirm a good pattern -/
def confirming : List String :=
  ["deep-linking", "oled-background", "ios-icons", "ios-components", "android-material-icons",
    "android-material-components", "android-navigation", "performance-profiling", "hermes-engine"]

end Catalog

namespace Rule

/-- the severity of everything that a rule of the catalog reports -/
def severity (rule : Rule) : Severity := if rule.id ∈ Catalog.blocking then .issue else .warning

/-- a check confirms and says nothing else, or it only reports, always with the severity of the rule -/
def Disciplined (rule : Rule) : Prop :=
  ∀ content, (rule.id ∈ Catalog.confirming ∧ rule.check content = [.pass]) ∨
    ∀ s ∈ rule.check content, s.severity? = some rule.severity

variable {rule : Rule}

/-! ## Ways to check -/

theorem disciplined_of_signals {cases : List (Condition × Signal)} (hcheck : rule.check = signals cases)
    (h : ∀ c ∈ cases, c.2.severity? = some rule.severity) : rule.Disciplined := by
  intro content
  refine Or.inr fun s hs => ?_
  rw [hcheck, signals] at hs
  obtain ⟨c, hc, rfl⟩ := List.mem_map.1 hs
  exact h c (List.mem_filter.1 hc).1

/-- what is found is judged one by one -/
theorem disciplined_of_filterMap {α : Type} {found : List Char → List α} {judge : α → Option Signal}
    (hcheck : rule.check = fun content => (found content).filterMap judge)
    (h : ∀ a s, judge a = some s → s.severity? = some rule.severity) : rule.Disciplined := by
  intro content
  refine Or.inr fun s hs => ?_
  rw [hcheck] at hs
  obtain ⟨a, -, ha⟩ := List.mem_filterMap.1 hs
  exact h a s ha

/-- whatever is out of bounds is reported in one way -/
theorem disciplined_of_bound {α : Type} {found : List Char → List α} {bad : α → Bool} {say : α → Signal}
    (hcheck : rule.check = fun content => (found content).filterMap fun a => if bad a then some (say a) else none)
    (h : ∀ a, (say a).severity? = some rule.severity) : rule.Disciplined := by
  refine disciplined_of_filterMap hcheck fun a s hs => ?_
  split_ifs at hs
  rw [← Option.some.inj hs]
  exact h a

/-- at most one warning, whatever decides on it -/
theorem disciplined_of_warning (h : rule.severity = .warning)
    (hcheck : ∀ content, rule.check content = [] ∨ ∃ message, rule.check content = [.warn message]) :
    rule.Disciplined := by
  intro content
  refine Or.inr fun s hs => ?_
  rcases hcheck content with hnone | ⟨message, hone⟩
  · simp [hnone] at hs
  · rw [hone, List.mem_singleton] at hs
    rw [hs, h]
    rfl

theorem disciplined_of_if {bad : List Char → Prop} {_ : DecidablePred bad} {message : List Char → String}
    (h : rule.severity = .warning)
    (hcheck : ∀ content, rule.check content = if bad content then [.warn (message content)] else []) :
    rule.Disciplined := by
  refine disciplined_of_warning h fun content => ?_
  rw [hcheck]
  split_ifs
  · exact Or.inr ⟨_, rfl⟩
  · exact Or.inl rfl

theorem disciplined_of_pass (hid : rule.id ∈ Catalog.confirming)
    (hcheck : ∀ content, rule.check content = [] ∨ rule.check content = [.pass]) : rule.Disciplined := by
  intro content
  rcases hcheck content with hnone | hpass
  · exact Or.inr (by simp [hnone])
  · exact Or.inl ⟨hid, hpass⟩

theorem disciplined_of_good {good : Condition} (hid : rule.id ∈ Catalog.confirming)
    (hcheck : rule.check = signals [(good, .pass)]) : rule.Disciplined := by
  refine disciplined_of_pass hid fun content => ?_
  rw [hcheck]
  cases h : good.holds content <;> simp [signals, h]

/-- a good pattern is confirmed, or else something is reported: never both -/
theorem disciplined_of_switch {good bad : Condition} {s : Signal} (hid : rule.id ∈ Catalog.confirming)
    (hcheck : rule.check = signals [(good, .pass), (bad, s)]) (hs : s.severity? = some rule.severity)
    (hne : ∀ content, good.holds content = true → bad.holds content = false) : rule.Disciplined := by
  intro content
  rw [hcheck]
  by_cases hgood : good.holds content = true
  · exact Or.inl ⟨hid, by simp [signals, hgood, hne content hgood]⟩
  · refine Or.inr fun x hx => ?_
    have hx : x = s ∧ bad.holds content = true := by simpa [signals, hgood] using hx
    rw [hx.1, hs]

end Rule

/-! ## The catalog -/

namespace Catalog

open Rule

section

/-! Rules that judge measured numbers, that count, or that come to one verdict. -/

theorem disciplined_touchTargetSize : touchTargetSize.Disciplined := disciplined_of_bound rfl fun _ => rfl

theorem disciplined_touchTargetSpacing : touchTargetSpacing.Disciplined := disciplined_of_bound rfl fun _ => rfl

theorem disciplined_lineHeight : lineHeight.Disciplined := disciplined_of_bound rfl fun _ => rfl

theorem disciplined_fontSizeRange : fontSizeRange.Disciplined := by
  refine disciplined_of_filterMap rfl fun m s hs => ?_
  split_ifs at hs <;> cases hs <;> rfl

theorem disciplined_tabBarItems : tabBarItems.Disciplined := disciplined_of_if (by decide) fun _ => rfl

theorem disciplined_consoleOutput : consoleOutput.Disciplined := disciplined_of_if (by decide) fun _ => rfl

theorem disciplined_inlineHandlers : inlineHandlers.Disciplined := disciplined_of_if (by decide) fun _ => rfl

theorem disciplined_debugConsole : debugConsole.Disciplined := disciplined_of_if (by decide) fun _ => rfl

theorem disciplined_iosTypeScale : iosTypeScale.Disciplined := disciplined_of_if (by decide) fun _ => rfl

theorem disciplined_fontWeightBalance : fontWeightBalance.Disciplined := disciplined_of_if (by decide) fun _ => rfl

theorem disciplined_saturatedColors : saturatedColors.Disciplined := disciplined_of_if (by decide) fun _ => rfl

theorem disciplined_modularScale : modularScale.Disciplined := by
  refine disciplined_of_warning (by decide) fun content => ?_
  simp only [modularScale]
  split
  · exact Or.inr ⟨_, rfl⟩
  · exact Or.inl rfl

theorem disciplined_testingTools : testingTools.Disciplined := by
  refine disciplined_of_warning (by decide) fun content => ?_
  simp only [testingTools]
  split_ifs
  · exact Or.inl rfl
  · exact Or.inr ⟨_, rfl⟩

end

section

/-! Rules that can confirm. -/

theorem disciplined_iosIcons : iosIcons.Disciplined := disciplined_of_good (by decide) rfl

theorem disciplined_iosComponents : iosComponents.Disciplined := disciplined_of_good (by decide) rfl

theorem disciplined_androidMaterialIcons : androidMaterialIcons.Disciplined := disciplined_of_good (by decide) rfl

theorem disciplined_performanceProfiling : performanceProfiling.Disciplined := disciplined_of_good (by decide) rfl

theorem disciplined_hermesEngine : hermesEngine.Disciplined := disciplined_of_pass (by decide) fun _ => Or.inr rfl

theorem disciplined_androidMaterialComponents : androidMaterialComponents.Disciplined := by
  refine disciplined_of_pass (by decide) fun content => ?_
  simp only [androidMaterialComponents]
  split_ifs
  · exact Or.inr rfl
  · exact Or.inl rfl

theorem disciplined_deepLinking : deepLinking.Disciplined := by
  refine disciplined_of_switch (by decide) rfl (by decide) fun content h => ?_
  simp only [Condition.holds, Bool.and_eq_true, Bool.not_eq_true'] at h ⊢
  rw [h.1, Bool.false_and]

theorem disciplined_oledBackground : oledBackground.Disciplined := by
  refine disciplined_of_switch (by decide) rfl (by decide) fun content h => ?_
  simp only [Condition.holds] at h ⊢
  rw [h]
  rfl

theorem disciplined_androidNavigation : androidNavigation.Disciplined := by
  refine disciplined_of_switch (by decide) rfl (by decide) fun content h => ?_
  simp only [Condition.holds] at h ⊢
  rw [h]
  rfl

end

end Catalog

/-- **Every rule keeps to its severity.** A rule of the catalog confirms and reports nothing, or it reports with the
severity that is fixed for it. -/
theorem Rule.disciplined_of_mem {rule : Rule} (h : rule ∈ catalog) : rule.Disciplined := by
  have hall : ∀ rule ∈ catalog, rule.Disciplined := by
    simp only [catalog, List.forall_mem_cons, Catalog.disciplined_touchTargetSize,
      Catalog.disciplined_touchTargetSpacing, Catalog.disciplined_lineHeight, Catalog.disciplined_fontSizeRange,
      Catalog.disciplined_tabBarItems, Catalog.disciplined_consoleOutput, Catalog.disciplined_inlineHandlers,
      Catalog.disciplined_debugConsole, Catalog.disciplined_iosTypeScale, Catalog.disciplined_fontWeightBalance,
      Catalog.disciplined_saturatedColors, Catalog.disciplined_modularScale, Catalog.disciplined_testingTools,
      Catalog.disciplined_iosIcons, Catalog.disciplined_iosComponents, Catalog.disciplined_androidMaterialIcons,
      Catalog.disciplined_performanceProfiling, Catalog.disciplined_hermesEngine,
      Catalog.disciplined_androidMaterialComponents, Catalog.disciplined_deepLinking,
      Catalog.disciplined_oledBackground, Catalog.disciplined_androidNavigation, true_and, List.not_mem_nil,
      false_implies, implies_true, and_true]
    -- all other rules raise signals of one severity under conditions
    and_intros <;> exact disciplined_of_signals rfl (by decide)
  exact hall rule h

theorem Catalog.lookup?_of_mem {rule : Rule} (h : rule ∈ catalog) : lookup? rule.id = some rule := by
  obtain ⟨found, hfound⟩ : ∃ found, lookup? rule.id = some found := by
    rw [← Option.isSome_iff_exists, lookup?, List.find?_isSome]
    exact ⟨rule, h, by simp⟩
  have hid : found.id = rule.id := by simpa using List.find?_some hfound
  have hsame : found = rule := List.inj_on_of_nodup_map nodup_ids_catalog (List.mem_of_find?_eq_some hfound) h hid
  rw [hfound, hsame]

namespace Rule

variable {rule : Rule} {file : String} {content : List Char}

/-! ## One rule, one text -/

theorem severity_finding? {s : Signal} {f : Finding} (h : rule.finding? file s = some f) :
    s.severity? = some f.severity := by
  cases s <;> cases h <;> rfl

theorem Disciplined.severity_eq (h : rule.Disciplined) {f : Finding} (hf : f ∈ (rule.evaluate file content).findings) :
    f.severity = rule.severity := by
  obtain ⟨s, hs, hfound⟩ := mem_findings_evaluate hf
  have hsaid := severity_finding? hfound
  rcases h content with ⟨-, hpass⟩ | hreports
  · rw [hpass, List.mem_singleton] at hs
    simp [hs, Signal.severity?] at hsaid
  · rw [hreports s hs, Option.some.injEq] at hsaid
    exact hsaid.symm

theorem Disciplined.fail_not_mem (h : rule.Disciplined) : .fail ∉ rule.check content := by
  intro hfail
  rcases h content with ⟨-, hpass⟩ | hreports
  · simp [hpass] at hfail
  · simpa [Signal.severity?] using hreports _ hfail

/-- such a check never breaks down, so its outcome can be read off its signals -/
theorem Disciplined.evaluate_eq (h : rule.Disciplined) (file : String) (content : List Char) :
    rule.evaluate file content =
      { findings := (rule.check content).filterMap (rule.finding? file)
        passed := ((rule.check content).filter (· == .pass)).map fun _ => rule.id } := by
  unfold evaluate
  exact if_neg (mt List.contains_iff_mem.1 h.fail_not_mem)

theorem signals_single (c : Condition) (s : Signal) (content : List Char) :
    signals [(c, s)] content = if c.holds content then [s] else [] := by
  cases hc : c.holds content <;> simp [signals, hc]

/-- a rule that says one thing under one condition -/
theorem Disciplined.findings_of_condition {c : Condition} {s : Signal} {f : Finding} (h : rule.Disciplined)
    (hcheck : rule.check = signals [(c, s)]) (hf : rule.finding? file s = some f) :
    (rule.evaluate file content).findings = if c.holds content then [f] else [] := by
  rw [h.evaluate_eq, hcheck, signals_single]
  split_ifs <;> simp [hf]

theorem Disciplined.mem_findings_iff {c : Condition} {s : Signal} {f : Finding} (h : rule.Disciplined)
    (hcheck : rule.check = signals [(c, s)]) (hf : rule.finding? file s = some f) :
    f ∈ (rule.evaluate file content).findings ↔ c.holds content = true := by
  rw [h.findings_of_condition hcheck hf]
  split_ifs with hc <;> simp [hc]

theorem Disciplined.issue_mem_iff {message : String} (h : rule.Disciplined) :
    .newIssue rule.id rule.category file message ∈ (rule.evaluate file content).findings ↔
      .issue message ∈ rule.check content := by
  rw [h.evaluate_eq]
  dsimp only
  rw [List.mem_filterMap]
  constructor
  · intro ⟨s, hs, hf⟩
    cases s with
    | issue said =>
      simp only [finding?, Finding.newIssue, Option.some.injEq, Finding.mk.injEq, true_and] at hf
      rwa [← hf]
    | warn said => simp [finding?, Finding.newIssue, Finding.newWarning] at hf
    | pass => simp [finding?] at hf
    | fail => simp [finding?] at hf
  · intro hs
    exact ⟨_, hs, rfl⟩

theorem Disciplined.pass_mem_iff (h : rule.Disciplined) :
    .pass ∈ rule.check content ↔ (rule.evaluate file content).passed ≠ [] := by
  rw [h.evaluate_eq]
  simp

/-- at most one pass, by a rule that may confirm, and nothing else along with it -/
theorem Disciplined.passed_evaluate (h : rule.Disciplined) :
    (rule.evaluate file content).passed = [] ∨
      rule.id ∈ Catalog.confirming ∧ (rule.evaluate file content).passed = [rule.id] ∧
        (rule.evaluate file content).findings = [] := by
  rcases h content with ⟨hid, hpass⟩ | hreports
  · refine Or.inr ⟨hid, ?_, ?_⟩
    · simp [evaluate, hpass]
    · simp [evaluate, hpass, finding?]
  · left
    have hnone : (rule.check content).filter (· == .pass) = [] := by
      rw [List.filter_eq_nil_iff]
      intro s hs hp
      rw [beq_iff_eq.1 hp] at hs
      simpa [Signal.severity?] using hreports _ hs
    simp only [evaluate, hnone, List.map_nil]
    split_ifs <;> rfl

/-- most rules never confirm anything -/
theorem Disciplined.passed_eq_nil (h : rule.Disciplined) (hid : rule.id ∉ Catalog.confirming) (file : String)
    (content : List Char) : (rule.evaluate file content).passed = [] :=
  h.passed_evaluate.resolve_right fun hconfirms => hid hconfirms.1

theorem Disciplined.passed_eq_of_mem (h : rule.Disciplined) (hpass : .pass ∈ rule.check content) :
    (rule.evaluate file content).passed = [rule.id] :=
  (h.passed_evaluate.resolve_left (h.pass_mem_iff.1 hpass)).2.1

/-- how many passes a rule can contribute for a file -/
def passes (rule : Rule) : Nat := if rule.id ∈ Catalog.confirming then 1 else 0

theorem Disciplined.length_passed_le (h : rule.Disciplined) : (rule.evaluate file content).passed.length ≤ rule.passes := by
  rcases @Disciplined.passed_evaluate _ file content h with hnone | ⟨hid, hone, -⟩
  · simp [hnone]
  · simp [hone, passes, hid]

end Rule

/-! ## Audits -/

namespace FileSystem

variable {fs : FileSystem} {paths : List (List Char)} {f : Finding}

theorem passes_rulesFor_le (path : String) (content : List Char) :
    ((rulesFor catalog content).map fun rule => (rule.evaluate (fileName path) content).passed.length).sum ≤ 9 := by
  have hnine : (catalog.map Rule.passes).sum = 9 := by decide
  calc ((rulesFor catalog content).map fun rule => (rule.evaluate (fileName path) content).passed.length).sum
      ≤ ((rulesFor catalog content).map Rule.passes).sum :=
        List.sum_le_sum fun rule hrule => (Rule.disciplined_of_mem (List.mem_filter.1 hrule).1).length_passed_le
    _ ≤ (catalog.map Rule.passes).sum := ((List.filter_sublist).map Rule.passes).sum_le_sum (by simp)
    _ = 9 := hnine

theorem passedCount_total_le :
    (fs.total catalog paths).passedCount ≤ 9 * (fs.total catalog paths).filesChecked := by
  have hsum : (((fs.inScope paths).map fun file => ((rulesFor catalog file.2).map fun rule =>
      (rule.evaluate (fileName file.1) file.2).passed.length).sum).sum) ≤ (fs.inScope paths).length * 9 := by
    rw [← smul_eq_mul, ← List.length_map]
    refine List.sum_le_card_nsmul _ _ fun n hn => ?_
    obtain ⟨file, -, rfl⟩ := List.mem_map.1 hn
    exact passes_rulesFor_le file.1 file.2
  have hcount : (fs.total catalog paths).passedCount = (((fs.inScope paths).map fun file =>
      ((rulesFor catalog file.2).map fun rule => (rule.evaluate (fileName file.1) file.2).passed.length).sum).sum : Nat) := by
    simp only [total, Nat.cast_list_sum, List.map_map, Function.comp_def]
  rw [hcount, total]
  dsimp only
  omega

/-- a finding of the catalog can be traced to its rule and its file, and has the severity of the rule -/
theorem Raised.traced (h : fs.Raised catalog paths f) :
    f.file = fileName f.path ∧ ∃ path ∈ paths, f.path = String.ofList path ∧
      ∃ bytes, fs.readFile path = .ok bytes ∧ ∃ rule, Catalog.lookup? f.ruleId = some rule ∧
        f.category = rule.category ∧ rule.applies (Frameworks.detect (Utf8.decode bytes)) = true ∧
        f.severity = rule.severity ∧ rule.id = f.ruleId := by
  obtain ⟨path, hpath, bytes, hread, rule, hrule, happlies, hfound⟩ := h
  have hnames := Rule.names_of_mem_findingsAt hfound
  have hseverity : f.severity = rule.severity := by
    obtain ⟨g, hg, rfl⟩ := List.mem_map.1 hfound
    exact Rule.Disciplined.severity_eq (f := g) (Rule.disciplined_of_mem hrule) hg
  refine ⟨by rw [hnames.file, hnames.path], path, hpath, hnames.path, bytes, hread, rule, ?_, hnames.category, happlies,
    hseverity, hnames.ruleId.symm⟩
  rw [hnames.ruleId]
  exact Catalog.lookup?_of_mem hrule

theorem Raised.isIssue_iff (h : fs.Raised catalog paths f) : f.isIssue = true ↔ f.ruleId ∈ Catalog.blocking := by
  obtain ⟨-, -, -, -, -, -, rule, -, -, -, hseverity, hid⟩ := h.traced
  rw [Finding.isIssue, hseverity, Rule.severity, hid]
  split_ifs with hb <;> simp [hb]

end FileSystem

/-- **The catalog is disciplined.** For every text and every file name, a rule of the catalog passes at most once, under
its own identifier and with nothing reported, and everything it reports carries its identifier, its category, the name of
the file and the one severity of the rule. So whenever an audit with the catalog succeeds, each of its findings shows the
last name of its path, which is one of the collected paths, names a rule of the catalog by identifier and category that
applies to the text of that file, and stands among the issues or among the warnings as its rule says; and there are at
most nine passes for each file. -/
theorem audit_disciplined :
    (∀ rule ∈ catalog, ∀ (file : String) (content : List Char),
      ((rule.evaluate file content).passed = [] ∨
        (rule.evaluate file content).passed = [rule.id] ∧ (rule.evaluate file content).findings = []) ∧
      ∀ f ∈ (rule.evaluate file content).findings,
        f.ruleId = rule.id ∧ f.category = rule.category ∧ f.file = file ∧
          f.severity = if rule.id ∈ Catalog.blocking then .issue else .warning) ∧
    ∀ (fs : FileSystem) (root : List Char) (r : Result), fs.auditPath catalog root = .ok r →
      (∃ paths, fs.collect root = .ok paths ∧ ∀ f ∈ r.findings,
        f.file = fileName f.path ∧
        (f ∈ r.issues ↔ f.ruleId ∈ Catalog.blocking) ∧ (f ∈ r.warnings ↔ f.ruleId ∉ Catalog.blocking) ∧
        ∃ path ∈ paths, f.path = String.ofList path ∧ ∃ bytes, fs.readFile path = .ok bytes ∧
          ∃ rule, Catalog.lookup? f.ruleId = some rule ∧ f.category = rule.category ∧
            rule.applies (Frameworks.detect (Utf8.decode bytes)) = true) ∧
      r.passedCount ≤ 9 * r.filesChecked := by
  refine ⟨fun rule hrule file content => ⟨?_, fun f hf => ?_⟩, fun fs root r h => ?_⟩
  · exact (Rule.disciplined_of_mem hrule).passed_evaluate.imp_right And.right
  · obtain ⟨s, -, hs⟩ := Rule.mem_findings_evaluate hf
    obtain ⟨hid, hcategory, hfile, -⟩ := Rule.finding?_eq_some hs
    exact ⟨hid, hcategory, hfile, (Rule.disciplined_of_mem hrule).severity_eq hf⟩
  · obtain ⟨paths, hcollect, rfl⟩ := FileSystem.auditPath_eq_ok h
    refine ⟨⟨paths, hcollect, fun f hf => ?_⟩, FileSystem.passedCount_total_le⟩
    have hraised := FileSystem.raised_of_mem_findings hf
    have hissue := hraised.isIssue_iff
    obtain ⟨hfile, path, hpath, hname, bytes, hread, rule, hlookup, hcategory, happlies, -⟩ := hraised.traced
    refine ⟨hfile, ?_, ?_, path, hpath, hname, bytes, hread, rule, hlookup, hcategory, happlies⟩
    · rw [FileSystem.mem_issues_total, hissue, and_iff_right hraised]
    · rw [FileSystem.mem_warnings_total, ← hissue, and_iff_right hraised, Bool.not_eq_true]

/-- a bare import raises a warning in the small tree -/
theorem raised_smallTree : ∃ f, FileSystem.smallTree.Raised catalog ["a.ts".toList, "b.js".toList] f ∧
    f.ruleId = "error-boundary" := by
  have hread : FileSystem.smallTree.readFile "a.ts".toList = .ok (Utf8.encode "import 'react-native'".toList) := by cbv
  have htext : Utf8.decode (Utf8.encode "import 'react-native'".toList) = "import 'react-native'".toList := by decide
  have happlies : Catalog.errorBoundary.applies (Frameworks.detect "import 'react-native'".toList) = true := by
    decide
  have hfound : ∃ f ∈ Catalog.errorBoundary.findingsAt (String.ofList "a.ts".toList) "import 'react-native'".toList,
      f.ruleId = "error-boundary" := by decide
  obtain ⟨f, hf, hid⟩ := hfound
  rw [← htext] at hf happlies
  exact ⟨f, ⟨_, List.mem_cons_self, _, hread, _, by simp [catalog], happlies, hf⟩, hid⟩

theorem audit_disciplined_smallTree :
    Catalog.hermesEngine ∈ catalog ∧ (Catalog.hermesEngine.evaluate "a.ts" []).findings = [] ∧
    ∃ r, FileSystem.smallTree.auditPath catalog ".".toList = .ok r ∧ r.passedCount ≤ 9 * r.filesChecked ∧
      ∃ f ∈ r.warnings, f.ruleId = "error-boundary" ∧ f.file = fileName f.path := by
  have hmem : Catalog.hermesEngine ∈ catalog := by simp [catalog]
  have hcollect : FileSystem.smallTree.collect ".".toList = .ok ["a.ts".toList, "b.js".toList] := by cbv
  have haudit : FileSystem.smallTree.auditPath catalog ".".toList =
      .ok (FileSystem.smallTree.total catalog ["a.ts".toList, "b.js".toList]) := by
    rw [FileSystem.auditPath, hcollect, Except.map, FileSystem.auditFiles_eq_total]
  have hpassed : (Catalog.hermesEngine.evaluate "a.ts" []).passed ≠ [] := by decide
  obtain ⟨⟨paths, -, hfindings⟩, hpasses⟩ := audit_disciplined.2 _ _ _ haudit
  obtain ⟨f, hraised, hid⟩ := raised_smallTree
  have hwarning : f ∈ (FileSystem.smallTree.total catalog ["a.ts".toList, "b.js".toList]).warnings := by
    refine FileSystem.mem_warnings_total.2 ⟨hraised, ?_⟩
    rw [← Bool.not_eq_true, hraised.isIssue_iff, hid]
    decide
  exact ⟨hmem, ((audit_disciplined.1 _ hmem _ _).1.resolve_left hpassed).2, _, haudit, hpasses, f, hwarning, hid,
    (hfindings f (List.mem_append_right _ hwarning)).1⟩

end AppAudit
