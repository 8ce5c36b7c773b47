/-
Where the findings of an audit come from.

Every finding of an audit was raised by a rule that applies to the text of one of the collected files (`Raised`), and the
list it stands in is decided by its severity alone (`mem_issues_total`, `mem_warnings_total`). What a finding says about
itself is therefore what its rule and its file say: identifier and category are those of the rule, and the name it shows
is the last name of its path.
-/
import Mathlib.Tactic
import AppAudit.Proofs.Totals

namespace AppAudit

/-- what a signal becomes carries the marks of the rule and of the file -/
theorem Rule.finding?_eq_some {rule : Rule} {file : String} {s : Signal} {f : Finding}
    (h : rule.finding? file s = some f) :
    f.ruleId = rule.id ∧ f.category = rule.category ∧ f.file = file ∧ (f.severity = .issue ∨ f.severity = .warning) := by
  cases s with
  | issue message =>
    cases h
    exact ⟨rfl, rfl, rfl, Or.inl rfl⟩
  | warn message =>
    cases h
    exact ⟨rfl, rfl, rfl, Or.inr rfl⟩
  | pass => simp [finding?] at h
  | fail => simp [finding?] at h

theorem Rule.mem_findings_evaluate {rule : Rule} {file : String} {content : List Char} {f : Finding}
    (h : f ∈ (rule.evaluate file content).findings) : ∃ s ∈ rule.check content, rule.finding? file s = some f := by
  unfold evaluate at h
  by_cases hfail : (rule.check content).contains .fail = true
  · rw [if_pos hfail] at h
    simp [Outcome.empty] at h
  · rw [if_neg hfail] at h
    exact List.mem_filterMap.1 h

/-- a rule of the catalog is known by its identifier -/
theorem nodup_ids_catalog : (catalog.map (·.id)).Nodup := by decide

/-- a finding of a rule in a file says which rule and which file -/
structure Finding.Names (f : Finding) (rule : Rule) (path : String) : Prop where
  ruleId : f.ruleId = rule.id
  category : f.category = rule.category
  file : f.file = fileName path
  path : f.path = path
  severity : f.severity = .issue ∨ f.severity = .warning

theorem Rule.names_of_mem_findingsAt {rule : Rule} {path : String} {content : List Char} {f : Finding}
    (h : f ∈ rule.findingsAt path content) : f.Names rule path := by
  obtain ⟨g, hg, rfl⟩ := List.mem_map.1 h
  obtain ⟨s, -, hs⟩ := mem_findings_evaluate hg
  obtain ⟨hid, hcat, hfile, hsev⟩ := finding?_eq_some hs
  exact ⟨hid, hcat, hfile, rfl, hsev⟩

namespace FileSystem

variable {fs : FileSystem} {rules : List Rule} {paths : List (List Char)} {f : Finding}

theorem mem_inScope {file : String × List Char} : file ∈ fs.inScope paths ↔
    ∃ path ∈ paths, ∃ bytes, fs.readFile path = .ok bytes ∧
      (Frameworks.detect (Utf8.decode bytes)).inScope = true ∧ file = (String.ofList path, Utf8.decode bytes) := by
  unfold inScope
  rw [List.mem_filterMap]
  constructor
  · rintro ⟨path, hpath, h⟩
    refine ⟨path, hpath, ?_⟩
    cases hread : fs.readFile path with
    | error e => simp [hread] at h
    | ok bytes =>
      simp only [hread, Option.ite_none_right_eq_some, Option.some.injEq] at h
      exact ⟨bytes, rfl, h.1, h.2.symm⟩
  · rintro ⟨path, hpath, bytes, hread, hscope, rfl⟩
    exact ⟨path, hpath, by simp [hread, hscope]⟩

/-- a rule that applies to the text of one of the files has raised the finding there -/
def Raised (fs : FileSystem) (rules : List Rule) (paths : List (List Char)) (f : Finding) : Prop :=
  ∃ path ∈ paths, ∃ bytes, fs.readFile path = .ok bytes ∧
    ∃ rule ∈ rules, rule.applies (Frameworks.detect (Utf8.decode bytes)) = true ∧
      f ∈ rule.findingsAt (String.ofList path) (Utf8.decode bytes)

/-- the findings of all files that pass a test, as both lists of a total gather them -/
theorem mem_flatMap_inScope (keep : Finding → Bool) :
    (f ∈ (fs.inScope paths).flatMap fun (path, content) =>
      (rulesFor rules content).flatMap fun rule => (rule.findingsAt path content).filter keep) ↔
      fs.Raised rules paths f ∧ keep f = true := by
  rw [List.mem_flatMap]
  constructor
  · rintro ⟨file, hfile, h⟩
    obtain ⟨path, hpath, bytes, hread, -, rfl⟩ := mem_inScope.1 hfile
    obtain ⟨rule, hrule, hf⟩ := List.mem_flatMap.1 h
    obtain ⟨hmem, happlies⟩ := List.mem_filter.1 hrule
    obtain ⟨hfound, hkeep⟩ := List.mem_filter.1 hf
    exact ⟨⟨path, hpath, bytes, hread, rule, hmem, happlies, hfound⟩, hkeep⟩
  · rintro ⟨⟨path, hpath, bytes, hread, rule, hmem, happlies, hfound⟩, hkeep⟩
    have hscope : (Frameworks.detect (Utf8.decode bytes)).inScope = true := by
      rw [Rule.applies, Bool.and_eq_true] at happlies
      exact happlies.1
    exact ⟨_, mem_inScope.2 ⟨path, hpath, bytes, hread, hscope, rfl⟩,
      List.mem_flatMap.2 ⟨rule, List.mem_filter.2 ⟨hmem, happlies⟩, List.mem_filter.2 ⟨hfound, hkeep⟩⟩⟩

theorem mem_issues_total : f ∈ (fs.total rules paths).issues ↔ fs.Raised rules paths f ∧ f.isIssue = true :=
  mem_flatMap_inScope Finding.isIssue

theorem mem_warnings_total : f ∈ (fs.total rules paths).warnings ↔ fs.Raised rules paths f ∧ f.isIssue = false := by
  rw [← Bool.not_eq_true' f.isIssue]
  exact mem_flatMap_inScope fun f => !f.isIssue

theorem raised_of_mem_findings (h : f ∈ (fs.total rules paths).findings) : fs.Raised rules paths f := by
  rcases List.mem_append.1 h with h | h
  · exact (mem_issues_total.1 h).1
  · exact (mem_warnings_total.1 h).1

theorem Raised.names (h : fs.Raised rules paths f) :
    ∃ path ∈ paths, ∃ rule ∈ rules, f.Names rule (String.ofList path) := by
  obtain ⟨path, hpath, bytes, -, rule, hmem, -, hfound⟩ := h
  exact ⟨path, hpath, rule, hmem, Rule.names_of_mem_findingsAt hfound⟩

theorem auditPath_eq_ok {root : List Char} {r : Result} (h : fs.auditPath rules root = .ok r) :
    ∃ paths, fs.collect root = .ok paths ∧ r = fs.total rules paths := by
  unfold auditPath at h
  cases hc : fs.collect root with
  | error e => simp [hc, Except.map] at h
  | ok paths =>
    rw [hc, Except.map, auditFiles_eq_total, Except.ok.injEq] at h
    exact ⟨paths, rfl, h.symm⟩

end FileSystem

end AppAudit
