/-
One verdict in every report.

A result is compliant when it holds no issue. The text report says so in its last line, the JSON report and the SARIF run
in a member, the results of the SARIF run by the absence of the level `error`, and the program by its exit code. The
reports are made in two ways: text and JSON from a snapshot of texts, the SARIF run from whole findings and a table of
rules that is overwritten on the way. What makes them agree is that the findings of an audit name their rule and their
file (`Finding.Names`), and that the rules of the catalog have identifiers of their own.

Main result:
- `verdicts_agree`: all verdicts of an audit are the same, and the results of the SARIF run are, one by one and in order,
  the issues and warnings of the JSON report.
-/
import Mathlib.Tactic
import AppAudit.Command.Audit
import AppAudit.Proofs.Findings
import AppAudit.Proofs.RuleTable

namespace AppAudit

/-! ## Reading reports -/

/-- the last line of some bytes; a line break at the very end does not start another one -/
def lastLine (bytes : Bytes) : Bytes :=
  let body := if bytes.getLast? = some 10 then bytes.dropLast else bytes
  (body.reverse.takeWhile (· ≠ 10)).reverse

theorem lastLine_append (before : Bytes) {line : Bytes} (h : 10 ∉ line) :
    lastLine (before ++ [10] ++ (line ++ [10])) = line := by
  have hlast : (before ++ [10] ++ (line ++ [10])).getLast? = some 10 := by
    rw [← List.append_assoc, List.getLast?_concat]
  have hbody : (before ++ [10] ++ (line ++ [10])).dropLast = before ++ [10] ++ line := by
    rw [← List.append_assoc, List.dropLast_concat]
  have hline : (line.reverse ++ [10] ++ before.reverse).takeWhile (· ≠ 10) = line.reverse := by
    rw [List.append_assoc, List.takeWhile_append_of_pos]
    · simp
    · intro b hb
      simpa using fun he : b = 10 => h (he ▸ List.mem_reverse.1 hb)
  rw [lastLine, if_pos hlast, hbody, List.reverse_append, List.reverse_append, List.reverse_singleton,
    ← List.append_assoc, hline, List.reverse_reverse]

theorem textBytes_append (a b : String) : textBytes (a ++ b) = textBytes a ++ textBytes b := by
  rw [textBytes, String.toList_append, Utf8.encode, List.flatMap_append]
  rfl

namespace Json

/-- the member of an object with a name -/
def member? : Json → String → Option Json
  | obj members, name => (members.find? fun m => m.1 == name).map (·.2)
  | _, _ => none

/-- the item of an array at a position -/
def item? : Json → Nat → Option Json
  | arr items, k => items[k]?
  | _, _ => none

end Json

/-- a property of the first run of a document -/
def Sarif.property? (document : Json) (name : String) : Option Json := do
  let runs ← document.member? "runs"
  let run ← runs.item? 0
  let properties ← run.member? "properties"
  properties.member? name

/-! ## Verdicts of a result -/

theorem flatten_last_lines (front : List String) (a b : String) :
    ((front ++ [a ++ "\n", b ++ "\n"]).map textBytes).flatten =
      ((front.map textBytes).flatten ++ textBytes a) ++ [10] ++ (textBytes b ++ [10]) := by
  have hbreak : textBytes "\n" = [10] := by decide
  simp only [List.map_append, List.map_cons, List.map_nil, List.flatten_append, List.flatten_cons, List.flatten_nil,
    textBytes_append, hbreak, List.append_assoc, List.append_nil]

/-- the verdict of a text report stands in its last line -/
theorem lastLine_text (r : Result) (c : ReportContext) :
    (ReportFormat.text.render r c).map (fun report => lastLine report.content) =
      .ok (textBytes ("STATUS: " ++ if r.compliant then "PASS" else "FAIL")) := by
  have hline : 10 ∉ textBytes ("STATUS: " ++ if r.compliant then "PASS" else "FAIL") := by
    cases r.compliant <;> decide
  rw [ReportFormat.render, Except.map, Rendering.content, TextReport.lines, flatten_last_lines]
  exact congrArg _ (lastLine_append _ hline)

theorem lastLine_text_iff (r : Result) (c : ReportContext) :
    (ReportFormat.text.render r c).map (fun report => lastLine report.content) = .ok (textBytes "STATUS: PASS") ↔
      r.compliant = true := by
  rw [lastLine_text, Except.ok.injEq]
  cases r.compliant <;> decide

theorem member?_compliant (s : Snapshot) : s.toJson.member? "compliant" = some (.bool s.compliant) := by
  simp [Snapshot.toJson, Json.member?, List.find?]

theorem property?_compliant (run : Sarif.Run) :
    Sarif.property? (Sarif.document run) "compliant" = some (.bool run.compliant) := by
  cases hp : run.provenance with
  | none => simp [Sarif.property?, Sarif.document, Sarif.Run.toJson, Json.member?, Json.item?, hp, List.find?]
  | some p => simp [Sarif.property?, Sarif.document, Sarif.Run.toJson, Json.member?, Json.item?, hp, List.find?]

theorem textBytes_join (texts : List String) : textBytes (String.join texts) = (texts.map textBytes).flatten := by
  induction texts with
  | nil => rfl
  | cons s texts ih => rw [String.join_cons, textBytes_append, ih, List.map_cons, List.flatten_cons]

theorem content_text (r : Result) (context : ReportContext) :
    (ReportFormat.text.render r context).map Rendering.content = .ok (textBytes (TextReport.render r.snapshot)) := by
  rw [TextReport.render, textBytes_join]
  rfl

theorem content_json (r : Result) (context : ReportContext) :
    (ReportFormat.json.render r context).map Rendering.content =
      .ok (textBytes (r.snapshot.toJson.pretty ++ "\n")) := by
  simp only [ReportFormat.render, Except.map, Rendering.content, List.flatten_singleton, jsonReport]

theorem content_sarif (r : Result) {context : ReportContext} {provenance : Option Sarif.Provenance}
    (h : context.provenance = .ok provenance) :
    (ReportFormat.sarif.render r context).map Rendering.content =
      .ok (textBytes ((Sarif.document (Sarif.run r context.toolVersion context.guid provenance)).pretty ++ "\n")) := by
  simp only [ReportFormat.render, h, Except.map, Rendering.content, List.flatten_cons, List.flatten_nil,
    List.append_nil, textBytes_append]

theorem exitCode_audit {env : Environment} {config : Config} {c : Command} {flags : AuditFlags}
    {arguments : List (List Char)} {root : List Char} {r : Result}
    (htarget : flags.target env.files env.home arguments = .ok root)
    (haudit : env.files.auditPath catalog root = .ok r)
    (hsent : (ReportJob.deliver ⟨(settings (some config) flags).1, r, root⟩ env flags.output).error = none) :
    (env.audit config c flags arguments).exitCode = 0 ↔ r.compliant = true := by
  unfold Environment.audit
  simp only [htarget]
  unfold Environment.auditTarget
  simp only [haudit, hsent, RunOutcome.exitCode, Environment.verdict]
  cases r.compliant with
  | true => simp [Ending.exitCode]
  | false => simp [Ending.exitCode, Failure.exitCode, Failure.verdict?, Failure.defaultCode]

/-! ## Results and texts -/

/-- where the category of a finding is decided by its rule, a result points to an entry with that category -/
theorem Sarif.Draft.Inv.getElem?_category {seen : List Finding} {d : Draft} (h : d.Inv seen)
    (hcat : ∀ f ∈ seen, ∀ g ∈ seen, f.ruleId = g.ruleId → f.category = g.category) {f : Finding} (hf : f ∈ seen) :
    ∃ e, d.rules[(entry d.rules f).ruleIndex]? = some e ∧ e.category = f.category := by
  obtain ⟨e, he, hid⟩ := getElem?_ruleIndex (h.mem_ids hf)
  refine ⟨e, he, ?_⟩
  obtain ⟨g, hg, rfl⟩ := h.last e (List.mem_of_getElem? he)
  have hmem : g ∈ seen := (List.mem_filter.1 (List.mem_of_getLast? hg)).1
  exact hcat g hmem f hf hid

/-- a finding that shows the last name of its path can be recognised by the last name of its place -/
theorem Sarif.fileName_uri {f : Finding} (h : f.file = fileName f.path) (table : List RuleEntry) :
    fileName (entry table f).uri = f.file := by
  by_cases hp : f.path = ""
  · have huri : (entry table f).uri = f.file := by simp [entry, hp]
    rw [huri, h, hp]
    decide
  · have huri : (entry table f).uri = f.path := by simp [entry, hp]
    rw [huri, h]

namespace Result

/-- what holds of every result of an audit with the catalog -/
structure Audited (r : Result) : Prop where
  issues : ∀ f ∈ r.issues, f.severity = .issue
  warnings : ∀ f ∈ r.warnings, f.severity = .warning
  names : ∀ f ∈ r.findings, ∃ rule ∈ catalog, ∃ path, f.Names rule path

theorem audited_of_auditPath {fs : FileSystem} {root : List Char} {r : Result}
    (h : fs.auditPath catalog root = .ok r) : r.Audited := by
  obtain ⟨paths, -, rfl⟩ := FileSystem.auditPath_eq_ok h
  refine ⟨fun f hf => ?_, fun f hf => ?_, fun f hf => ?_⟩
  · exact beq_iff_eq.1 (FileSystem.mem_issues_total.1 hf).2
  · obtain ⟨hraised, hno⟩ := FileSystem.mem_warnings_total.1 hf
    obtain ⟨path, -, rule, -, hnames⟩ := hraised.names
    refine hnames.severity.resolve_left fun hissue => ?_
    simp [Finding.isIssue, hissue] at hno
  · obtain ⟨path, -, rule, hrule, hnames⟩ := (FileSystem.raised_of_mem_findings hf).names
    exact ⟨rule, hrule, _, hnames⟩

variable {r : Result}

theorem Audited.category (h : r.Audited) :
    ∀ f ∈ r.findings, ∀ g ∈ r.findings, f.ruleId = g.ruleId → f.category = g.category := by
  intro f hf g hg hid
  obtain ⟨rule, hrule, path, hnames⟩ := h.names f hf
  obtain ⟨rule', hrule', path', hnames'⟩ := h.names g hg
  have hsame : rule = rule' := by
    apply List.inj_on_of_nodup_map nodup_ids_catalog hrule hrule'
    rw [← hnames.ruleId, ← hnames'.ruleId, hid]
  rw [hnames.category, hnames'.category, hsame]

theorem Audited.file (h : r.Audited) {f : Finding} (hf : f ∈ r.findings) : f.file = fileName f.path := by
  obtain ⟨rule, -, path, hnames⟩ := h.names f hf
  rw [hnames.file, hnames.path]

theorem Audited.severity (h : r.Audited) {k : Nat} {f : Finding} (hk : r.findings[k]? = some f) :
    f.severity = if k < r.issues.length then .issue else .warning := by
  unfold findings at hk
  split_ifs with hlt
  · rw [List.getElem?_append_left hlt] at hk
    exact h.issues f (List.mem_of_getElem? hk)
  · rw [List.getElem?_append_right (not_lt.1 hlt)] at hk
    exact h.warnings f (List.mem_of_getElem? hk)

end Result

/-! ## Agreement -/

/-- issues and warnings of a snapshot are the texts of all findings -/
theorem Result.snapshot_texts (r : Result) :
    r.snapshot.issues ++ r.snapshot.warnings = r.findings.map Finding.text := by
  rw [snapshot, findings, List.map_append]

namespace Sarif

theorem level_entry (table : List RuleEntry) (f : Finding) : (entry table f).level = level f.severity := rfl

variable {r : Result} (h : r.Audited) (toolVersion guid : String) (provenance : Option Provenance)

/-- results are the findings in order, seen through the finished table -/
theorem entries_run (r : Result) : (run r toolVersion guid provenance).entries =
    r.findings.map (entry (run r toolVersion guid provenance).rules) := (draft_inv r.findings).entries

include h

theorem noError_iff_compliant :
    (∀ x ∈ (run r toolVersion guid provenance).entries, x.level ≠ "error") ↔ r.compliant = true := by
  rw [Result.compliant, List.isEmpty_iff, entries_run]
  constructor
  · intro hno
    by_contra hne
    obtain ⟨f, issues, hf⟩ := List.exists_cons_of_ne_nil hne
    have hmem : f ∈ r.issues := hf ▸ List.mem_cons_self
    refine hno _ (List.mem_map_of_mem (List.mem_append_left _ hmem)) ?_
    rw [level_entry, h.issues f hmem]
    rfl
  · intro hnil x hx
    obtain ⟨f, hf, rfl⟩ := List.mem_map.1 hx
    rw [Result.findings, hnil, List.nil_append] at hf
    rw [level_entry, h.warnings f hf]
    decide

/-- a result has the level of the list that its text stands in, and its text can be put together from it and from the
entry that it points to -/
theorem getElem?_entries {k : Nat} {x : Entry} (hx : (run r toolVersion guid provenance).entries[k]? = some x) :
    x.level = (if k < r.snapshot.issues.length then "error" else "warning") ∧
    ∃ e, (run r toolVersion guid provenance).rules[x.ruleIndex]? = some e ∧
      (r.snapshot.issues ++ r.snapshot.warnings)[k]? =
        some ("[" ++ e.category ++ "] " ++ fileName x.uri ++ ": " ++ x.message) := by
  rw [entries_run, List.getElem?_map, Option.map_eq_some_iff] at hx
  obtain ⟨f, hf, rfl⟩ := hx
  have hmem : f ∈ r.findings := List.mem_of_getElem? hf
  constructor
  · have hlength : r.snapshot.issues.length = r.issues.length := by rw [Result.snapshot, List.length_map]
    rw [level_entry, h.severity hf, hlength]
    split_ifs <;> rfl
  · obtain ⟨e, he, hcat⟩ := (draft_inv r.findings).getElem?_category h.category hmem
    refine ⟨e, he, ?_⟩
    rw [Result.snapshot_texts, List.getElem?_map, hf, Option.map_some, hcat, fileName_uri (h.file hmem)]
    rfl

end Sarif

/-- **All reports tell one verdict.** Whenever an audit with the catalog succeeds, its JSON report is the document of the
snapshot and its SARIF report that of the run, and the last line of the text report, the member of the JSON document, the
property of the run and the results of the run agree on whether the audit passes, and so does the exit code of every
command that comes to audit this path and can write its report. The results of the SARIF run are the issues and
warnings of the JSON report one by one: errors first, as many as there are issues, and each text can be read off its
result and the rule that the result points to. -/
theorem verdicts_agree {fs : FileSystem} {root : List Char} {r : Result} (h : fs.auditPath catalog root = .ok r)
    (context : ReportContext) (provenance : Option Sarif.Provenance) :
    let run := Sarif.run r context.toolVersion context.guid provenance
    (ReportFormat.json.render r context).map Rendering.content = .ok (textBytes (r.snapshot.toJson.pretty ++ "\n")) ∧
    (context.provenance = .ok provenance → (ReportFormat.sarif.render r context).map Rendering.content =
      .ok (textBytes ((Sarif.document run).pretty ++ "\n"))) ∧
    [(ReportFormat.text.render r context).map (fun report => lastLine report.content) = .ok (textBytes "STATUS: PASS"),
      r.snapshot.toJson.member? "compliant" = some (.bool true),
      Sarif.property? (Sarif.document run) "compliant" = some (.bool true),
      ∀ x ∈ run.entries, x.level ≠ "error"].TFAE ∧
    (∀ (env : Environment) (config : Config) (c : Command) (flags : AuditFlags) (arguments : List (List Char)),
      env.files = fs → flags.target fs env.home arguments = .ok root →
      (ReportJob.deliver ⟨(settings (some config) flags).1, r, root⟩ env flags.output).error = none →
      ((env.audit config c flags arguments).exitCode = 0 ↔
        r.snapshot.toJson.member? "compliant" = some (.bool true))) ∧
    run.entries.length = (r.snapshot.issues ++ r.snapshot.warnings).length ∧
    ∀ (k : Nat) (x : Sarif.Entry), run.entries[k]? = some x →
      x.level = (if k < r.snapshot.issues.length then "error" else "warning") ∧
      ∃ e, run.rules[x.ruleIndex]? = some e ∧
        (r.snapshot.issues ++ r.snapshot.warnings)[k]? =
          some ("[" ++ e.category ++ "] " ++ fileName x.uri ++ ": " ++ x.message) := by
  intro run
  have haudited := Result.audited_of_auditPath h
  have hjson : r.snapshot.toJson.member? "compliant" = some (.bool true) ↔ r.compliant = true := by
    rw [member?_compliant, Option.some.injEq, Json.bool.injEq]
    exact Iff.rfl
  have hsarif : Sarif.property? (Sarif.document run) "compliant" = some (.bool true) ↔ r.compliant = true := by
    rw [property?_compliant, Option.some.injEq, Json.bool.injEq]
    exact Iff.rfl
  refine ⟨content_json r context, fun hprovenance => content_sarif r hprovenance, ?_, ?_, ?_,
    fun k x hx => Sarif.getElem?_entries haudited _ _ _ hx⟩
  · tfae_have 1 ↔ 2 := (lastLine_text_iff r context).trans hjson.symm
    tfae_have 3 ↔ 2 := hsarif.trans hjson.symm
    tfae_have 4 ↔ 2 := (Sarif.noError_iff_compliant haudited _ _ _).trans hjson.symm
    tfae_finish
  · intro env config c flags arguments hfiles htarget hsent
    subst hfiles
    rw [hjson]
    exact exitCode_audit htarget h hsent
  · rw [Result.snapshot_texts, List.length_map, Sarif.entries_run, List.length_map]

/-- a screen with a button that is too small -/
def screenText : List Char := "react-native width: 20".toList

def screenTree : FileSystem := ⟨.dir [("a.ts".toList, .file (Utf8.encode screenText))], []⟩

theorem issues_screenTree : (screenTree.total catalog ["a.ts".toList]).issues ≠ [] := by
  have hread : screenTree.readFile "a.ts".toList = .ok (Utf8.encode screenText) := by cbv
  have htext : Utf8.decode (Utf8.encode screenText) = screenText := by decide
  have happlies : Catalog.touchTargetSize.applies (Frameworks.detect screenText) = true := by decide +kernel
  have hfound : ∃ f ∈ Catalog.touchTargetSize.findingsAt (String.ofList "a.ts".toList) screenText,
      f.isIssue = true := by decide +kernel
  obtain ⟨f, hf, hissue⟩ := hfound
  rw [← htext] at hf happlies
  have hraised : screenTree.Raised catalog ["a.ts".toList] f :=
    ⟨_, List.mem_singleton_self _, _, hread, _, List.mem_cons_self, happlies, hf⟩
  exact List.ne_nil_of_mem (FileSystem.mem_issues_total.2 ⟨hraised, hissue⟩)

theorem verdicts_agree_screenTree :
    ∃ r, screenTree.auditPath catalog ".".toList = .ok r ∧
      (∃ x ∈ (Sarif.run r "1.0" "id" none).entries, x.level = "error") ∧
      ∀ c, (Environment.audit { files := screenTree, guid := "id" } {} c {} [".".toList]).exitCode ≠ 0 := by
  have hcollect : screenTree.collect ".".toList = .ok ["a.ts".toList] := by cbv
  have htarget : AuditFlags.target {} screenTree none [".".toList] = .ok ".".toList := by cbv
  have haudit : screenTree.auditPath catalog ".".toList = .ok (screenTree.total catalog ["a.ts".toList]) := by
    rw [FileSystem.auditPath, hcollect, Except.map, FileSystem.auditFiles_eq_total]
  obtain ⟨-, -, hverdict, hexit, -, -⟩ := verdicts_agree haudit ⟨"1.0", "id", .ok none⟩ none
  have hjson : ¬ (screenTree.total catalog ["a.ts".toList]).snapshot.toJson.member? "compliant" = some (.bool true) := by
    rw [member?_compliant]
    simpa [Result.snapshot, Result.compliant] using issues_screenTree
  refine ⟨_, haudit, ?_, fun c hzero => ?_⟩
  · have := mt (hverdict.out 3 1).1 hjson
    push Not at this
    exact this
  · exact hjson ((hexit { files := screenTree, guid := "id" } {} c {} [".".toList] rfl htarget rfl).1 hzero)

end AppAudit
