/-
Reports without paths.

A finding shows the last name of its file and carries the path besides, which only the SARIF report writes. `pathless`
takes the paths away from a result. What is left decides the text and the JSON report (`render_of_pathless`) and all of
the SARIF run but its places (`run_of_pathless`). And what is left of the total of an audit is decided by what the rules
get to see of the files, which is their last names and their texts (`pathless_total`).
-/
import Mathlib.Tactic
import AppAudit.Proofs.Totals
import AppAudit.Report.Render

namespace AppAudit

/-! ## Taking the paths away -/

def Finding.pathless (f : Finding) : Finding := { f with path := "" }

namespace Finding

@[simp] theorem text_pathless (f : Finding) : f.pathless.text = f.text := rfl

@[simp] theorem isIssue_pathless (f : Finding) : f.pathless.isIssue = f.isIssue := rfl

end Finding

namespace Result

def pathless (r : Result) : Result :=
  { r with issues := r.issues.map Finding.pathless, warnings := r.warnings.map Finding.pathless }

variable (r : Result)

@[simp] theorem filesChecked_pathless : r.pathless.filesChecked = r.filesChecked := rfl

@[simp] theorem passedCount_pathless : r.pathless.passedCount = r.passedCount := rfl

@[simp] theorem compliant_pathless : r.pathless.compliant = r.compliant := List.isEmpty_map

@[simp] theorem findings_pathless : r.pathless.findings = r.findings.map Finding.pathless := List.map_append.symm

theorem snapshot_pathless : r.pathless.snapshot = r.snapshot := by
  have htext : Finding.text ∘ Finding.pathless = Finding.text := funext Finding.text_pathless
  rw [snapshot, compliant_pathless]
  simp only [pathless, List.map_map, htext]
  rfl

end Result

variable {r₁ r₂ : Result}

/-- the text and the JSON report never look at a path -/
theorem render_of_pathless (h : r₁.pathless = r₂.pathless) (c₁ c₂ : ReportContext) :
    ReportFormat.text.render r₁ c₁ = ReportFormat.text.render r₂ c₂ ∧
    ReportFormat.json.render r₁ c₁ = ReportFormat.json.render r₂ c₂ := by
  have hsnapshot : r₁.snapshot = r₂.snapshot := by
    rw [← r₁.snapshot_pathless, h, r₂.snapshot_pathless]
  simp only [ReportFormat.render, hsnapshot, and_self]

/-! ## The SARIF run without its places -/

namespace Sarif

def Entry.uriless (e : Entry) : Entry := { e with uri := "" }

def Run.uriless (r : Run) : Run := { r with entries := r.entries.map Entry.uriless }

theorem ruleEntry_of_pathless {f g : Finding} (h : f.pathless = g.pathless) : ruleEntry f = ruleEntry g := by
  have hsame : ∀ f : Finding, ruleEntry f.pathless = ruleEntry f := fun _ => rfl
  rw [← hsame f, h, hsame g]

theorem entry_of_pathless {f g : Finding} (h : f.pathless = g.pathless) (table : List RuleEntry) :
    (entry table f).uriless = (entry table g).uriless := by
  have hsame : ∀ f : Finding, (entry table f.pathless).uriless = (entry table f).uriless := fun _ => rfl
  rw [← hsame f, h, hsame g]

/-- runs in the making that differ at most in the places of their results -/
structure Draft.Alike (d e : Draft) : Prop where
  rules : d.rules = e.rules
  entries : d.entries.map Entry.uriless = e.entries.map Entry.uriless

theorem Draft.Alike.add {d e : Draft} (h : d.Alike e) {f g : Finding} (hfg : f.pathless = g.pathless) :
    (d.add f).Alike (e.add g) := by
  have hrules : (d.add f).rules = (e.add g).rules := by
    rw [Draft.add, Draft.add, h.rules, ruleEntry_of_pathless hfg]
  have hadd : ∀ (d : Draft) (f : Finding), (d.add f).entries.map Entry.uriless =
      d.entries.map Entry.uriless ++ [(entry (d.add f).rules f).uriless] := fun _ _ => List.map_append
  refine ⟨hrules, ?_⟩
  rw [hadd, hadd, h.entries, hrules, entry_of_pathless hfg]

theorem Draft.Alike.foldl {d e : Draft} (h : d.Alike e) {fs gs : List Finding}
    (hfg : fs.map Finding.pathless = gs.map Finding.pathless) : (fs.foldl Draft.add d).Alike (gs.foldl Draft.add e) := by
  induction fs generalizing gs d e with
  | nil =>
    rw [List.map_nil, eq_comm, List.map_eq_nil_iff] at hfg
    rw [hfg]
    exact h
  | cons f fs ih =>
    cases gs with
    | nil => simp at hfg
    | cons g gs =>
      rw [List.map_cons, List.map_cons, List.cons.injEq] at hfg
      exact ih (h.add hfg.1) hfg.2

/-- paths only show in the places of results -/
theorem run_of_pathless (h : r₁.pathless = r₂.pathless) (toolVersion guid : String) (provenance : Option Provenance) :
    (run r₁ toolVersion guid provenance).uriless = (run r₂ toolVersion guid provenance).uriless := by
  have hfindings : r₁.findings.map Finding.pathless = r₂.findings.map Finding.pathless := by
    rw [← r₁.findings_pathless, h, r₂.findings_pathless]
  have hdraft : (draft r₁.findings).Alike (draft r₂.findings) := Draft.Alike.foldl ⟨rfl, rfl⟩ hfindings
  have hcompliant : r₁.compliant = r₂.compliant := by
    rw [← r₁.compliant_pathless, h, r₂.compliant_pathless]
  have hfiles : r₁.filesChecked = r₂.filesChecked := by
    rw [← r₁.filesChecked_pathless, h, r₂.filesChecked_pathless]
  have hpassed : r₁.passedCount = r₂.passedCount := by
    rw [← r₁.passedCount_pathless, h, r₂.passedCount_pathless]
  simp only [Run.uriless, run, hdraft.rules, hdraft.entries, hcompliant, hfiles, hpassed]

end Sarif

/-! ## Audits without paths -/

/-- what the rules find in texts that are seen under their names -/
def pathlessTotal (rules : List Rule) (seen : List (String × List Char)) : Result :=
  let found (file : String) (content : List Char) : List Finding :=
    (rulesFor rules content).flatMap fun rule => (rule.evaluate file content).findings.map Finding.pathless
  { filesChecked := seen.length
    issues := seen.flatMap fun (file, content) => (found file content).filter Finding.isIssue
    warnings := seen.flatMap fun (file, content) => (found file content).filter fun f => !f.isIssue
    passedCount := (seen.map fun (file, content) =>
      ((rulesFor rules content).map fun rule => (rule.evaluate file content).passed.length).sum).sum }

/-- what the rules see of the file at a path, its last name and its text, if it can be read and uses a framework -/
def FileSystem.seenAt (fs : FileSystem) (path : List Char) : Option (String × List Char) :=
  match fs.readFile path with
  | .ok bytes =>
    if (Frameworks.detect (Utf8.decode bytes)).inScope then
      some (fileName (String.ofList path), Utf8.decode bytes)
    else none
  | .error _ => none

namespace FileSystem

variable (fs : FileSystem) (rules : List Rule) (paths : List (List Char))

theorem filterMap_seenAt :
    paths.filterMap fs.seenAt = (fs.inScope paths).map fun (path, content) => (fileName path, content) := by
  rw [inScope, List.map_filterMap]
  congr 1
  funext path
  unfold seenAt
  cases fs.readFile path with
  | error e => rfl
  | ok bytes =>
    dsimp only
    split_ifs <;> rfl

/-- **The total without its paths** is decided by what the rules see of the files. -/
theorem pathless_total : (fs.total rules paths).pathless = pathlessTotal rules (paths.filterMap fs.seenAt) := by
  have hpathless : ∀ path : String,
      Finding.pathless ∘ (fun f : Finding => { f with path }) = Finding.pathless := fun _ => rfl
  have hissue : Finding.isIssue ∘ Finding.pathless = Finding.isIssue := funext Finding.isIssue_pathless
  rw [filterMap_seenAt]
  simp only [Result.pathless, pathlessTotal, total, Rule.findingsAt, List.length_map, List.flatMap_map, List.map_flatMap,
    List.map_map, List.filter_flatMap, List.filter_map, hissue, hpathless]
  simp only [Function.comp_def, Finding.isIssue_pathless]
  rfl

end FileSystem

end AppAudit
