/-
What an audit adds up to.

Auditing on top of a result is merging into it what an audit from nothing gives (`auditFile_eq_merge`), because adding an
outcome appends to two lists and two counters and never looks at them. So the partial results of files, merged in order,
are the same as one result carried from file to file, and both are `FileSystem.total`: the findings of the rules that
apply, file by file and rule by rule, sorted into issues and warnings.

Main result:
- `auditPath_any_order`: an audit comes to this total for every number of workers and every order of their steps.
-/
import Mathlib.Tactic
import AppAudit.Audit.Tree
import AppAudit.Proofs.Pool

namespace AppAudit

/-! ## Adding and merging -/

namespace Result

/-- outcomes as a result of their own -/
def ofOutcomes (outcomes : List Outcome) : Result :=
  { filesChecked := 0
    issues := outcomes.flatMap fun o => o.findings.filter Finding.isIssue
    warnings := outcomes.flatMap fun o => o.findings.filter fun f => !f.isIssue
    passedCount := (outcomes.map fun o => o.passed.length).sum }

theorem foldl_add (r : Result) (outcomes : List Outcome) : outcomes.foldl add r = r.merge (ofOutcomes outcomes) := by
  induction outcomes generalizing r with
  | nil => exact (merge_empty r).symm
  | cons o outcomes ih =>
    rw [List.foldl_cons, ih]
    simp only [add, merge, ofOutcomes, List.flatMap_cons, List.map_cons, List.sum_cons, List.append_assoc,
      Int.add_assoc]

theorem foldl_merge (r : Result) (results : List Result) :
    results.foldl merge r = r.merge (results.foldl merge .empty) := by
  induction results generalizing r with
  | nil => exact (merge_empty r).symm
  | cons x results ih => rw [List.foldl_cons, List.foldl_cons, ih, ih (empty.merge x), empty_merge, merge_assoc]

/-- merges what workers have stored, in order; a place without a result changes nothing -/
def mergeStored (stored : List (Option Result)) : Result :=
  stored.foldl (fun r partial? => match partial? with | some x => r.merge x | none => r) .empty

theorem mergeStored_map_some (results : List Result) : mergeStored (results.map some) = results.foldl merge .empty := by
  unfold mergeStored
  rw [List.foldl_map]

end Result

/-! ## One file -/

/-- the rules that run on a text, in catalog order -/
def rulesFor (rules : List Rule) (content : List Char) : List Rule :=
  rules.filter fun rule => rule.applies (Frameworks.detect content)

/-- what a rule finds in the file at a path -/
def Rule.findingsAt (rule : Rule) (path : String) (content : List Char) : List Finding :=
  (rule.evaluate (fileName path) content).findings.map fun f => { f with path }

/-- what a text in scope contributes -/
def contribution (rules : List Rule) (path : String) (content : List Char) : Result :=
  { filesChecked := 1
    issues := (rulesFor rules content).flatMap fun rule => (rule.findingsAt path content).filter Finding.isIssue
    warnings := (rulesFor rules content).flatMap fun rule =>
      (rule.findingsAt path content).filter fun f => !f.isIssue
    passedCount := ((rulesFor rules content).map fun rule =>
      (rule.evaluate (fileName path) content).passed.length).sum }

theorem auditContent_eq (rules : List Rule) (path : String) (content : List Char) (r : Result) :
    auditContent rules path content r =
      if (Frameworks.detect content).inScope then r.merge (contribution rules path content) else r := by
  by_cases h : (Frameworks.detect content).inScope
  · have hfold : ∀ (l : List Rule) (r : Result), l.foldl (fun r rule => r.add (rule.outcomeAt path content)) r =
        (l.map fun rule => rule.outcomeAt path content).foldl Result.add r := by
      intro l r
      rw [List.foldl_map]
    simp only [auditContent, h, if_true, hfold, Result.foldl_add]
    simp only [Result.merge, Result.countFile, Result.ofOutcomes, contribution, List.flatMap_map, List.map_map,
      Int.add_zero]
    rfl
  · simp [auditContent, h]

/-- auditing a text on top of a result appends to it what the text gives by itself -/
theorem auditContent_eq_merge (rules : List Rule) (path : String) (content : List Char) (r : Result) :
    auditContent rules path content r = r.merge (auditContent rules path content .empty) := by
  rw [auditContent_eq, auditContent_eq rules path content .empty]
  split_ifs
  · rw [Result.empty_merge]
  · rw [Result.merge_empty]

namespace FileSystem

theorem auditFile_eq_merge (fs : FileSystem) (rules : List Rule) (path : List Char) (r : Result) :
    fs.auditFile rules path r = r.merge (fs.auditFile rules path .empty) := by
  unfold auditFile
  split
  · exact auditContent_eq_merge rules _ _ r
  · exact (Result.merge_empty r).symm

/-! ## All files -/

/-- the files among some paths that can be read and use a framework, with their texts -/
def inScope (fs : FileSystem) (paths : List (List Char)) : List (String × List Char) :=
  paths.filterMap fun path =>
    match fs.readFile path with
    | .ok bytes =>
      if (Frameworks.detect (Utf8.decode bytes)).inScope then some (String.ofList path, Utf8.decode bytes) else none
    | .error _ => none

/-- the reference: how many files are in scope, what each applicable rule finds in each of them, files in the given order
and rules in catalog order, and how many passes there are -/
def total (fs : FileSystem) (rules : List Rule) (paths : List (List Char)) : Result :=
  { filesChecked := (fs.inScope paths).length
    issues := (fs.inScope paths).flatMap fun (path, content) =>
      (rulesFor rules content).flatMap fun rule => (rule.findingsAt path content).filter Finding.isIssue
    warnings := (fs.inScope paths).flatMap fun (path, content) =>
      (rulesFor rules content).flatMap fun rule => (rule.findingsAt path content).filter fun f => !f.isIssue
    passedCount := ((fs.inScope paths).map fun (path, content) =>
      ((rulesFor rules content).map fun rule => (rule.evaluate (fileName path) content).passed.length).sum).sum }

theorem total_cons (fs : FileSystem) (rules : List Rule) (path : List Char) (paths : List (List Char)) :
    fs.total rules (path :: paths) = (fs.auditFile rules path .empty).merge (fs.total rules paths) := by
  -- the three things that can happen to a file: unreadable, out of scope, audited
  unfold auditFile
  cases hread : fs.readFile path with
  | error e =>
    have hskip : fs.inScope (path :: paths) = fs.inScope paths := by simp [inScope, hread]
    simp only [total, hskip, Result.empty_merge]
  | ok bytes =>
    simp only [auditContent_eq]
    by_cases hscope : (Frameworks.detect (Utf8.decode bytes)).inScope
    · have htake : fs.inScope (path :: paths) =
          (String.ofList path, Utf8.decode bytes) :: fs.inScope paths := by simp [inScope, hread, hscope]
      rw [if_pos hscope, Result.empty_merge]
      simp only [total, htake, Result.merge, contribution, List.flatMap_cons, List.map_cons, List.sum_cons,
        List.length_cons, Nat.cast_add, Nat.cast_one, Int.add_comm]
    · have hskip : fs.inScope (path :: paths) = fs.inScope paths := by simp [inScope, hread, hscope]
      rw [if_neg hscope, Result.empty_merge]
      simp only [total, hskip]

/-- carrying one result from file to file appends the total -/
theorem foldl_auditFile (fs : FileSystem) (rules : List Rule) (paths : List (List Char)) (r : Result) :
    paths.foldl (fun r path => fs.auditFile rules path r) r = r.merge (fs.total rules paths) := by
  induction paths generalizing r with
  | nil => exact (Result.merge_empty r).symm
  | cons path paths ih => rw [List.foldl_cons, ih, auditFile_eq_merge, total_cons, Result.merge_assoc]

/-- merging the results of single files in order gives the total -/
theorem auditFiles_eq_total (fs : FileSystem) (rules : List Rule) (paths : List (List Char)) :
    fs.auditFiles rules paths = fs.total rules paths := by
  unfold auditFiles Pool.results
  induction paths with
  | nil => rfl
  | cons path paths ih => rw [List.mapIdx_cons, List.foldl_cons, Result.foldl_merge, ih, Result.empty_merge, total_cons]

theorem auditPath_of_collect {fs : FileSystem} {rules : List Rule} {root : List Char} {paths : List (List Char)}
    (h : fs.collect root = .ok paths) : fs.auditPath rules root = .ok (fs.total rules paths) := by
  rw [auditPath, h, Except.map, auditFiles_eq_total]

/-- **The order of work is invisible.** Whenever the files under a path can be collected, the audit of the path ends with
their total. It is also what one result carried from file to file comes to. And for every number of workers and every
order of their steps, every run of the pool ends, and whenever the main loop has returned, the partial results that the
workers have stored merge to this total. -/
theorem auditPath_any_order (fs : FileSystem) (rules : List Rule) (root : List Char) (paths : List (List Char))
    (h : fs.collect root = .ok paths) :
    fs.auditPath rules root = .ok (fs.total rules paths) ∧
    paths.foldl (fun r path => fs.auditFile rules path r) .empty = fs.total rules paths ∧
    ∀ jobs : Int,
      Pool.Inevitably jobs paths (fun _ path => fs.auditFile rules path .empty) (fun s => s.main = .returned)
        (Pool.State.initial Result paths) ∧
      ∀ s, Pool.Reachable jobs paths (fun _ path => fs.auditFile rules path .empty) s → s.main = .returned →
        Result.mergeStored s.stored = fs.total rules paths := by
  refine ⟨?_, ?_, fun jobs => ⟨?_, fun s hs hm => ?_⟩⟩
  · rw [auditPath, h, Except.map, auditFiles_eq_total]
  · rw [foldl_auditFile, Result.empty_merge]
  · exact Pool.inevitably_returned jobs paths _
  · rw [Pool.stored_of_returned (Pool.reachable_inv hs) hm, Result.mergeStored_map_some]
    exact auditFiles_eq_total fs rules paths

/-- a directory with a source, a directory that is passed over and a link that leads nowhere -/
def smallTree : FileSystem :=
  ⟨.dir [("a.ts".toList, .file (Utf8.encode "import 'react-native'".toList)), ("b.js".toList, .link "gone".toList),
    ("ios".toList, .dir [("c.ts".toList, .file [])])], []⟩

theorem auditPath_any_order_smallTree :
    smallTree.collect ".".toList = .ok ["a.ts".toList, "b.js".toList] ∧
    smallTree.auditPath catalog ".".toList = .ok (smallTree.total catalog ["a.ts".toList, "b.js".toList]) := by
  have h : smallTree.collect ".".toList = .ok ["a.ts".toList, "b.js".toList] := by cbv
  exact ⟨h, (auditPath_any_order smallTree catalog _ _ h).1⟩

end FileSystem

end AppAudit
