/-
The exit code of an audit, and what has been written when a run ends.

A run either gets as far as its report (`Invocation`) or is refused before anything has been written. From there on the
fate of the report decides (`ReportJob.fate_deliver`): a report that is not brought to its destination, be it that standard
output has no room for it, fails the run and the user is told so, and one that is there fails it without another word if
there are issues. Nothing is assumed about how directories are read as repositories.

Main result:
- `exit_status`: the exit code for every audit, with what is on standard output, on standard error and in the files.

There is a third exit code. A SARIF report states where the sources come from, and for one kind of remote address finding
that out breaks down; nothing stops the breakdown on its way, so the run ends with it (`exitCode_dashRemote`).
-/
import Mathlib
import AppAudit.Proofs.Delivery
import AppAudit.Proofs.Forms
import AppAudit.Proofs.Invocation
import AppAudit.Proofs.RepositorySearch
import AppAudit.Proofs.Verdict

namespace AppAudit

/-! ## Last words -/

/-- how a failure is announced that the user has not been told about -/
def announcement : String := "Error executing command"

/-- a failure that the user has not been told about is announced -/
theorem Ending.announced {cause : Failure} (h : cause.reported = false) :
    announcement.toList <+: (failed cause).lastWords.toList := by
  have hopening : "Error executing command: ".toList = announcement.toList ++ ": ".toList := by decide
  unfold lastWords
  dsimp only
  rw [h, if_neg Bool.false_ne_true, String.toList_append, String.toList_append, hopening, List.append_assoc,
    List.append_assoc]
  exact List.prefix_append _ _

namespace RunOutcome

variable (o : RunOutcome)

@[simp] theorem exitCode_concluded : o.concluded.exitCode = o.exitCode := rfl

@[simp] theorem stdout_concluded : o.concluded.stdout = o.stdout := rfl

@[simp] theorem stderr_concluded : o.concluded.stderr = o.stderr ++ o.ending.lastWords := rfl

@[simp] theorem files_concluded : o.concluded.files = o.files := rfl

end RunOutcome

/-- a run that was refused tells the user so on a line of its own -/
theorem RunOutcome.Refused.hasLine {o : RunOutcome} {env : Environment} (h : o.Refused env) :
    HasLine announcement o.concluded.stderr := by
  obtain ⟨cause, hending, htold⟩ := h.told
  rw [RunOutcome.stderr_concluded]
  refine hasLine_append h.stderr ?_
  rw [hending]
  exact Ending.announced htold

/-! ## Runs with a report -/

namespace Invocation

variable {env : Environment} {c : Command} {line : List (List Char)}

/-- a run that gets as far as its report ends as the report does, and with its last words -/
theorem run_eq {arguments : List (List Char)} (p : Invocation env c line)
    (hselect : Command.select arguments = (c, line)) : env.run arguments = p.outcome.concluded := by
  unfold Environment.run
  rw [hselect, ← p.execute_eq]

/-- a report that has been written ends the run by what is in it, without another word -/
theorem ending_of_delivered (p : Invocation env c line) (h : p.delivery.error = none) :
    p.outcome.exitCode = (if p.result.issues = [] then 0 else 1) ∧ p.outcome.ending.lastWords = "" := by
  unfold RunOutcome.exitCode outcome
  rw [h]
  cases hcompliant : p.result.compliant with
  | true =>
    simp only [Environment.verdict, hcompliant, if_true, if_pos (List.isEmpty_iff.1 hcompliant)]
    exact ⟨rfl, rfl⟩
  | false =>
    simp only [Environment.verdict, hcompliant, Bool.false_eq_true, if_false,
      if_neg (List.isEmpty_eq_false_iff.1 hcompliant)]
    exact ⟨rfl, rfl⟩

/-- a report that could not be written fails the run, and the user is told -/
theorem ending_of_failure (p : Invocation env c line) {failure : DeliveryError} (h : p.delivery.error = some failure)
    (hnone : failure.breakdown? = none) :
    p.outcome.exitCode = 1 ∧ announcement.toList <+: p.outcome.ending.lastWords.toList := by
  unfold RunOutcome.exitCode outcome
  rw [h]
  simp only [Environment.verdict, hnone]
  exact ⟨rfl, Ending.announced rfl⟩

theorem exitCode_of_breakdown (p : Invocation env c line) {failure : DeliveryError} {cause : Remote.Breakdown}
    (h : p.delivery.error = some failure) (hcause : failure.breakdown? = some cause) : p.outcome.exitCode = 2 := by
  unfold RunOutcome.exitCode outcome
  rw [h]
  simp only [Environment.verdict, hcause]
  rfl

theorem exitCode_eq_zero_iff (p : Invocation env c line) :
    p.outcome.exitCode = 0 ↔ p.delivery.error = none ∧ p.result.issues = [] := by
  cases herror : p.delivery.error with
  | none =>
    rw [(p.ending_of_delivered herror).1]
    split_ifs with hissues
    · exact ⟨fun _ => ⟨rfl, hissues⟩, fun _ => rfl⟩
    · exact ⟨fun h => absurd h (by decide), fun h => absurd h.2 hissues⟩
  | some failure =>
    refine ⟨fun hcode => ?_, fun h => absurd h.1 (Option.some_ne_none _)⟩
    cases hcause : failure.breakdown? with
    | none =>
      rw [(p.ending_of_failure herror hcause).1] at hcode
      exact absurd hcode (by decide)
    | some cause =>
      rw [p.exitCode_of_breakdown herror hcause] at hcode
      exact absurd hcode (by decide)

theorem exitCode_eq_two_iff (p : Invocation env c line) :
    p.outcome.exitCode = 2 ↔ ∃ cause, p.job.BreaksDown env p.output cause := by
  constructor
  · intro hcode
    cases herror : p.delivery.error with
    | none =>
      rw [(p.ending_of_delivered herror).1] at hcode
      split_ifs at hcode
      · exact absurd hcode (by decide)
      · exact absurd hcode (by decide)
    | some failure =>
      cases hcause : failure.breakdown? with
      | none =>
        rw [(p.ending_of_failure herror hcause).1] at hcode
        exact absurd hcode (by decide)
      | some cause => exact ⟨cause, ReportJob.breakdown?_deliver_iff.1 ⟨failure, herror, hcause⟩⟩
  · rintro ⟨cause, hbreaks⟩
    obtain ⟨failure, herror, hcause⟩ := ReportJob.breakdown?_deliver_iff.2 hbreaks
    exact p.exitCode_of_breakdown herror hcause

/-- a report for standard output is written exactly if it can be rendered and there is room for it -/
theorem printed_iff (p : Invocation env c line) (h : p.output = "") :
    p.delivery.error = none ↔ ∃ r, p.job.render env env.files = .ok r ∧ env.stdout.Fits r.content := by
  unfold delivery
  rw [ReportJob.deliver_of_empty h]
  exact ReportJob.error_print_iff

/-- a report that was not written without breaking down fails the run with exit code 1, and the user is told -/
theorem announced_of_undelivered (p : Invocation env c line) (h : p.delivery.error ≠ none)
    (hcode : p.outcome.exitCode ≠ 2) :
    p.outcome.exitCode = 1 ∧ announcement.toList <+: p.outcome.ending.lastWords.toList := by
  obtain ⟨failure, herror⟩ := Option.ne_none_iff_exists'.1 h
  cases hcause : failure.breakdown? with
  | none => exact p.ending_of_failure herror hcause
  | some cause => exact absurd (p.exitCode_of_breakdown herror hcause) hcode

theorem exitCode_cases (p : Invocation env c line) :
    p.outcome.exitCode = 0 ∨ p.outcome.exitCode = 1 ∨ p.outcome.exitCode = 2 := by
  by_cases h : p.delivery.error = none
  · rw [(p.ending_of_delivered h).1]
    split_ifs
    · exact Or.inl rfl
    · exact Or.inr (Or.inl rfl)
  · by_cases hcode : p.outcome.exitCode = 2
    · exact Or.inr (Or.inr hcode)
    · exact Or.inr (Or.inl (p.announced_of_undelivered h hcode).1)

/-- with a path to write the report to, standard output stays empty -/
theorem stdout_of_output (p : Invocation env c line) (h : p.parsed.text "output" ≠ []) : p.outcome.stdout = [] := by
  rw [p.stdout_outcome]
  refine ReportJob.stdout_deliver_of_ne fun hempty => h ?_
  rw [← @String.toList_ofList (p.parsed.text "output")]
  exact String.toList_eq_nil_iff.2 hempty

/-- nothing in the log can be taken for an announcement -/
theorem not_hasLine_log (p : Invocation env c line) : ¬HasLine announcement p.log := by
  have hopening : announcement.toList = 'E' :: "rror executing command".toList := by decide
  exact p.ruled_log.not_hasLine hopening (by decide)

/-- a report that has been written leaves nothing to announce -/
theorem not_hasLine_of_delivered (p : Invocation env c line) (h : p.delivery.error = none) :
    ¬HasLine announcement p.outcome.concluded.stderr := by
  rw [RunOutcome.stderr_concluded, (p.ending_of_delivered h).2, String.append_empty, p.stderr_outcome]
  exact p.not_hasLine_log

/-- a line leads to one outcome -/
theorem outcome_eq (p q : Invocation env c line) : p.outcome = q.outcome := by
  rw [← p.execute_eq, q.execute_eq]

end Invocation

/-! ## How an audit ends -/

/-- how the run of an audit ends, and what has been written then -/
structure AuditEnding (env : Environment) (c : Command) (line : List (List Char)) (o : RunOutcome) : Prop where
  /-- the exit code is 0 exactly if every step succeeds, the report is written and there is no issue -/
  zero_iff : o.exitCode = 0 ↔ ∃ p : Invocation env c line, p.delivery.error = none ∧ p.result.issues = []
  /-- it is 2 exactly if the report breaks down where it looks up the origin of the sources -/
  two_iff : o.exitCode = 2 ↔
    ∃ (p : Invocation env c line) (cause : Remote.Breakdown), p.job.BreaksDown env p.output cause
  exitCode : o.exitCode = 0 ∨ o.exitCode = 1 ∨ o.exitCode = 2
  /-- a report that has been written is there as a whole, and no failure is announced, also if there are issues -/
  delivered : ∀ p : Invocation env c line, p.delivery.error = none →
    p.job.Complete env p.output o.stdout o.files ∧ ¬HasLine announcement o.stderr ∧
      (p.result.issues ≠ [] → o.exitCode = 1)
  /-- a report for standard output is written exactly if it can be rendered and there is room for all of it -/
  printed : ∀ p : Invocation env c line, p.output = "" →
    (p.delivery.error = none ↔ ∃ r, p.job.render env env.files = .ok r ∧ env.stdout.Fits r.content)
  /-- a report that could not be written is a failure that is announced, unless it breaks down -/
  undelivered : ∀ p : Invocation env c line, p.delivery.error ≠ none → o.exitCode ≠ 2 →
    o.exitCode = 1 ∧ HasLine announcement o.stderr
  /-- a failure before the report is announced as well, and nothing has been written then -/
  refused : IsEmpty (Invocation env c line) →
    o.exitCode = 1 ∧ o.stdout = [] ∧ o.files = env.files ∧ HasLine announcement o.stderr
  /-- with a path to write the report to, standard output stays empty -/
  stdout : ∀ parsed, CommandLine.read c.flags line = .ok parsed → parsed.text "output" ≠ [] → o.stdout = []

variable {env : Environment} {c : Command} {line : List (List Char)}

/-- a run that gets as far as its report -/
theorem Invocation.auditEnding (q : Invocation env c line) : AuditEnding env c line q.outcome.concluded where
  zero_iff := by
    constructor
    · intro h
      rw [RunOutcome.exitCode_concluded] at h
      exact ⟨q, q.exitCode_eq_zero_iff.1 h⟩
    · rintro ⟨p, hp⟩
      rw [q.outcome_eq p, RunOutcome.exitCode_concluded]
      exact p.exitCode_eq_zero_iff.2 hp
  two_iff := by
    constructor
    · intro h
      rw [RunOutcome.exitCode_concluded] at h
      exact ⟨q, q.exitCode_eq_two_iff.1 h⟩
    · rintro ⟨p, hp⟩
      rw [q.outcome_eq p, RunOutcome.exitCode_concluded]
      exact p.exitCode_eq_two_iff.2 hp
  exitCode := by
    rw [RunOutcome.exitCode_concluded]
    exact q.exitCode_cases
  delivered := by
    intro p h
    have hquiet := p.not_hasLine_of_delivered h
    rw [q.outcome_eq p, RunOutcome.exitCode_concluded, (p.ending_of_delivered h).1, RunOutcome.stdout_concluded,
      RunOutcome.files_concluded, p.stdout_outcome, p.files_outcome]
    exact ⟨ReportJob.complete_of_deliver h, hquiet, fun hissues => if_neg hissues⟩
  printed := fun p h => p.printed_iff h
  undelivered := by
    intro p h hcode
    rw [q.outcome_eq p, RunOutcome.exitCode_concluded] at hcode ⊢
    rw [RunOutcome.stderr_concluded, p.stderr_outcome]
    obtain ⟨hone, htold⟩ := p.announced_of_undelivered h hcode
    exact ⟨hone, hasLine_append p.ruled_log.endsLine htold⟩
  refused := fun h => (h.false q).elim
  stdout := by
    intro parsed hread hne
    have hsame := q.reads
    rw [hread] at hsame
    cases hsame
    rw [RunOutcome.stdout_concluded]
    exact q.stdout_of_output hne

/-- a run that fails before -/
theorem RunOutcome.Refused.auditEnding {o : RunOutcome} (h : o.Refused env) (hnone : IsEmpty (Invocation env c line)) :
    AuditEnding env c line o.concluded where
  zero_iff := by
    rw [RunOutcome.exitCode_concluded, h.exitCode]
    exact ⟨fun hcode => absurd hcode (by decide), fun ⟨p, _⟩ => (hnone.false p).elim⟩
  two_iff := by
    rw [RunOutcome.exitCode_concluded, h.exitCode]
    exact ⟨fun hcode => absurd hcode (by decide), fun ⟨p, _⟩ => (hnone.false p).elim⟩
  exitCode := Or.inr (Or.inl h.exitCode)
  delivered := fun p => (hnone.false p).elim
  printed := fun p => (hnone.false p).elim
  undelivered := fun p => (hnone.false p).elim
  refused := fun _ => ⟨h.exitCode, h.stdout, h.files, h.hasLine⟩
  stdout := fun _ _ _ => h.stdout

/-- **The exit code of an audit.** Whatever the files, the configuration and the line are, as long as it does not ask for
help, whatever standard output takes and however repositories are read, a run ends as `AuditEnding` says: with 0 exactly
if the line is read, the configuration is loaded and valid, flags and path are accepted, the sources are collected, the
report is written and there is no issue; with 2 exactly if the report breaks down where it looks up the origin of the
sources; and with 1 otherwise. A report that is written without an error stands at its destination as a whole before the
run ends, silently if there are issues. A run that fails earlier has written nothing and announces its failure. -/
theorem exit_status (env : Environment) {arguments rest : List (List Char)} {c : Command}
    (hselect : Command.select arguments = (c, rest)) (haudits : c.Audits)
    (hhelp : ∀ parsed, CommandLine.read c.flags rest = .ok parsed → parsed.isOn "help" = false) :
    AuditEnding env c rest (env.run arguments) := by
  by_cases hp : Nonempty (Invocation env c rest)
  · obtain ⟨q⟩ := hp
    rw [q.run_eq hselect]
    exact q.auditEnding
  · rw [not_nonempty_iff] at hp
    unfold Environment.run
    rw [hselect]
    exact (env.execute_of_isEmpty haudits hhelp hp).auditEnding hp

/-- the audit of a screen with an issue -/
def screenInvocation : Invocation { files := screenTree, guid := "id" } .audit ["--json".toList, ".".toList] where
  parsed := ⟨[("json", .switch true)], [".".toList]⟩
  config := Config.standard
  target := ".".toList
  sources := ["a.ts".toList]
  audits := Or.inr rfl
  reads := by cbv
  noHelp := by cbv
  loads := by cbv
  valid := by cbv
  accepts := by cbv
  collects := by cbv

theorem issues_screenInvocation : screenInvocation.result.issues ≠ [] := by
  unfold Invocation.result screenInvocation
  rw [FileSystem.auditFiles_eq_total]
  exact issues_screenTree

theorem exit_status_screenTree :
    let o := Environment.run { files := screenTree, guid := "id" } ["audit".toList, "--json".toList, ".".toList]
    o.exitCode = 1 ∧ ¬HasLine announcement o.stderr ∧
      screenInvocation.job.Complete { files := screenTree, guid := "id" } screenInvocation.output o.stdout o.files := by
  intro o
  have hselect : Command.select ["audit".toList, "--json".toList, ".".toList] =
      (.audit, ["--json".toList, ".".toList]) := by
    decide
  have hhelp : ∀ parsed, CommandLine.read Command.audit.flags ["--json".toList, ".".toList] = .ok parsed →
      parsed.isOn "help" = false := by
    intro parsed h
    rw [screenInvocation.reads] at h
    cases h
    exact screenInvocation.noHelp
  have hdelivered : screenInvocation.delivery.error = none := by
    have hformat : screenInvocation.format = ReportFormat.json.name := rfl
    have houtput : screenInvocation.output = "" := rfl
    unfold Invocation.delivery
    rw [ReportJob.deliver_of_empty houtput]
    exact ReportJob.error_print hformat (by decide) rfl
  have hending := exit_status { files := screenTree, guid := "id" } hselect (Or.inr rfl) hhelp
  obtain ⟨hcomplete, hquiet, hfails⟩ := hending.delivered screenInvocation hdelivered
  exact ⟨hfails issues_screenInvocation, hquiet, hcomplete⟩

/-! ## A breakdown -/

/-- an origin whose address has no project in it -/
def dashOrigin : String := "[remote \"origin\"]\n\turl = https://gitlab.com/-/app\n"

/-- a repository with such an origin and no sources -/
def dashTree : FileSystem :=
  ⟨.dir
    [(".git".toList, .dir
      [("HEAD".toList, .file (textBytes "ref: refs/heads/main\n")), ("config".toList, .file (textBytes dashOrigin))])],
   []⟩

def dashEnvironment : Environment := { files := dashTree, guid := "id" }

/-- where the address of the origin breaks the look-up down, so does the whole look-up -/
theorem FileSystem.provenance_of_breakdown {fs : FileSystem} {git : Git} {cwd : RootedPath}
    {target root address : List Char} {cause : Remote.Breakdown} (htarget : target.isEmpty = false)
    (hroot : climb? git.opens (fs.searchStart (Path.abs cwd.text target)) = some root)
    (horigin : git.origin? root = some address) (hpage : Remote.webUrl address = .error cause) :
    fs.provenance target git cwd = .error cause := by
  have hmetadata (path : List Char) : git.metadataAt root path = .error (.remote cause) := by
    unfold Git.metadataAt
    dsimp only
    rw [horigin]
    dsimp only
    rw [hpage]
  unfold provenance metadata
  rw [htarget, if_neg Bool.false_ne_true]
  dsimp only
  rw [hroot]
  dsimp only
  rw [hmetadata]

theorem provenance_dashTree : dashTree.provenance ".".toList = .error ⟨⟩ := by
  have hroot : climb? dashTree.git.opens (dashTree.searchStart (Path.abs dashTree.cwdPath.text ".".toList)) =
      some ['/'] := by
    cbv
  have hgitDir : dashTree.gitDir? ['/'] = some "/.git".toList := by cbv
  have hread : dashTree.readFile (Path.join ["/.git".toList, "config".toList]) =
      .ok (textBytes dashOrigin) := by
    cbv
  have haddress : (Setting.read? (textBytes dashOrigin)).bind (Setting.origin? .first) =
      some "https://gitlab.com/-/app".toList := by
    decide +kernel
  have horigin : dashTree.git.origin? ['/'] = some "https://gitlab.com/-/app".toList :=
    FileSystem.origin?_git hgitDir hread haddress
  have hpage : Remote.webUrl "https://gitlab.com/-/app".toList = .error ⟨⟩ := by cbv
  exact FileSystem.provenance_of_breakdown rfl hroot horigin hpage

/-- the audit that is to say where the sources come from -/
def dashInvocation : Invocation dashEnvironment .program ["--format".toList, "sarif".toList, ".".toList] where
  parsed := ⟨[("format", .text "sarif".toList)], [".".toList]⟩
  config := Config.standard
  target := ".".toList
  sources := []
  audits := Or.inl rfl
  reads := by cbv
  noHelp := by cbv
  loads := by cbv
  valid := by cbv
  accepts := by cbv
  collects := by cbv

/-- **A third exit code.** An audit without any issue ends with exit code 2 if its SARIF report cannot find out where the
sources come from. -/
theorem exitCode_dashRemote : (dashEnvironment.run ["--format".toList, "sarif".toList, ".".toList]).exitCode = 2 := by
  have hformat : dashInvocation.format = ReportFormat.sarif.name := rfl
  have houtput : dashInvocation.output = "" := rfl
  have hprovenance : dashEnvironment.provenance dashEnvironment.files dashInvocation.target = .error ⟨⟩ :=
    provenance_dashTree
  have hbreaks : dashInvocation.job.BreaksDown dashEnvironment dashInvocation.output ⟨⟩ :=
    ⟨hformat, dashEnvironment.files, none, .stdout houtput, hprovenance⟩
  rw [dashInvocation.run_eq (by decide), RunOutcome.exitCode_concluded]
  exact dashInvocation.exitCode_eq_two_iff.2 ⟨_, hbreaks⟩

end AppAudit
