/-
The program and its command `audit` read a line alike.

Both have flags with the same names, letters and kinds; only what help says about asking for help differs. Reading a line
never looks at what help says about a flag (`CommandLine.read_bare`), so both find the same values and arguments, or the
same fault. What comes after reading is the same function, which is told the command only to print its usage when no path
is given.

The two are compared in runs of their own, which start alike (`Environment.Alike`) but need not meet the same clock or give
workers the same turns: all that shows only in the log. Where sources come from they have to find out alike only for files
as they may be when the report is rendered; without ties between replacements of addresses that is so by itself.

Main results:
- `run_forms_agree`: with and without the word `audit` in front, a line that names no command and does not ask for help
  leads to the same exit code, the same output and the same files.
- `alike_untied`: two runs from the same files may break ties differently where there are none.
-/
import Mathlib
import AppAudit.Command.Run
import AppAudit.Proofs.Replacements

namespace AppAudit

/-! ## Flags without their texts -/

/-- the flag without what help says about it -/
def Flag.bare (f : Flag) : Flag := { f with purpose := "" }

/-- the fault with its flag bare -/
def FlagError.bare : FlagError → FlagError
  | badValue flag given cause => badValue flag.bare given cause
  | e => e

/-- a fault is told without what help says -/
theorem FlagError.text_bare (e : FlagError) : e.bare.text = e.text := by
  cases e <;> rfl

namespace Flag

theorem find?_bare (flags : List Flag) (test : Flag → Bool) (h : ∀ f, test f.bare = test f) :
    (flags.map bare).find? test = (flags.find? test).map bare := by
  have hsame : test ∘ bare = test := funext h
  rw [List.find?_map, hsame]

theorem give_bare (f : Flag) (given : List Char) (takesNext : Bool) :
    f.bare.give given takesNext = (f.give given takesNext).mapError FlagError.bare := by
  have hkind : f.bare.kind = f.kind := rfl
  unfold give
  rw [hkind]
  cases f.kind.read given <;> rfl

theorem readLong_bare (flags : List Flag) (argument : List Char) (next : Option (List Char)) :
    readLong (flags.map bare) argument next = (readLong flags argument next).mapError FlagError.bare := by
  unfold readLong
  simp only [find?_bare flags (fun f => f.name.toList == (cut '=' (argument.drop 2)).1) fun _ => rfl]
  split_ifs with hsyntax hgiven
  · rfl
  · cases flags.find? fun f => f.name.toList == (cut '=' (argument.drop 2)).1 with
    | none => rfl
    | some f => exact give_bare f _ _
  · cases flags.find? fun f => f.name.toList == (cut '=' (argument.drop 2)).1 with
    | none => rfl
    | some f =>
      have hkind : f.bare.kind = f.kind := rfl
      simp only [Option.map_some, hkind]
      cases next with
      | none => cases f.kind <;> rfl
      | some given =>
        cases f.kind with
        | switch => rfl
        | text => exact give_bare f given true
        | number => exact give_bare f given true

theorem readLetters_bare (flags : List Flag) (next : Option (List Char)) (letters : List Char) :
    readLetters (flags.map bare) next letters = (readLetters flags next letters).mapError FlagError.bare := by
  induction letters with
  | nil => rfl
  | cons c rest ih =>
    unfold readLetters
    rw [find?_bare flags (fun f => f.letter == some c) fun _ => rfl]
    split_ifs with hignored
    · rfl
    · cases flags.find? fun f => f.letter == some c with
      | none => rfl
      | some f =>
        have hkind : f.bare.kind = f.kind := rfl
        simp only [Option.map_some, hkind]
        rw [ih]
        generalize readLetters flags next rest = step
        split
        · exact give_bare f _ _
        · cases step <;> rfl
        · exact give_bare f _ _
        · cases next with
          | none => rfl
          | some given => exact give_bare f given true

theorem readStep_bare (flags : List Flag) (argument : List Char) (next : Option (List Char)) :
    readStep (flags.map bare) argument next = (readStep flags argument next).mapError FlagError.bare := by
  unfold readStep
  split_ifs
  · exact readLong_bare flags argument next
  · exact readLetters_bare flags next _

end Flag

/-- reading a line does not look at what help says about flags -/
theorem CommandLine.read_bare (flags : List Flag) (line : List (List Char)) :
    read (flags.map Flag.bare) line = (read flags line).mapError FlagError.bare := by
  fun_induction read flags line with
  | case1 => rw [read]; rfl
  | case2 rest => rw [read, if_pos rfl]; rfl
  | case3 argument rest hend hgiven e hstep =>
    rw [read, if_neg hend, if_pos hgiven, Flag.readStep_bare, hstep]
    rfl
  | case4 argument rest hend hgiven step hstep e hrest ih =>
    rw [hrest, dite_eq_ite] at ih
    rw [read, if_neg hend, if_pos hgiven, Flag.readStep_bare, hstep]
    simp only [Except.mapError, ih]
  | case5 argument rest hend hgiven step hstep line hrest ih =>
    rw [hrest, dite_eq_ite] at ih
    rw [read, if_neg hend, if_pos hgiven, Flag.readStep_bare, hstep]
    simp only [Except.mapError, ih]
  | case6 argument rest hend hgiven e hrest ih =>
    rw [read, if_neg hend, if_neg hgiven, ih, hrest]
    rfl
  | case7 argument rest hend hgiven line hrest ih =>
    rw [read, if_neg hend, if_neg hgiven, ih, hrest]
    rfl

/-! ## The two forms -/

namespace Command

theorem flags_bare : program.flags.map Flag.bare = audit.flags.map Flag.bare := by decide

/-- both forms find the same values and arguments, or faults that are told alike -/
theorem read_forms (line : List (List Char)) :
    (∃ parsed, program.read line = .ok parsed ∧ audit.read line = .ok parsed) ∨
    ∃ e e', program.read line = .error e ∧ audit.read line = .error e' ∧ e.text = e'.text := by
  change (∃ parsed, CommandLine.read program.flags line = .ok parsed ∧ CommandLine.read audit.flags line = .ok parsed) ∨
    ∃ e e', CommandLine.read program.flags line = .error e ∧ CommandLine.read audit.flags line = .error e' ∧
      e.text = e'.text
  have hsame : (CommandLine.read program.flags line).mapError FlagError.bare =
      (CommandLine.read audit.flags line).mapError FlagError.bare := by
    rw [← CommandLine.read_bare, ← CommandLine.read_bare, flags_bare]
  cases hp : CommandLine.read program.flags line with
  | ok parsed =>
    cases ha : CommandLine.read audit.flags line with
    | ok parsed' =>
      rw [hp, ha] at hsame
      cases hsame
      exact Or.inl ⟨parsed, rfl, rfl⟩
    | error e =>
      rw [hp, ha] at hsame
      cases hsame
  | error e =>
    cases ha : CommandLine.read audit.flags line with
    | ok parsed =>
      rw [hp, ha] at hsame
      cases hsame
    | error e' =>
      rw [hp, ha] at hsame
      refine Or.inr ⟨e, e', rfl, rfl, ?_⟩
      rw [← e.text_bare, ← e'.text_bare, Except.error.inj hsame]

end Command

/-! ## Runs that start alike -/

/-- files as they may be when a report is rendered: as a run found them, or with the file for the report just opened -/
inductive FileSystem.AtReport (start : FileSystem) : FileSystem → Prop where
  | untouched : AtReport start start
  | opened {folder path : List Char} {made opened : FileSystem} {target : FileSystem.Target}
      (hfolder : start.createFolder folder = .ok made) (hopen : made.openTruncated path = .ok (opened, target)) :
      AtReport start opened

/-- two runs have the same files, homes and builds, room for the same on standard output, the same identifier in reports,
and find out the same about where sources come from when they render a report. The level of the log, the clock and the
turns of workers are their own. -/
structure Environment.Alike (env env' : Environment) : Prop where
  files : env'.files = env.files
  home : env'.home = env.home
  stdout : env'.stdout = env.stdout
  guid : env'.guid = env.guid
  version : env'.build.version = env.build.version
  origins : ∀ fs, env.files.AtReport fs → ∀ target, env'.provenance fs target = env.provenance fs target

/-- two runs end alike, up to what is said on standard error -/
structure RunOutcome.Agrees (o o' : RunOutcome) : Prop where
  ending : o'.ending = o.ending
  stdout : o'.stdout = o.stdout
  files : o'.files = o.files

namespace Environment.Alike

variable {env env' : Environment}

theorem render (h : env.Alike env') (job : ReportJob) {fs : FileSystem} (hfs : env.files.AtReport fs) :
    job.render env' fs = job.render env fs := by
  unfold ReportJob.render
  rw [h.version, h.guid, h.origins fs hfs]

theorem save (h : env.Alike env') (job : ReportJob) {folder : List Char} {made : FileSystem}
    (hfolder : env.files.createFolder folder = .ok made) (path : List Char) :
    made.save path (job.render env') = made.save path (job.render env) := by
  unfold FileSystem.save
  cases hopen : made.openTruncated path with
  | error e => rfl
  | ok found =>
    obtain ⟨opened, target⟩ := found
    dsimp only
    rw [h.render job (.opened hfolder hopen)]

theorem deliver (h : env.Alike env') (job : ReportJob) (output : String) :
    (job.deliver env' output).error = (job.deliver env output).error ∧
      (job.deliver env' output).stdout = (job.deliver env output).stdout ∧
      (job.deliver env' output).files = (job.deliver env output).files := by
  unfold ReportJob.deliver
  split_ifs
  · unfold ReportJob.print
    rw [h.files, h.render job .untouched, h.stdout]
    cases job.render env env.files <;> exact ⟨rfl, rfl, rfl⟩
  · unfold ReportJob.saveUnder
    rw [h.files, h.home]
    split
    · exact ⟨rfl, rfl, rfl⟩
    · split
      · exact ⟨rfl, rfl, rfl⟩
      · rename_i hfolder
        unfold ReportJob.saveAt
        rw [h.save job hfolder]
        dsimp only
        split <;> exact ⟨rfl, rfl, rfl⟩

theorem fail (h : env.Alike env') (cause : Failure) : (env.fail cause).Agrees (env'.fail cause) := ⟨rfl, rfl, h.files⟩

theorem configuration (h : env.Alike env') (path : List Char) : env'.configuration path = env.configuration path := by
  unfold Environment.configuration
  rw [h.files]

theorem auditTarget (h : env.Alike env') (logger logger' : Logger) (format : String) (threads : Int) (output : String)
    (target : List Char) :
    (env.auditTarget logger format threads output target).Agrees
      (env'.auditTarget logger' format threads output target) := by
  unfold Environment.auditTarget
  rw [h.files]
  cases env.files.auditPath catalog target with
  | error e => exact ⟨rfl, rfl, rfl⟩
  | ok r =>
    obtain ⟨herror, hstdout, hfiles⟩ := h.deliver ⟨format, r, target⟩ output
    exact ⟨congrArg (fun error => (verdict r error).1) herror, hstdout, hfiles⟩

/-- an audit is told its command only to print the usage of it -/
theorem audit (h : env.Alike env') (c c' : Command) (config : Config) (flags : AuditFlags)
    (arguments : List (List Char)) :
    (env.audit config c flags arguments).Agrees (env'.audit config c' flags arguments) := by
  unfold Environment.audit
  rw [h.files, h.home]
  cases flags.target env.files env.home arguments with
  | error e => exact ⟨rfl, rfl, rfl⟩
  | ok target =>
    obtain ⟨hending, hstdout, hfiles⟩ := h.auditTarget (Logger.make env.logLevel (some config) "core-audit").1
      (Logger.make env'.logLevel (some config) "core-audit").1 (settings (some config) flags).1
      (settings (some config) flags).2 flags.output target
    exact ⟨hending, hstdout, hfiles⟩

theorem execute (h : env.Alike env') {line : List (List Char)}
    (hhelp : ∀ parsed, CommandLine.read Command.audit.flags line = .ok parsed → parsed.isOn "help" = false) :
    (env.execute .program line).Agrees (env'.execute .audit line) := by
  unfold Environment.execute
  rcases Command.read_forms line with ⟨parsed, hprogram, haudit⟩ | ⟨e, e', hprogram, haudit, htext⟩
  · simp only [hprogram, haudit, hhelp parsed haudit, Command.argumentFault?, h.configuration, Bool.false_eq_true,
      if_false]
    cases env.configuration (parsed.text "config") with
    | error cause => exact h.fail cause
    | ok config => exact h.audit .program .audit config parsed.auditFlags parsed.arguments
  · simp only [hprogram, haudit, htext]
    exact h.fail _

end Environment.Alike

/-- **Ties have to be broken alike only where there are some.** -/
theorem Environment.alike_untied (env : Environment) (h : ∀ fs, env.files.AtReport fs → fs.Untied)
    (tie tie' : Setting.TieBreak) :
    Environment.Alike { env with git := fun files => files.git tie } { env with git := fun files => files.git tie' } where
  files := rfl
  home := rfl
  stdout := rfl
  guid := rfl
  version := rfl
  origins fs hfs target := by
    have hgit : fs.git tie' = fs.git tie := FileSystem.git_untied (h fs hfs) tie' tie
    exact congrArg (fun git => fs.provenance target git env.cwd) hgit

end AppAudit
