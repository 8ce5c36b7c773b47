/-
The settings that reach an audit.

Empty and zero stand for "not given" in flags and in the configuration, and each of the two is checked on its own. What is
left when both have passed is a known format and a number of threads that the pool takes as it is
(`settled_of_checks`), so the report is never asked for in a format that does not exist, and its file is named for the
format that is written.

Main result:
- `settings_reach_audit`: what a checked configuration and accepted flags come to, and what the rest of a run makes of it.
-/
import Mathlib
import AppAudit.Proofs.Crew
import AppAudit.Proofs.Delivery
import AppAudit.Proofs.Invocation
import AppAudit.Proofs.Totals

namespace AppAudit

/-! ## What the checks establish -/

theorem checkThreads_eq_ok {n : Int} : checkThreads n = .ok () ↔ 1 ≤ n ∧ n ≤ maxThreads := by
  unfold checkThreads
  constructor
  · intro h
    split_ifs at h with hout
    simp only [Bool.or_eq_true, decide_eq_true_eq] at hout
    omega
  · intro h
    refine if_neg ?_
    simp only [Bool.or_eq_true, decide_eq_true_eq]
    omega

theorem checkFormat_eq_ok {name : RawText} : checkFormat name = .ok () ↔ ∃ f : ReportFormat, name.shown = f.name := by
  unfold checkFormat
  constructor
  · intro h
    split_ifs at h with hsome
    obtain ⟨f, hf⟩ := Option.isSome_iff_exists.1 hsome
    exact ⟨f, ReportFormat.ofName?_eq_some.1 hf⟩
  · rintro ⟨f, hf⟩
    rw [ReportFormat.ofName?_eq_some.2 hf]
    rfl

theorem RawText.shown_ofString (s : String) : (ofString s).shown = s := by
  unfold shown shownChars ofString ofChars
  rw [List.map_map]
  have hsame : Utf8.Letter.shown ∘ Utf8.Letter.char = id := rfl
  rw [hsame, List.map_id, String.ofList_toList]

/-- an accepted configuration names a format and a number of threads within bounds -/
theorem checkConfig_eq_ok {c : Config} (h : checkConfig (some c) = .ok ()) :
    (1 ≤ c.audit.threads ∧ c.audit.threads ≤ maxThreads) ∧ ∃ f : ReportFormat, c.audit.format.shown = f.name := by
  unfold checkConfig checkAudit at h
  dsimp only at h
  split at h
  · cases h
  · cases hthreads : checkThreads c.audit.threads with
    | error e =>
      rw [hthreads] at h
      cases h
    | ok u =>
      rw [hthreads] at h
      cases hformat : checkFormat c.audit.format with
      | error e =>
        simp only [hformat] at h
        cases h
      | ok u => exact ⟨checkThreads_eq_ok.1 hthreads, checkFormat_eq_ok.1 hformat⟩

/-- what flags in order say: asking for JSON agrees with the format, and what is given is known -/
structure AuditFlags.InOrder (flags : AuditFlags) : Prop where
  json : flags.json = true → flags.format = "" ∨ flags.format = ReportFormat.json.name
  format : flags.format = "" ∨ ∃ f : ReportFormat, flags.format = f.name
  threads : flags.threads = 0 ∨ 1 ≤ flags.threads ∧ flags.threads ≤ maxThreads

theorem AuditFlags.InOrder.of_check {flags : AuditFlags} (h : flags.check = .ok ()) : flags.InOrder := by
  unfold check at h
  by_cases hconflict : flags.json && flags.format ≠ "" && flags.format ≠ ReportFormat.json.name
  · rw [if_pos hconflict] at h
    cases h
  rw [if_neg hconflict] at h
  have hjson : flags.json = true → flags.format = "" ∨ flags.format = ReportFormat.json.name := by
    intro hon
    by_contra hnone
    rw [not_or] at hnone
    exact hconflict (by simp [hon, hnone.1, hnone.2])
  cases hformat : (if flags.format = "" then .ok () else checkFormat (.ofString flags.format)) with
  | error e =>
    rw [hformat] at h
    cases h
  | ok u =>
    simp only [hformat] at h
    refine ⟨hjson, ?_, ?_⟩
    · by_cases hempty : flags.format = ""
      · exact Or.inl hempty
      · rw [if_neg hempty] at hformat
        obtain ⟨f, hf⟩ := checkFormat_eq_ok.1 hformat
        rw [RawText.shown_ofString] at hf
        exact Or.inr ⟨f, hf⟩
    · by_cases hzero : flags.threads = 0
      · exact Or.inl hzero
      · rw [if_neg hzero] at h
        cases hthreads : checkThreads flags.threads with
        | error e =>
          rw [hthreads] at h
          cases h
        | ok u => exact Or.inr (checkThreads_eq_ok.1 hthreads)

/-- flags that come with an accepted path are in order -/
theorem AuditFlags.InOrder.of_target {flags : AuditFlags} {fs : FileSystem} {home : Option (List Char)}
    {arguments : List (List Char)} {path : List Char} (h : flags.target fs home arguments = .ok path) :
    flags.InOrder := by
  unfold target at h
  split at h
  · cases h
  · split at h
    · cases h
    · rename_i hcheck
      exact InOrder.of_check hcheck
  · cases h

/-! ## Settings -/

/-- where the settings of a run come from: the flags if they say something, otherwise the configuration, otherwise the
defaults; and they are always known ones -/
structure Settled (c : Option Config) (flags : AuditFlags) (format : String) (threads : Int) : Prop where
  format_known : format ∈ ["text", "json", "sarif"]
  threads_bounded : 1 ≤ threads ∧ threads ≤ 64
  format_of_json : flags.json = true → format = "json"
  format_of_flag : flags.format ≠ "" → format = flags.format
  format_of_config : flags.json = false → flags.format = "" → format = (c.map (·.audit.format.shown)).getD "text"
  threads_of_flag : flags.threads ≠ 0 → threads = flags.threads
  threads_of_config : flags.threads = 0 → threads = (c.map (·.audit.threads)).getD 1

/-- the extension of the files of a format -/
def ReportFormat.suffix : ReportFormat → String
  | text => "txt"
  | json => "json"
  | sarif => "sarif"

/-- what the rest of a run makes of settings: there is a report in this format, its file is named for the format, and the
pool has as many workers as are asked for -/
structure Honoured (format : String) (threads : Int) : Prop where
  report : ∃ f : ReportFormat, ReportFormat.extension format = f.suffix ∧
    ReportFormat.fileName format = "mobileaudit-report." ++ f.suffix ∧
    ∀ r context, renderReport format (some r) context = f.render r context
  supported : ∀ r context given, renderReport format r context ≠ .error (.unsupported given)
  workers : (Pool.width threads : Int) = threads
  /-- as long as values are left, the pool takes another slot exactly if fewer are in use than are asked for -/
  slots : ∀ {α β : Type} (values : List α) (call : Nat → α → β) (s : Pool.State β),
    s.main = .looping → s.next < values.length →
    ((∃ t, Pool.Step threads values call s t ∧ t.main = .acquired) ↔ (s.held : Int) < threads)

theorem ReportFormat.name_ne_empty (f : ReportFormat) : f.name ≠ "" := by
  cases f <;> decide

theorem textOr_of_ne {default text : String} (h : text ≠ "") : textOr default text = text := by
  unfold textOr
  exact if_neg fun hempty => h (String.isEmpty_iff.1 hempty)

/-- without flags, a checked configuration or the default decides -/
theorem settings_of_configuration {c : Option Config} (hc : c = none ∨ checkConfig c = .ok ()) :
    (settings c {}).1 = (c.map (·.audit.format.shown)).getD "text" ∧
      (settings c {}).2 = (c.map (·.audit.threads)).getD 1 ∧
      (∃ f : ReportFormat, (settings c {}).1 = f.name) ∧ 1 ≤ (settings c {}).2 ∧ (settings c {}).2 ≤ maxThreads := by
  cases c with
  | none => exact ⟨rfl, rfl, ⟨.text, rfl⟩, by decide⟩
  | some c =>
    obtain ⟨hthreads, f, hformat⟩ := checkConfig_eq_ok (hc.resolve_left (Option.some_ne_none c))
    have hown : (settings (some c) {}).1 = c.audit.format.shown := by
      have hne : c.audit.format.shown ≠ "" := hformat ▸ f.name_ne_empty
      exact textOr_of_ne hne
    have hcount : (settings (some c) {}).2 = c.audit.threads := by
      have hne : c.audit.threads ≠ 0 := by omega
      exact if_neg hne
    rw [hown, hcount]
    exact ⟨rfl, rfl, ⟨f, hformat⟩, hthreads⟩

theorem ReportFormat.name_mem (f : ReportFormat) : f.name ∈ ["text", "json", "sarif"] := by
  cases f <;> decide

/-- checked settings are known ones, and the flags come first -/
theorem settled_of_checks {c : Option Config} {flags : AuditFlags} (hc : c = none ∨ checkConfig c = .ok ())
    (hflags : flags.InOrder) : Settled c flags (settings c flags).1 (settings c flags).2 := by
  obtain ⟨hformat, hthreads, ⟨f, hf⟩, hbounds⟩ := settings_of_configuration hc
  have hjson (hon : flags.json = true) : (settings c flags).1 = "json" := if_pos hon
  have hgiven (hne : flags.format ≠ "") : (settings c flags).1 = flags.format := by
    by_cases hon : flags.json = true
    · rw [hjson hon, (hflags.json hon).resolve_left hne]
      rfl
    · exact (if_neg hon).trans (textOr_of_ne hne)
  have hunset (hoff : flags.json = false) (hempty : flags.format = "") : (settings c flags).1 = (settings c {}).1 := by
    unfold settings
    rw [hoff, hempty]
  have hcount (hne : flags.threads ≠ 0) : (settings c flags).2 = flags.threads := if_neg hne
  have hzero (h : flags.threads = 0) : (settings c flags).2 = (settings c {}).2 := by
    unfold settings
    rw [h]
  refine ⟨?_, ?_, hjson, hgiven, ?_, hcount, ?_⟩
  · by_cases hon : flags.json = true
    · rw [hjson hon]
      decide
    · by_cases hempty : flags.format = ""
      · rw [hunset (Bool.not_eq_true _ ▸ hon) hempty, hf]
        exact f.name_mem
      · obtain ⟨g, hg⟩ := hflags.format.resolve_left hempty
        rw [hgiven hempty, hg]
        exact g.name_mem
  · by_cases h : flags.threads = 0
    · rw [hzero h]
      exact hbounds
    · rw [hcount h]
      exact hflags.threads.resolve_left h
  · intro hoff hempty
    rw [hunset hoff hempty, hformat]
  · intro h
    rw [hzero h, hthreads]

/-- the main loop takes a slot exactly if one is left -/
theorem Pool.acquires_iff {α β : Type} {limit : Int} {values : List α} {call : Nat → α → β} {s : State β}
    (hloop : s.main = .looping) (hnext : s.next < values.length) :
    (∃ t, Step limit values call s t ∧ t.main = .acquired) ↔ s.held < width limit := by
  constructor
  · rintro ⟨t, hstep, hacquired⟩
    cases hstep with
    | acquire _ _ hleft => exact hleft
    | register hm =>
      rw [hloop] at hm
      cases hm
    | start hm =>
      rw [hloop] at hm
      cases hm
    | finish => cases hacquired
    | _ =>
      dsimp only at hacquired
      rw [hloop] at hacquired
      cases hacquired
  · intro hleft
    exact ⟨_, .acquire s hloop hnext hleft, rfl⟩

theorem honoured_of_known {format : String} {threads : Int} (hformat : format ∈ ["text", "json", "sarif"])
    (hthreads : 1 ≤ threads) : Honoured format threads := by
  have hname : ∃ f : ReportFormat, format = f.name := by
    simp only [List.mem_cons, List.not_mem_nil, or_false] at hformat
    rcases hformat with rfl | rfl | rfl
    · exact ⟨.text, rfl⟩
    · exact ⟨.json, rfl⟩
    · exact ⟨.sarif, rfl⟩
  obtain ⟨f, rfl⟩ := hname
  have hrender (r : Result) (context : ReportContext) : renderReport f.name (some r) context = f.render r context := by
    cases f <;> rfl
  have hextension : ReportFormat.extension f.name = f.suffix := by cases f <;> rfl
  have hworkers : (Pool.width threads : Int) = threads := by
    unfold Pool.width
    omega
  refine ⟨⟨f, hextension, ?_, hrender⟩, ?_, hworkers, ?_⟩
  · exact congrArg ("mobileaudit-report." ++ ·) hextension
  · intro r context given h
    cases r with
    | none => cases h
    | some r =>
      rw [hrender] at h
      cases f with
      | text => cases h
      | json => cases h
      | sarif =>
        simp only [ReportFormat.render] at h
        split at h
        · cases h
        · cases h
  · intro α β values call s hloop hnext
    rw [Pool.acquires_iff hloop hnext]
    omega

namespace Invocation

variable {env : Environment} {c : Command} {line : List (List Char)}

/-- the pool that audits the sources has come to a state, working with as many threads as the settings say -/
def Pooled (p : Invocation env c line) (s : Pool.State Result) : Prop :=
  Pool.Reachable p.threads p.sources (fun _ path => env.files.auditFile catalog path .empty) s

/-- whatever the order of its steps, the pool comes to the result that is reported -/
theorem Pooled.result {p : Invocation env c line} {s : Pool.State Result} (h : p.Pooled s) (hm : s.main = .returned) :
    Result.mergeStored s.stored = p.result := by
  rw [Pool.stored_of_returned (Pool.reachable_inv h) hm, Result.mergeStored_map_some]
  rfl

/-- no more files are audited at a time than the pool has room for -/
theorem Pooled.calling_le {p : Invocation env c line} {s : Pool.State Result} (h : p.Pooled s) :
    s.workers.count .calling ≤ Pool.width p.threads := by
  have hinv := Pool.reachable_inv h
  calc
    s.workers.count .calling ≤ Pool.weigh Pool.Phase.slots s.workers := Pool.Crew.count_calling_le s.workers
    _ ≤ Pool.weigh Pool.Phase.slots s.workers + s.main.slots := Nat.le_add_right _ _
    _ = s.held := hinv.held_eq.symm
    _ ≤ Pool.width p.threads := hinv.held_le

end Invocation

/-- **Settings are legal when they reach an audit.** For every configuration that is checked, or none, and all flags and
arguments that are accepted, the format is a known one and there are between 1 and 64 threads; flags that say something
are followed as they are, otherwise the configuration, otherwise the defaults. So a report is never asked for in an
unsupported format, its file is named for the format that is written, and the pool that audits has exactly as many workers
as the settings say, in every run of an audit that gets as far as its report. -/
theorem settings_reach_audit :
    (∀ (c : Option Config) (flags : AuditFlags) (fs : FileSystem) (home : Option (List Char))
      (arguments : List (List Char)) (target : List Char), c = none ∨ checkConfig c = .ok () →
      flags.target fs home arguments = .ok target →
      Settled c flags (settings c flags).1 (settings c flags).2 ∧
        Honoured (settings c flags).1 (settings c flags).2) ∧
    ∀ (env : Environment) (c : Command) (line : List (List Char)) (p : Invocation env c line),
      env.execute c line = p.outcome ∧ Settled (some p.config) p.parsed.auditFlags p.format p.threads ∧
        Honoured p.format p.threads ∧
        (∀ failure given, p.delivery.error = some failure → failure.rendering? ≠ some (.unsupported given)) ∧
        ∀ s, p.Pooled s →
          (s.workers.count .calling : Int) ≤ p.threads ∧ (s.main = .returned → Result.mergeStored s.stored = p.result) := by
  have hlegal (c : Option Config) (flags : AuditFlags) (hc : c = none ∨ checkConfig c = .ok ())
      (hflags : flags.InOrder) : Settled c flags (settings c flags).1 (settings c flags).2 ∧
        Honoured (settings c flags).1 (settings c flags).2 := by
    have hsettled := settled_of_checks hc hflags
    exact ⟨hsettled, honoured_of_known hsettled.format_known hsettled.threads_bounded.1⟩
  refine ⟨fun c flags fs home arguments target hc htarget => hlegal c flags hc (.of_target htarget), ?_⟩
  intro env c line p
  obtain ⟨hsettled, hhonoured⟩ :=
    hlegal (some p.config) p.parsed.auditFlags (Or.inr p.valid) (.of_target p.accepts)
  refine ⟨p.execute_eq, hsettled, hhonoured, ?_, ?_⟩
  · intro failure given herror hcause
    obtain ⟨fs, target, -, hrender⟩ := ReportJob.rendering?_deliver_iff.1 ⟨failure, herror, hcause⟩
    exact hhonoured.supported _ _ _ hrender
  · intro s hs
    have hwidth : (Pool.width p.threads : Int) = p.threads := hhonoured.workers
    refine ⟨?_, hs.result⟩
    rw [← hwidth]
    exact_mod_cast hs.calling_le

/-- eight threads and SARIF reports -/
def sarifConfig : Config :=
  { logger := { level := .ofString "info" }, audit := { threads := 8, format := .ofString "sarif" } }

/-- a directory with nothing in it -/
def emptyTree : FileSystem := ⟨.dir [], []⟩

theorem settings_reach_audit_jsonSwitch :
    checkConfig (some sarifConfig) = .ok () ∧
    AuditFlags.target { json := true } emptyTree none [".".toList] = .ok ".".toList ∧
    Settled (some sarifConfig) { json := true } "json" 8 ∧ Honoured "json" 8 ∧
    ∃ p : Invocation { files := emptyTree, guid := "id" } .program ["-fsarif".toList, ".".toList],
      p.format = "sarif" ∧ p.threads = 1 ∧ Honoured "sarif" 1 := by
  have hconfig : checkConfig (some sarifConfig) = .ok () := by cbv
  have htarget : AuditFlags.target { json := true } emptyTree none [".".toList] = .ok ".".toList := by cbv
  have hreads : CommandLine.read Command.program.flags ["-fsarif".toList, ".".toList] =
      .ok ⟨[("format", .text "sarif".toList)], [".".toList]⟩ := by
    cbv
  have hload : Config.load emptyTree [] = .ok Config.standard := by cbv
  have hvalid : checkConfig (some Config.standard) = .ok () := by cbv
  have hpath : AuditFlags.target { format := "sarif" } emptyTree none [".".toList] = .ok ".".toList := by cbv
  have hcollect : emptyTree.collect ".".toList = .ok [] := by cbv
  let p : Invocation { files := emptyTree, guid := "id" } .program ["-fsarif".toList, ".".toList] :=
    ⟨_, Config.standard, ".".toList, [], Or.inl rfl, hreads, by cbv, hload, hvalid, hpath, hcollect⟩
  obtain ⟨hsettled, hhonoured⟩ := settings_reach_audit.1 _ _ _ _ _ _ (Or.inr hconfig) htarget
  exact ⟨hconfig, htarget, hsettled, hhonoured, p, rfl, rfl, (settings_reach_audit.2 _ _ _ p).2.2.1⟩

end AppAudit
