/-
What becomes of a report.

Before a report is rendered its destination is fixed: standard output, or a file that has been opened and emptied
(`ReportJob.Destination`). Either rendering fails there, or every byte of the rendering arrives, or the delivery fails for
a reason of its own; standard output may have no room as well as a disk (`Outlet.take_eq_none_iff`). A buffer in front of a
file changes how bytes are grouped into writes but loses none of them (`Buffer.flatten_pushAll`).

Main facts:
- `ReportJob.complete_of_deliver`: a delivery without an error has brought the whole report to its destination;
- `ReportJob.rendering?_deliver_iff`: the errors of rendering are exactly those that are met at the destination.
-/
import Mathlib.Tactic
import AppAudit.Command.Audit

namespace AppAudit

/-! ## The buffer -/

namespace Buffer

/-- what goes on and what is kept back is what was there and what was pushed -/
theorem flatten_push (kept chunk : Bytes) : (push kept chunk).1.flatten ++ (push kept chunk).2 = kept ++ chunk := by
  unfold push
  dsimp only
  split_ifs with hfits hempty hrest
  · exact List.nil_append _
  · rw [List.isEmpty_iff.1 hempty, List.flatten_singleton, List.append_nil, List.nil_append]
  · rw [List.flatten_singleton, List.append_assoc, List.take_append_drop]
  · simp only [List.flatten_cons, List.flatten_nil, List.append_nil, List.append_assoc, List.take_append_drop]

theorem pushAll_concat (chunks : List Bytes) (chunk : Bytes) :
    pushAll (chunks ++ [chunk]) =
      ((pushAll chunks).1 ++ (push (pushAll chunks).2 chunk).1, (push (pushAll chunks).2 chunk).2) := by
  unfold pushAll
  rw [List.foldl_append]
  rfl

/-- a buffer groups bytes into writes and loses none of them -/
theorem flatten_pushAll (chunks : List Bytes) :
    (pushAll chunks).1.flatten ++ (pushAll chunks).2 = chunks.flatten := by
  induction chunks using List.reverseRecOn with
  | nil => rfl
  | append_singleton chunks chunk ih =>
    rw [pushAll_concat, List.flatten_append, List.append_assoc, flatten_push, ← List.append_assoc, ih,
      List.flatten_append, List.flatten_singleton]

theorem flatten_flush (kept : Bytes) : (flush kept).flatten = kept := by
  unfold flush
  split_ifs with h
  · exact (List.isEmpty_iff.1 h).symm
  · exact List.flatten_singleton

end Buffer

/-- a buffered delivery that reports no failure has written everything -/
theorem Rendering.flatten_deliverBuffered {r : Rendering} {accepts : Nat} {failure : String}
    (h : (r.deliverBuffered accepts failure).2 = none) :
    (r.deliverBuffered accepts failure).1.flatten = r.content := by
  unfold deliverBuffered at h ⊢
  dsimp only at h ⊢
  split_ifs at h ⊢ with hsent hfailure hall
  · rw [show r.failure = none from h] at hfailure
    cases hfailure
  · rw [List.flatten_append, Buffer.flatten_flush, Buffer.flatten_pushAll]
    rfl

/-! ## Standard output -/

namespace Outlet

variable {o : Outlet} {bytes : Bytes}

/-- whether there is room for some bytes -/
def Fits (o : Outlet) (bytes : Bytes) : Prop := ∀ room, o.room = some room → bytes.length ≤ room

theorem fits_of_unlimited (h : o.room = none) : o.Fits bytes := by
  intro room hroom
  rw [h] at hroom
  cases hroom

/-- what there is room for is taken as a whole -/
theorem take_of_fits (h : o.Fits bytes) : o.take bytes = (bytes, none) := by
  unfold take
  cases hroom : o.room with
  | none => rfl
  | some room => simp only [List.take_of_length_le (h room hroom), if_neg (not_lt.2 (h room hroom))]

/-- of anything else there is a beginning, and a failure -/
theorem take_of_not_fits (h : ¬o.Fits bytes) :
    (o.take bytes).2 = some o.failure ∧ (o.take bytes).1 <+: bytes ∧ (o.take bytes).1 ≠ bytes := by
  unfold Fits at h
  push Not at h
  obtain ⟨room, hroom, hcut⟩ := h
  unfold take
  simp only [hroom, if_pos hcut, true_and]
  refine ⟨List.take_prefix _ _, fun hall => ?_⟩
  have hlength := congrArg List.length hall
  rw [List.length_take] at hlength
  omega

theorem take_eq_none_iff : (o.take bytes).2 = none ↔ o.Fits bytes := by
  refine ⟨fun h => ?_, fun h => by rw [take_of_fits h]⟩
  by_contra hfits
  rw [(take_of_not_fits hfits).1] at h
  cases h

end Outlet

/-! ## Destinations -/

namespace ReportJob

/-- where a report goes: the files as they are when it is rendered, and the file that is open for it, if it is not
standard output -/
inductive Destination (job : ReportJob) (env : Environment) (output : String) :
    FileSystem → Option FileSystem.Target → Prop where
  | stdout : output = "" → Destination job env output env.files none
  | file {place : OutputPlace} {folder opened : FileSystem} {target : FileSystem.Target} : output ≠ "" →
      env.files.outputPlace env.home output.toList (ReportFormat.fileName job.format).toList = .ok place →
      env.files.createFolder place.folder = .ok folder →
      folder.openTruncated place.file = .ok (opened, target) →
      Destination job env output opened (some target)

/-- the whole report is at its destination, and nothing else has been written -/
def Complete (job : ReportJob) (env : Environment) (output : String) (stdout : Bytes) (files : FileSystem) : Prop :=
  ∃ fs target r, job.Destination env output fs target ∧ job.render env fs = .ok r ∧
    match target with
    | none => stdout = r.content ∧ files = fs
    | some target => stdout = [] ∧ files = fs.store target r.content

/-- the origin of the sources cannot be looked up when the report is rendered -/
def BreaksDown (job : ReportJob) (env : Environment) (output : String) (cause : Remote.Breakdown) : Prop :=
  job.format = ReportFormat.sarif.name ∧
    ∃ fs target, job.Destination env output fs target ∧ env.provenance fs job.target = .error cause

end ReportJob

/-! ## Rendering -/

theorem ReportFormat.ofName?_eq_some {s : String} {f : ReportFormat} : ofName? s = some f ↔ s = f.name := by
  constructor
  · intro h
    unfold ofName? at h
    have hname := List.find?_some h
    exact (beq_iff_eq.1 hname).symm
  · rintro rfl
    cases f <;> decide

namespace ReportJob

variable {job : ReportJob} {env : Environment} {output : String}

/-- the report in the format with a name is that of the format -/
theorem render_of_format {f : ReportFormat} (h : job.format = f.name) (fs : FileSystem) :
    job.render env fs = f.render job.result
      { toolVersion := env.build.version, guid := env.guid, provenance := env.provenance fs job.target } := by
  unfold render renderReport
  rw [h]
  cases f <;> rfl

/-- only the report that states the origin of the sources can break down, and only if that cannot be looked up -/
theorem render_brokenDown_iff {fs : FileSystem} {cause : Remote.Breakdown} :
    job.render env fs = .error (.brokenDown cause) ↔
      job.format = ReportFormat.sarif.name ∧ env.provenance fs job.target = .error cause := by
  constructor
  · intro h
    unfold render renderReport at h
    dsimp only at h
    split at h
    · rename_i f hf
      cases f with
      | text => cases h
      | json => cases h
      | sarif =>
        have hformat : job.format = ReportFormat.sarif.name := by
          split_ifs at hf
          · cases hf
          · exact ReportFormat.ofName?_eq_some.1 hf
        refine ⟨hformat, ?_⟩
        unfold ReportFormat.render at h
        dsimp only at h
        split at h
        · rename_i cause' hcause
          cases h
          exact hcause
        · cases h
    · cases h
  · rintro ⟨hformat, hprovenance⟩
    rw [render_of_format hformat, ReportFormat.render]
    simp only [hprovenance]

end ReportJob

/-- the error of rendering behind a failed delivery, if that is the reason -/
def DeliveryError.rendering? : DeliveryError → Option ReportError
  | report cause => some cause
  | save (.render cause) => some cause
  | _ => none

theorem DeliveryError.breakdown?_eq_some {e : DeliveryError} {cause : Remote.Breakdown} :
    e.breakdown? = some cause ↔ e.rendering? = some (.brokenDown cause) := by
  cases e with
  | report e => cases e <;> simp [breakdown?, rendering?]
  | place e => simp [breakdown?, rendering?]
  | folder e => simp [breakdown?, rendering?]
  | save e =>
    cases e with
    | create e => simp [breakdown?, rendering?]
    | render e => cases e <;> simp [breakdown?, rendering?]
    | write reason => simp [breakdown?, rendering?]
  | print reason => simp [breakdown?, rendering?]

/-! ## Delivering -/

namespace ReportJob

variable {job : ReportJob} {env : Environment} {output : String}

theorem deliver_of_empty (h : output = "") : job.deliver env output = job.print env := by
  unfold deliver
  rw [h]
  rfl

theorem deliver_of_ne (h : output ≠ "") : job.deliver env output = job.saveUnder env output.toList := by
  unfold deliver
  exact if_neg fun hempty => h (String.isEmpty_iff.1 hempty)

/-- a file that is open for the report gets all of it, or there is an error -/
theorem saveAt_cases (job : ReportJob) (env : Environment) {fs opened : FileSystem} {path : List Char}
    {target : FileSystem.Target}
    (h : fs.openTruncated path = .ok (opened, target)) :
    (∃ e, job.render env opened = .error e ∧ (job.saveAt env fs path).error = some (.save (.render e))) ∨
    ∃ r, job.render env opened = .ok r ∧
      ((∃ reason, (job.saveAt env fs path).error = some (.save (.write reason))) ∨
        (job.saveAt env fs path).error = none ∧ (job.saveAt env fs path).files = opened.store target r.content) := by
  unfold saveAt FileSystem.save
  simp only [h]
  cases hrender : job.render env opened with
  | error e => exact Or.inl ⟨e, rfl, rfl⟩
  | ok r =>
    refine Or.inr ⟨r, rfl, ?_⟩
    unfold FileSystem.fill
    dsimp only
    cases hwritten : (r.deliverBuffered (target.accepts (Buffer.writes r.chunks).length)
        (FileError.text ⟨"write", path, .noSpace⟩)).2 with
    | some reason => exact Or.inl ⟨reason, rfl⟩
    | none => exact Or.inr ⟨rfl, congrArg (opened.store target) (Rendering.flatten_deliverBuffered hwritten)⟩

theorem stdout_saveUnder (job : ReportJob) (env : Environment) (path : List Char) :
    (job.saveUnder env path).stdout = [] := by
  unfold saveUnder
  split
  · rfl
  · split
    · rfl
    · unfold saveAt
      dsimp only
      split <;> rfl

/-- a report that is to be saved leaves standard output alone -/
theorem stdout_deliver_of_ne (h : output ≠ "") : (job.deliver env output).stdout = [] := by
  rw [deliver_of_ne h]
  exact job.stdout_saveUnder env _

/-- what a destination other than standard output takes -/
theorem Destination.of_ne {fs : FileSystem} {target : Option FileSystem.Target} (hne : output ≠ "")
    (h : job.Destination env output fs target) :
    ∃ place folder opened,
      env.files.outputPlace env.home output.toList (ReportFormat.fileName job.format).toList = .ok place ∧
      env.files.createFolder place.folder = .ok folder ∧ folder.openTruncated place.file = .ok (fs, opened) ∧
      target = some opened := by
  cases h with
  | stdout hempty => exact absurd hempty hne
  | file _ hplace hfolder hopen => exact ⟨_, _, _, hplace, hfolder, hopen, rfl⟩

/-- a report has one destination -/
theorem Destination.unique {fs fs' : FileSystem} {target target' : Option FileSystem.Target}
    (h : job.Destination env output fs target) (h' : job.Destination env output fs' target') :
    fs = fs' ∧ target = target' := by
  cases h with
  | stdout hempty =>
    cases h' with
    | stdout _ => exact ⟨rfl, rfl⟩
    | file hne => exact absurd hempty hne
  | file hne hplace hfolder hopen =>
    obtain ⟨place', folder', opened', hplace', hfolder', hopen', rfl⟩ := h'.of_ne hne
    rw [hplace] at hplace'
    cases hplace'
    rw [hfolder] at hfolder'
    cases hfolder'
    rw [hopen] at hopen'
    cases hopen'
    exact ⟨rfl, rfl⟩

/-- what can become of a report -/
inductive Fate (job : ReportJob) (env : Environment) (output : String) (d : Delivery) : Prop where
  /-- it cannot be rendered at its destination -/
  | unrendered {e : ReportError} {failure : DeliveryError} {fs : FileSystem} {target : Option FileSystem.Target} :
      d.error = some failure → failure.rendering? = some e → job.Destination env output fs target →
      job.render env fs = .error e → Fate job env output d
  /-- it could be rendered, but cannot be brought to its destination -/
  | undelivered {failure : DeliveryError} : d.error = some failure → failure.rendering? = none →
      (∀ fs target, job.Destination env output fs target → ∃ r, job.render env fs = .ok r) → Fate job env output d
  | delivered : d.error = none → job.Complete env output d.stdout d.files → Fate job env output d

/-- printing a report that can be rendered comes down to the room on standard output -/
theorem print_of_render {r : Rendering} (h : job.render env env.files = .ok r) :
    (job.print env).stdout = (env.stdout.take r.content).1 ∧ (job.print env).files = env.files ∧
      ((job.print env).error = none ↔ env.stdout.Fits r.content) ∧
      ∀ failure, (job.print env).error = some failure → failure.rendering? = none := by
  unfold print
  simp only [h, Option.map_eq_none_iff, Outlet.take_eq_none_iff, true_and]
  intro failure hfailure
  obtain ⟨reason, -, rfl⟩ := Option.map_eq_some_iff.1 hfailure
  rfl

/-- a report is printed without an error exactly if it can be rendered and there is room for it -/
theorem error_print_iff :
    (job.print env).error = none ↔ ∃ r, job.render env env.files = .ok r ∧ env.stdout.Fits r.content := by
  cases hrender : job.render env env.files with
  | ok r =>
    rw [(print_of_render hrender).2.2.1]
    exact ⟨fun hfits => ⟨r, rfl, hfits⟩, fun ⟨_, h, hfits⟩ => Except.ok.inj h ▸ hfits⟩
  | error e =>
    unfold print
    simp only [hrender]
    exact ⟨fun h => absurd h (Option.some_ne_none _), fun ⟨_, h, _⟩ => by cases h⟩

/-- what states no origin is printed if there is room for it -/
theorem error_print {f : ReportFormat} (h : job.format = f.name) (hf : f ≠ .sarif)
    (hroom : env.stdout.room = none) : (job.print env).error = none := by
  have hrender : ∃ r, job.render env env.files = .ok r := by
    rw [render_of_format h]
    cases f with
    | text => exact ⟨_, rfl⟩
    | json => exact ⟨_, rfl⟩
    | sarif => exact absurd rfl hf
  obtain ⟨r, hr⟩ := hrender
  exact error_print_iff.2 ⟨r, hr, Outlet.fits_of_unlimited hroom⟩

theorem fate_print (h : output = "") : job.Fate env output (job.print env) := by
  have hdest : job.Destination env output env.files none := .stdout h
  cases hrender : job.render env env.files with
  | error e =>
    have herror : (job.print env).error = some (.report e) := by
      unfold print
      simp only [hrender]
    exact .unrendered herror rfl hdest hrender
  | ok r =>
    obtain ⟨hstdout, hfiles, herror, hcause⟩ := print_of_render hrender
    cases hfailure : (job.print env).error with
    | none =>
      rw [Outlet.take_of_fits (herror.1 hfailure)] at hstdout
      exact .delivered hfailure ⟨env.files, none, r, hdest, hrender, hstdout, hfiles⟩
    | some failure =>
      refine .undelivered hfailure (hcause failure hfailure) fun fs target hdest' => ?_
      obtain ⟨rfl, -⟩ := hdest.unique hdest'
      exact ⟨r, hrender⟩

/-- a report that is to be saved, but has no file that is open for it, fails before it is rendered -/
theorem undelivered_of_no_destination (h : output ≠ "") (hnone : ∀ fs target, ¬job.Destination env output fs target) :
    ∃ failure, (job.saveUnder env output.toList).error = some failure ∧ failure.rendering? = none := by
  unfold saveUnder
  cases hplace : env.files.outputPlace env.home output.toList (ReportFormat.fileName job.format).toList with
  | error e => exact ⟨.place e, rfl, rfl⟩
  | ok place =>
    dsimp only
    cases hfolder : env.files.createFolder place.folder with
    | error e => exact ⟨.folder e, rfl, rfl⟩
    | ok folder =>
      dsimp only
      cases hopen : folder.openTruncated place.file with
      | error e =>
        refine ⟨.save (.create e), ?_, rfl⟩
        unfold saveAt FileSystem.save
        simp only [hopen]
      | ok found => exact absurd (.file h hplace hfolder hopen) (hnone found.1 (some found.2))

theorem fate_saveUnder (h : output ≠ "") : job.Fate env output (job.saveUnder env output.toList) := by
  by_cases hdest : ∃ fs target, job.Destination env output fs target
  · obtain ⟨opened, target, hdest⟩ := hdest
    obtain ⟨place, folder, target, hplace, hfolder, hopen, rfl⟩ := hdest.of_ne h
    have hsave : job.saveUnder env output.toList = job.saveAt env folder place.file := by
      unfold saveUnder
      simp only [hplace, hfolder]
    have hstdout := job.stdout_saveUnder env output.toList
    rw [hsave] at hstdout ⊢
    rcases job.saveAt_cases env hopen with ⟨e, hrender, herror⟩ | ⟨r, hrender, ⟨reason, herror⟩ | ⟨herror, hfiles⟩⟩
    · exact .unrendered herror rfl hdest hrender
    · refine .undelivered herror rfl fun fs target' hdest' => ?_
      obtain ⟨rfl, -⟩ := hdest.unique hdest'
      exact ⟨r, hrender⟩
    · exact .delivered herror ⟨opened, some target, r, hdest, hrender, hstdout, hfiles⟩
  · obtain ⟨failure, herror, hcause⟩ :=
      undelivered_of_no_destination h fun fs target h' => hdest ⟨fs, target, h'⟩
    exact .undelivered herror hcause fun fs target h' => absurd ⟨fs, target, h'⟩ hdest

/-- a report cannot be rendered where it is to go, or it does not get there, or all of it is there -/
theorem fate_deliver (job : ReportJob) (env : Environment) (output : String) :
    job.Fate env output (job.deliver env output) := by
  by_cases h : output = ""
  · rw [deliver_of_empty h]
    exact fate_print h
  · rw [deliver_of_ne h]
    exact fate_saveUnder h

/-- a delivery without an error has brought the whole report to its destination -/
theorem complete_of_deliver (h : (job.deliver env output).error = none) :
    job.Complete env output (job.deliver env output).stdout (job.deliver env output).files := by
  cases job.fate_deliver env output with
  | unrendered herror =>
    rw [h] at herror
    cases herror
  | undelivered herror =>
    rw [h] at herror
    cases herror
  | delivered _ hcomplete => exact hcomplete

/-- the errors of rendering are exactly those that are met at the destination -/
theorem rendering?_deliver_iff {e : ReportError} :
    (∃ failure, (job.deliver env output).error = some failure ∧ failure.rendering? = some e) ↔
      ∃ fs target, job.Destination env output fs target ∧ job.render env fs = .error e := by
  constructor
  · rintro ⟨failure, herror, hcause⟩
    cases job.fate_deliver env output with
    | unrendered herror' hcause' hdest hrender =>
      rw [herror] at herror'
      cases herror'
      rw [hcause] at hcause'
      cases hcause'
      exact ⟨_, _, hdest, hrender⟩
    | undelivered herror' hcause' =>
      rw [herror] at herror'
      cases herror'
      rw [hcause] at hcause'
      cases hcause'
    | delivered herror' =>
      rw [herror] at herror'
      cases herror'
  · rintro ⟨fs, target, hdest, hrender⟩
    cases job.fate_deliver env output with
    | unrendered herror hcause hdest' hrender' =>
      obtain ⟨rfl, -⟩ := hdest.unique hdest'
      rw [hrender] at hrender'
      cases hrender'
      exact ⟨_, herror, hcause⟩
    | undelivered _ _ hrenders =>
      obtain ⟨r, hr⟩ := hrenders fs target hdest
      rw [hrender] at hr
      cases hr
    | delivered _ hcomplete =>
      obtain ⟨fs', target', r, hdest', hr, -⟩ := hcomplete
      obtain ⟨rfl, -⟩ := hdest.unique hdest'
      rw [hrender] at hr
      cases hr

/-- a delivery breaks down exactly if the origin of the sources cannot be looked up at the destination -/
theorem breakdown?_deliver_iff {cause : Remote.Breakdown} :
    (∃ failure, (job.deliver env output).error = some failure ∧ failure.breakdown? = some cause) ↔
      job.BreaksDown env output cause := by
  unfold BreaksDown
  simp only [DeliveryError.breakdown?_eq_some, rendering?_deliver_iff, render_brokenDown_iff]
  constructor
  · rintro ⟨fs, target, hdest, hformat, hprovenance⟩
    exact ⟨hformat, fs, target, hdest, hprovenance⟩
  · rintro ⟨hformat, fs, target, hdest, hprovenance⟩
    exact ⟨fs, target, hdest, hformat, hprovenance⟩

end ReportJob

end AppAudit
