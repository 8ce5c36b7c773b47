/-
Where a saved report ends up.

An output path names a folder, existing or to be made, or the file itself, and the folder and the file are computed by
different rules: a name is joined to a folder, and the directory of a file is taken. They agree for every spelling of the
path (`dir_outputPlace`).

When a report has been saved, one file holds it, found through the path by way of any links, and nothing else is different
but new directories above that file (`ReportJob.Saved`). It holds what is printed where standard output has room for it
(`ReportJob.printed`). The report is rendered when the file is open and empty already. Only the SARIF report sees the
difference, and only if the look-up of the repository does. If the path comes to a device instead, nothing is kept at all.

Main results:
- `output_placement`: folder and file agree, and what a successful delivery to a path leaves;
- `lost_reports`: a report that a device has swallowed, and one that has overwritten the `HEAD` that it tells of.
-/
import Mathlib.Tactic
import AppAudit.Proofs.Decoding
import AppAudit.Proofs.Delivery
import AppAudit.Proofs.JsonReport
import AppAudit.Proofs.MadeFolders
import AppAudit.Proofs.RepositorySearch
import AppAudit.Proofs.Sinks

namespace AppAudit

open FileSystem

variable {fs folder opened : FileSystem} {home : Option (List Char)} {path expanded file name : List Char}
  {place : OutputPlace}

/-! ## Folder and file -/

/-- a report goes into a folder under its name, or stands for itself -/
theorem outputPlace_cases (h : fs.outputPlace home path name = .ok place) :
    ∃ expanded, expandHome home path = .ok expanded ∧
      (place = ⟨Path.join [expanded, name], expanded⟩ ∨
        place = ⟨expanded, Path.dir expanded⟩ ∧ fs.isDirectory expanded = false) := by
  unfold outputPlace at h
  cases hexpand : expandHome home path with
  | error e =>
    rw [hexpand] at h
    cases h
  | ok expanded =>
    refine ⟨expanded, rfl, ?_⟩
    rw [hexpand] at h
    dsimp only at h
    unfold isDirectory
    cases hstat : fs.stat expanded with
    | ok n =>
      rw [hstat] at h
      dsimp only at h ⊢
      cases hdir : n.isDir with
      | true =>
        rw [hdir] at h
        cases h
        exact Or.inl rfl
      | false =>
        rw [hdir] at h
        cases h
        exact Or.inr ⟨rfl, rfl⟩
    | error e =>
      rw [hstat] at h
      dsimp only at h ⊢
      split_ifs at h with hmissing hext
      · cases h
        exact Or.inl rfl
      · cases h
        exact Or.inr ⟨rfl, rfl⟩

/-- **Folder and file agree.** The directory of the report file is the folder, cleaned. -/
theorem dir_outputPlace (hname : Path.IsName name) (h : fs.outputPlace home path name = .ok place) :
    Path.dir place.file = Path.clean place.folder := by
  obtain ⟨expanded, -, rfl | ⟨rfl, -⟩⟩ := outputPlace_cases h
  · exact Path.dir_join expanded hname
  · exact (Path.clean_dir expanded).symm

theorem isName_fileName (format : String) : Path.IsName (ReportFormat.fileName format).toList := by
  have hextension : ReportFormat.extension format = "json" ∨ ReportFormat.extension format = "sarif" ∨
      ReportFormat.extension format = "txt" := by
    unfold ReportFormat.extension
    split
    · exact Or.inl rfl
    · exact Or.inr (Or.inl rfl)
    · exact Or.inr (Or.inr rfl)
  unfold ReportFormat.fileName
  rcases hextension with h | h | h <;> rw [h] <;> exact ⟨by decide, by decide, by decide, by decide⟩

/-- the parts of a file are those of its folder, dots apart, and one more -/
structure LiesIn (folder file : List Char) : Prop where
  isAbs : Path.isAbs folder = Path.isAbs file
  parts : ∃ front last, parts file = front ++ [last] ∧ front.filter (fun n => n ≠ ['.']) = Path.plain folder

theorem forward_join (names : List (List Char)) : Path.Forward (Path.join names) := by
  unfold Path.join
  split
  · exact Path.tidy_nil _
  · exact Path.forward_clean _

/-- an expanded path has every `..` in front -/
theorem forward_expandHome (hdots : ['.', '.'] ∉ parts path) (h : expandHome home path = .ok expanded) :
    Path.Forward expanded := by
  unfold expandHome at h
  split at h
  · split at h
    · cases h
      exact forward_join _
    · cases h
  · cases h
    exact Path.forward_of_noDots hdots

theorem lastPart_ne_nil (hne : file ≠ []) (hslash : endsInSlash file = false) : Path.lastPart file ≠ [] := by
  intro hnone
  have hsplit := Path.upToSlash_append_lastPart file
  rw [hnone, List.append_nil] at hsplit
  rcases Path.upToSlash_cases file with hempty | ⟨a, ha⟩
  · exact hne (hsplit.symm.trans hempty)
  · rw [← hsplit, ha, endsInSlash, List.getLast?_concat] at hslash
    simp at hslash

/-- the report file lies in its folder -/
theorem liesIn_outputPlace (hname : Path.IsName name) (hdots : ['.', '.'] ∉ parts path)
    (h : fs.outputPlace home path name = .ok place) (hne : place.file ≠ []) (hslash : endsInSlash place.file = false) :
    LiesIn place.folder place.file := by
  obtain ⟨expanded, hexpand, rfl | ⟨rfl, -⟩⟩ := outputPlace_cases h
  · have hforward := forward_expandHome hdots hexpand
    obtain ⟨hparts, habs⟩ := Path.parts_join hforward hname
    refine ⟨habs.symm, Path.plain expanded, name, hparts, ?_⟩
    rw [List.filter_eq_self]
    intro n hn
    simpa using (List.mem_filter.1 hn).2
  · have hforward := forward_expandHome hdots hexpand
    have hlast := lastPart_ne_nil hne hslash
    obtain ⟨hplain, habs⟩ := Path.plain_dir hforward hlast
    exact ⟨habs, _, _, Path.parts_of_lastPart hlast, hplain.symm⟩

/-! ## Opening the file -/

/-- what can be opened is a path that does not end in a slash -/
theorem isPathText_of_open {target : Target} (h : fs.openTruncated file = .ok (opened, target)) :
    IsPathText file ∧ endsInSlash file = false := by
  unfold openTruncated at h
  dsimp only at h
  cases hlocate : fs.locate true file false with
  | error e =>
    rw [hlocate] at h
    cases h
  | ok found =>
    rw [hlocate] at h
    dsimp only at h
    split_ifs at h with hslash
    exact ⟨isPathText_of_locate hlocate, Bool.eq_false_iff.2 hslash⟩

theorem openTruncated_of_vacant {directory : List Name} {target : Target}
    (hlocate : fs.locate true file false = .ok (.vacant directory name false))
    (h : fs.openTruncated file = .ok (opened, target)) : target = .regular (directory ++ [name]) := by
  unfold openTruncated at h
  dsimp only at h
  rw [hlocate] at h
  dsimp only at h
  split_ifs at h
  cases h
  rfl

theorem openTruncated_of_dir {directory : List Name} {entries : List (Name × Node)}
    (hlocate : fs.locate true file false = .ok (.found directory (.dir entries))) (found : FileSystem × Target) :
    fs.openTruncated file ≠ .ok found := by
  unfold openTruncated
  dsimp only
  rw [hlocate]
  dsimp only
  split_ifs <;> exact nofun

/-- in a new folder the file is new -/
theorem openTruncated_of_made {folderPath : List Char} {directory : List Name} {target : Target}
    (hmade : MadeFolder fs folder folderPath directory) (hlies : LiesIn folderPath file)
    (h : folder.openTruncated file = .ok (opened, target)) : ∃ last, target = .regular (directory ++ [last]) := by
  obtain ⟨front, last, hparts, hfront⟩ := hlies.parts
  obtain ⟨left, hleads⟩ := hmade.leads
  have hfollows : Follows folder.tree maxLinks (folder.startOf file) front left directory := by
    rw [← startOf_eq hmade.cwd hlies.isAbs.symm] at hleads
    have hplain : Follows folder.tree maxLinks (folder.startOf file) (Path.plain folderPath) left directory :=
      hleads.withoutDots
    rw [← hfront] at hplain
    exact hplain.withDots
  obtain ⟨asDir, hsame, hresolve⟩ := hfollows.resolve_eq (Or.inr (by simp) : true = true ∨ [last] ≠ []) false
  have hlocate : folder.locate true file false = resolve folder.tree true left directory [last] false := by
    rw [hsame (by simp)] at hresolve
    rw [(isPathText_of_open h).1.locate_eq, hparts]
    exact hresolve
  have hdir : folder.tree.IsDirAt directory := ⟨[], hmade.empty⟩
  by_cases hdot : last = ['.']
  · obtain ⟨entries, hat⟩ := hdir
    rw [hdot, resolve_stay, resolve, hat] at hlocate
    exact absurd h (openTruncated_of_dir hlocate _)
  by_cases hup : last = ['.', '.']
  · obtain ⟨entries, hat⟩ := hdir.dropLast
    rw [hup, resolve_up, resolve, hat] at hlocate
    exact absurd h (openTruncated_of_dir hlocate _)
  by_cases hlong : maxName < (Utf8.encode last).length
  · rw [resolve, if_neg hdot, if_neg hup, if_pos hlong] at hlocate
    unfold openTruncated at h
    rw [hlocate] at h
    cases h
  · rw [resolve_vacant ⟨hdot, hup, not_lt.1 hlong⟩ (at?_below_empty hmade.empty last)] at hlocate
    exact ⟨last, openTruncated_of_vacant hlocate h⟩

/-- a folder is there, or it is made -/
theorem createFolder_cases {folderPath : List Char} (hcwd : fs.tree.IsDirAt fs.cwd) (hforward : Path.Forward folderPath)
    (h : fs.createFolder folderPath = .ok folder) :
    folder = fs ∨ ∃ directory, MadeFolder fs folder folderPath directory := by
  unfold createFolder at h
  split at h
  · cases h
    exact Or.inl rfl
  · split_ifs at h
    cases hmake : fs.mkdirAll folderPath with
    | error e =>
      rw [hmake] at h
      cases h
    | ok made =>
      rw [hmake] at h
      cases h
      rcases mkdirAll_cases hcwd hforward hmake with ⟨hsame, -⟩ | hmade
      · exact Or.inl hsame
      · exact Or.inr hmade

/-! ## Saving -/

/-- a sink that takes every write gets all of them, if rendering does not break off -/
theorem Rendering.deliverBuffered_of_whole {r : Rendering} (h : r.failure = none) (failure : String) :
    r.deliverBuffered (Buffer.writes r.chunks).length failure = (Buffer.writes r.chunks, none) := by
  have hsent : ¬ (Buffer.writes r.chunks).length < (Buffer.pushAll r.chunks).1.length := by
    unfold Buffer.writes
    rw [List.length_append]
    omega
  unfold deliverBuffered
  dsimp only
  rw [if_neg hsent, h, Option.isSome_none, if_neg Bool.false_ne_true]
  exact if_neg (lt_irrefl _)

namespace ReportJob

variable {job : ReportJob} {env : Environment} {output : String} {after : FileSystem}

/-- prints the report when files are as in a file system, with room for all of it -/
def printed (job : ReportJob) (env : Environment) (fs : FileSystem) : Delivery :=
  job.print { env with files := fs, stdout := {} }

/-- what is printed is what is rendered -/
theorem printed_of_render {r : Rendering} (h : job.render env fs = .ok r) :
    (job.printed env fs).error = none ∧ (job.printed env fs).stdout = r.content := by
  let roomy : Environment := { env with files := fs, stdout := {} }
  have hrender : job.render roomy roomy.files = .ok r := h
  have hfits : roomy.stdout.Fits r.content := Outlet.fits_of_unlimited rfl
  obtain ⟨hstdout, -, herror, -⟩ := print_of_render hrender
  exact ⟨herror.2 hfits, hstdout.trans (congrArg Prod.fst (Outlet.take_of_fits hfits))⟩

/-- only the report that states the origin of the sources looks at the files -/
theorem render_congr
    (h : job.format = ReportFormat.sarif.name → env.provenance fs job.target = env.provenance opened job.target) :
    job.render env fs = job.render env opened := by
  unfold render renderReport
  dsimp only
  split
  · rename_i f hf
    cases f with
    | text => rfl
    | json => rfl
    | sarif =>
      have hformat : job.format = ReportFormat.sarif.name := by
        split_ifs at hf
        · cases hf
        · exact ReportFormat.ofName?_eq_some.1 hf
      rw [h hformat]
  · rfl

theorem printed_congr
    (h : job.format = ReportFormat.sarif.name → env.provenance opened job.target = env.provenance fs job.target) :
    (job.printed env opened).stdout = (job.printed env fs).stdout := by
  have hsame : job.render { env with files := opened, stdout := {} } opened =
      job.render { env with files := fs, stdout := {} } fs := render_congr h
  unfold printed print
  dsimp only
  rw [hsame]
  split <;> rfl

/-- a report that has been saved through the path of a file: it is in the one file at a spot, where the path leads, and
nothing else is different but new directories above it -/
structure Saved (job : ReportJob) (env : Environment) (file : List Char) (opened after : FileSystem) (spot : List Name) :
    Prop where
  /-- when the report is rendered the file is there and empty -/
  emptied : opened.tree.at? spot = some (.file []) ∧ env.files.tree.WritesOnly opened.tree spot
  printed : (job.printed env opened).error = none
  content : after.locate true file false = .ok (.found spot (.file (job.printed env opened).stdout))
  frame : env.files.tree.WritesOnly after.tree spot
  /-- it is what would have been printed, unless the origin of the sources looks different by now -/
  asPrinted :
    (job.format = ReportFormat.sarif.name → env.provenance opened job.target = env.provenance env.files job.target) →
    (job.printed env opened).stdout = (job.printed env env.files).stdout

end ReportJob

/-- the folder of a report is there already, or it is made and the report is the only thing in it -/
theorem folder_cases {target : Target} (hdots : ['.', '.'] ∉ parts path) (hcwd : fs.tree.IsDirAt fs.cwd)
    (hname : Path.IsName name) (hplace : fs.outputPlace home path name = .ok place)
    (hfolder : fs.createFolder place.folder = .ok folder)
    (hopen : folder.openTruncated place.file = .ok (opened, target)) :
    folder = fs ∨ ∃ directory last, MadeFolder fs folder place.folder directory ∧
      target = .regular (directory ++ [last]) := by
  have hforward : Path.Forward place.folder := by
    obtain ⟨expanded, hexpand, rfl | ⟨rfl, -⟩⟩ := outputPlace_cases hplace
    · exact forward_expandHome hdots hexpand
    · exact Path.forward_clean _
  obtain ⟨htext, hslash⟩ := isPathText_of_open hopen
  have hlies := liesIn_outputPlace hname hdots hplace htext.ne_nil hslash
  rcases createFolder_cases hcwd hforward hfolder with rfl | ⟨directory, hmade⟩
  · exact Or.inl rfl
  · obtain ⟨last, htarget⟩ := openTruncated_of_made hmade hlies hopen
    exact Or.inr ⟨directory, last, hmade, htarget⟩

namespace ReportJob

variable {job : ReportJob} {env : Environment} {output : String}

/-- a file that was opened and then filled -/
theorem saved_of_open {directory : List Name} {name : Name} {r : Rendering}
    (hfolder : env.files.tree.WritesOnly folder.tree (directory ++ [name])) (hopens : folder.OpensAt file directory name)
    (hopened : opened = folder.set (directory ++ [name]) (.file [])) (hrender : job.render env opened = .ok r) :
    job.Saved env file opened (opened.store (.regular (directory ++ [name])) r.content) (directory ++ [name]) := by
  subst hopened
  have hfill := hopens.fillable
  have hrefill := hfill.put []
  have hempty := Node.at?_put_place hfill.dir name (.file [])
  have hopened := Node.writesOnly_put hfill fun _ hrest => Node.at?_file [] hrest
  have hfilled := Node.writesOnly_put hrefill fun _ hrest => Node.at?_file r.content hrest
  have hkeeps := (Node.keeps_put hfill (.file [])).trans (Node.keeps_put hrefill (.file r.content))
  obtain ⟨hprinted, hstdout⟩ := printed_of_render hrender
  refine ⟨⟨hempty, hfolder.trans hopened⟩, hprinted, ?_, (hfolder.trans hopened).trans hfilled, printed_congr⟩
  rw [hstdout]
  apply hopens.again
  · rfl
  · exact hkeeps
  · exact Node.at?_put_place hrefill.dir name (.file r.content)

/-- **What a successful delivery to a path leaves**: the report in one file, or nothing at all where the path comes to a
device. -/
theorem saved_of_deliver (hne : output ≠ "") (hdots : ['.', '.'] ∉ parts output.toList)
    (hcwd : env.files.tree.IsDirAt env.files.cwd) (h : (job.deliver env output).error = none) :
    ∃ place, env.files.outputPlace env.home output.toList (ReportFormat.fileName job.format).toList = .ok place ∧
      ((∃ opened spot, job.Saved env place.file opened (job.deliver env output).files spot) ∨
        ∃ spot d, env.files.locate true place.file false = .ok (.found spot (.device d)) ∧
          (job.deliver env output).files = env.files) := by
  obtain ⟨fs, target, r, hdestination, hrender, hcomplete⟩ := complete_of_deliver h
  obtain ⟨place, folder, target, hplace, hfolder, hopen, rfl⟩ := hdestination.of_ne hne
  obtain ⟨-, hfiles⟩ := hcomplete
  refine ⟨place, hplace, ?_⟩
  have hcases := folder_cases hdots hcwd (isName_fileName job.format) hplace hfolder hopen
  have hfolderCwd : folder.tree.IsDirAt folder.cwd := by
    rcases hcases with rfl | ⟨directory, last, hmade, -⟩
    · exact hcwd
    · rw [hmade.cwd]
      exact hmade.keeps.dir _ hcwd
  rw [hfiles]
  rcases openTruncated_cases hfolderCwd hopen with ⟨d, spot, rfl, rfl, hlocate⟩ | ⟨directory, name, rfl, hopened, hopens⟩
  · rcases hcases with rfl | ⟨_, _, _, htarget⟩
    · exact Or.inr ⟨spot, d, hlocate, rfl⟩
    · cases htarget
  · left
    refine ⟨fs, directory ++ [name], ?_⟩
    rcases hcases with rfl | ⟨parent, last, hmade, htarget⟩
    · exact saved_of_open (.refl _ _) hopens hopened hrender
    · rw [Target.regular.injEq] at htarget
      have hfolderWrites := hmade.writes.below ⟨[], hmade.empty⟩ (by simp [hmade.new]) [last]
      rw [← htarget] at hfolderWrites
      exact saved_of_open hfolderWrites hopens hopened hrender

/-- a file that is open takes the whole report, unless it is the device without space -/
theorem deliver_of_open {target : Target} {r : Rendering} (hne : output ≠ "")
    (hplace : env.files.outputPlace env.home output.toList (ReportFormat.fileName job.format).toList = .ok place)
    (hfolder : env.files.createFolder place.folder = .ok folder)
    (hopen : folder.openTruncated place.file = .ok (opened, target)) (hrender : job.render env opened = .ok r)
    (hwhole : r.failure = none) (htarget : target ≠ .device .full) :
    (job.deliver env output).error = none ∧ (job.deliver env output).files = opened.store target r.content := by
  have haccepts (writes : Nat) : target.accepts writes = writes := by
    unfold Target.accepts
    split
    · exact absurd rfl htarget
    · rfl
  have hfill : opened.fill target place.file r = (opened.store target r.content, none) := by
    have hall := Rendering.deliverBuffered_of_whole hwhole (FileError.text ⟨"write", place.file, .noSpace⟩)
    have hcontent : (Buffer.writes r.chunks).flatten = r.content := by
      have hflatten := Rendering.flatten_deliverBuffered (congrArg Prod.snd hall)
      rwa [hall] at hflatten
    unfold FileSystem.fill
    dsimp only
    rw [haccepts, hall, ← hcontent]
    rfl
  rw [deliver_of_ne hne, saveUnder, hplace]
  dsimp only
  rw [hfolder]
  dsimp only
  unfold saveAt FileSystem.save
  dsimp only
  rw [hopen]
  dsimp only
  rw [hrender]
  dsimp only
  rw [hfill]
  exact ⟨rfl, rfl⟩

end ReportJob

/-- **Output placement.** The directory of a report file is its folder, cleaned. When a report has been delivered to a path
that is not empty and holds no `..`, standard output is empty, and a directory that was there has received the report under
its name. The report is in one file, found through the path by way of links, and nothing else has changed but new
directories above it; or the path comes to a device, and nothing has changed at all. The bytes are what the report, rendered
once its file is open, sends to standard output; they are what it would have sent there before, if the look-up of the
repository gives the same. -/
theorem output_placement :
    (∀ (fs : FileSystem) (home : Option (List Char)) (path name : List Char) (place : OutputPlace), Path.IsName name →
      fs.outputPlace home path name = .ok place → Path.dir place.file = Path.clean place.folder) ∧
    ∀ (job : ReportJob) (env : Environment) (output : String), output ≠ "" → ['.', '.'] ∉ parts output.toList →
      env.files.tree.IsDirAt env.files.cwd → (job.deliver env output).error = none →
      (job.deliver env output).stdout = [] ∧
      ∃ path place, expandHome env.home output.toList = .ok path ∧
        env.files.outputPlace env.home output.toList (ReportFormat.fileName job.format).toList = .ok place ∧
        (env.files.isDirectory path = true →
          place.file = Path.join [path, (ReportFormat.fileName job.format).toList]) ∧
        ((∃ opened spot, job.Saved env place.file opened (job.deliver env output).files spot) ∨
          ∃ spot d, env.files.locate true place.file false = .ok (.found spot (.device d)) ∧
            (job.deliver env output).files = env.files) := by
  refine ⟨fun fs home path name place => dir_outputPlace, ?_⟩
  intro job env output hne hdots hcwd h
  obtain ⟨place, hplace, hleft⟩ := ReportJob.saved_of_deliver hne hdots hcwd h
  obtain ⟨path, hpath, hkind⟩ := outputPlace_cases hplace
  refine ⟨ReportJob.stdout_deliver_of_ne hne, path, place, hpath, hplace, fun hdir => ?_, hleft⟩
  rcases hkind with rfl | ⟨-, hnot⟩
  · rfl
  · rw [hdir] at hnot
    cases hnot

/-! ### A report in a new folder -/

/-- an empty directory -/
def emptyEnvironment : Environment := { files := ⟨.dir [], []⟩, guid := "id" }

/-- the report about nothing -/
def emptyJob (f : ReportFormat) : ReportJob := { format := f.name, result := .empty, target := ".".toList }

theorem fileName_emptyJob : ReportFormat.fileName (emptyJob .json).format = "mobileaudit-report.json" := by decide

theorem render_emptyJob (f : ReportFormat) (env : Environment) (fs : FileSystem) {text : String}
    (h : f.report .empty
      { toolVersion := env.build.version, guid := env.guid, provenance := env.provenance fs ".".toList } = .ok text) :
    ∃ r, (emptyJob f).render env fs = .ok r ∧ r.failure = none ∧ r.content = textBytes text := by
  obtain ⟨r, hr, hrenders⟩ := render_of_report h
  exact ⟨r, (ReportJob.render_of_format rfl fs).trans hr, hrenders.failure, hrenders.content⟩

theorem error_newFolder : ((emptyJob .json).deliver emptyEnvironment "a").error = none := by
  have hplace : emptyEnvironment.files.outputPlace emptyEnvironment.home "a".toList
      (ReportFormat.fileName (emptyJob .json).format).toList = .ok ⟨"a/mobileaudit-report.json".toList, "a".toList⟩ := by
    rw [fileName_emptyJob]
    cbv
  have hfolder : emptyEnvironment.files.createFolder "a".toList = .ok ⟨.dir [(['a'], .dir [])], []⟩ := by cbv
  have hopen : ∃ opened, (⟨.dir [(['a'], .dir [])], []⟩ : FileSystem).openTruncated "a/mobileaudit-report.json".toList =
      .ok (opened, .regular [['a'], "mobileaudit-report.json".toList]) := by
    refine ⟨⟨.dir [(['a'], .dir [("mobileaudit-report.json".toList, .file [])])], []⟩, ?_⟩
    cbv
  obtain ⟨opened, hopen⟩ := hopen
  obtain ⟨r, hrender, hwhole, -⟩ := render_emptyJob .json emptyEnvironment opened rfl
  exact (ReportJob.deliver_of_open (by decide) hplace hfolder hopen hrender hwhole (by simp)).1

/-- the report is in a folder that was made for it, as it would have been printed -/
theorem output_placement_newFolder : "a" ≠ "" ∧ ['.', '.'] ∉ parts "a".toList ∧
    emptyEnvironment.files.tree.IsDirAt emptyEnvironment.files.cwd ∧
    Path.IsName "mobileaudit-report.json".toList ∧
    Path.dir "a/mobileaudit-report.json".toList = Path.clean "a".toList ∧
    ((emptyJob .json).deliver emptyEnvironment "a").stdout = [] ∧
    ∃ spot, ((emptyJob .json).deliver emptyEnvironment "a").files.locate true "a/mobileaudit-report.json".toList false =
      .ok (.found spot (.file ((emptyJob .json).print emptyEnvironment).stdout)) := by
  have hdots : ['.', '.'] ∉ parts "a".toList := by decide
  have hcwd : emptyEnvironment.files.tree.IsDirAt emptyEnvironment.files.cwd := ⟨[], by cbv⟩
  have hname : Path.IsName "mobileaudit-report.json".toList := ⟨by decide, by decide, by decide, by decide⟩
  have hmissing : emptyEnvironment.files.locate true "a/mobileaudit-report.json".toList false = .error .notFound := by cbv
  have hplace : emptyEnvironment.files.outputPlace emptyEnvironment.home "a".toList
      "mobileaudit-report.json".toList = .ok ⟨"a/mobileaudit-report.json".toList, "a".toList⟩ := by
    cbv
  obtain ⟨hagree, hdelivered⟩ := output_placement
  have hdir := hagree _ _ _ _ _ hname hplace
  obtain ⟨hstdout, path, place, -, hplace', -, hleft⟩ :=
    hdelivered (emptyJob .json) emptyEnvironment "a" (by decide) hdots hcwd error_newFolder
  rw [fileName_emptyJob, hplace] at hplace'
  cases hplace'
  rcases hleft with ⟨opened, spot, hsaved⟩ | ⟨spot, d, hdevice, -⟩
  · have hcontent := hsaved.content
    rw [hsaved.asPrinted fun hsarif => absurd hsarif (by decide)] at hcontent
    exact ⟨by decide, hdots, hcwd, hname, hdir, hstdout, spot, hcontent⟩
  · rw [hmissing] at hdevice
    cases hdevice

/-! ### Reports that are lost -/

/-- a directory with a device -/
def deviceEnvironment : Environment :=
  { files := ⟨.dir [("dev".toList, .dir [("null".toList, .device .null)])], []⟩, guid := "id" }

theorem deliver_device : ((emptyJob .json).deliver deviceEnvironment "/dev/null").error = none ∧
    ((emptyJob .json).deliver deviceEnvironment "/dev/null").files = deviceEnvironment.files := by
  have hplace : deviceEnvironment.files.outputPlace deviceEnvironment.home "/dev/null".toList
      (ReportFormat.fileName (emptyJob .json).format).toList = .ok ⟨"/dev/null".toList, "/dev".toList⟩ := by
    rw [fileName_emptyJob]
    cbv
  have hfolder : deviceEnvironment.files.createFolder "/dev".toList = .ok deviceEnvironment.files := by cbv
  have hopen : deviceEnvironment.files.openTruncated "/dev/null".toList =
      .ok (deviceEnvironment.files, .device .null) := by
    cbv
  obtain ⟨r, hrender, hwhole, -⟩ := render_emptyJob .json deviceEnvironment deviceEnvironment.files rfl
  exact ReportJob.deliver_of_open (by decide) hplace hfolder hopen hrender hwhole (by simp)

/-- a report that states a commit is never the one that states none -/
theorem sarif_revision_ne (r : Result) (version guid branch : String) (page : RawText) {commit : String}
    (hcommit : commit ≠ "") :
    (Sarif.document (Sarif.run r version guid (some ⟨branch, page, commit⟩))).pretty ≠
      (Sarif.document (Sarif.run r version guid (some ⟨branch, page, ""⟩))).pretty := by
  intro hsame
  have hvalue : (Sarif.document (Sarif.run r version guid (some ⟨branch, page, commit⟩))).value =
      (Sarif.document (Sarif.run r version guid (some ⟨branch, page, ""⟩))).value := by
    apply JsonText.Spells.unique (Json.spells_pretty _)
    rw [hsame]
    exact Json.spells_pretty _
  have hmembers : Json.memberValues (Sarif.member? "branch" branch ++ [("repositoryUri", .raw page)] ++
        Sarif.member? "revisionId" commit) =
      Json.memberValues (Sarif.member? "branch" branch ++ [("repositoryUri", .raw page)] ++
        Sarif.member? "revisionId" "") := by
    simpa [Sarif.document, Sarif.Run.toJson, Sarif.run, Sarif.Provenance.toJson, Json.value, Json.memberValues,
      Json.itemValues] using hvalue
  have hstated : Sarif.member? "revisionId" commit = [("revisionId", .str commit)] :=
    if_neg fun hempty => hcommit (String.isEmpty_iff.1 hempty)
  have hnone : Sarif.member? "revisionId" "" = [] := rfl
  have hbranch : Sarif.member? "branch" branch = [] ∨ Sarif.member? "branch" branch = [("branch", .str branch)] := by
    unfold Sarif.member?
    split_ifs
    · exact Or.inl rfl
    · exact Or.inr rfl
  rw [hstated, hnone] at hmembers
  rcases hbranch with hbranch | hbranch
  · simp [hbranch, Json.memberValues] at hmembers
  · simp [hbranch, Json.memberValues] at hmembers

/-- an origin that is a project with a page -/
def acmeOrigin : String := "[remote \"origin\"]\n\turl = https://github.com/acme/app\n"

def acmePage : RawText := .ofString "https://github.com/acme/app"

/-- a repository in the working directory, with such an origin and nothing committed -/
def headEnvironment : Environment :=
  { files := ⟨.dir [(".git".toList, .dir
      [("HEAD".toList, .file (textBytes "ref: refs/heads/main\n")), ("config".toList, .file (textBytes acmeOrigin))])], []⟩
    guid := "id" }

/-- the same when its `HEAD` has been emptied -/
def emptiedTree : FileSystem := headEnvironment.files.set [".git".toList, "HEAD".toList] (.file [])

/-- what a report states about a repository in the root with the origin above, whatever is checked out -/
theorem provenance_of_acmeOrigin {fs : FileSystem} {cwd : RootedPath} {name : RawText} {commit : List Char}
    (hpath : Path.abs cwd.text ".".toList = ['/']) (hstart : fs.searchStart ['/'] = ['/'])
    (hopens : fs.opens ['/'] = true) (hgitDir : fs.gitDir? ['/'] = some "/.git".toList)
    (hread : fs.readFile (Path.join ["/.git".toList, "config".toList]) = .ok (textBytes acmeOrigin))
    (hhead : (fs.headOf? "/.git".toList).getD ({}, []) = (name, commit)) :
    fs.provenance ".".toList fs.git cwd =
      .ok (some ⟨String.ofList (Ref.branch name), acmePage, String.ofList commit⟩) := by
  have hroot : climb? fs.git.opens ['/'] = some ['/'] := (climb?_of_ne (by decide)).trans (if_pos hopens)
  have haddress : (Setting.read? (textBytes acmeOrigin)).bind (Setting.origin? .first) =
      some "https://github.com/acme/app".toList := by
    decide +kernel
  have horigin : fs.git.origin? ['/'] = some "https://github.com/acme/app".toList :=
    origin?_git hgitDir hread haddress
  have hpage : Remote.webUrl "https://github.com/acme/app".toList = .ok acmePage := by cbv
  obtain ⟨m, hm, -, hurl, hbranch, hcommit⟩ := fs.git.metadataAt_of_origin ['/'] ['/'] horigin hpage
  have hstated : m.provenance? = some ⟨String.ofList m.branch, acmePage, String.ofList m.commit⟩ := by
    unfold Metadata.provenance?
    rw [hurl]
    rfl
  unfold provenance
  rw [metadata_of_ne fs _ _ (by decide), hpath, hstart, hroot]
  dsimp only
  rw [hm]
  dsimp only
  rw [hstated, hbranch, hcommit, head?_git _ hgitDir, hhead]

/-- the repository has an origin, so a report says where the sources come from, but there is no commit yet -/
theorem provenance_headEnvironment :
    headEnvironment.provenance headEnvironment.files ".".toList = .ok (some ⟨"", acmePage, ""⟩) := by
  have hhead : (headEnvironment.files.headOf? "/.git".toList).getD ({}, []) = ({}, []) := by cbv
  exact provenance_of_acmeOrigin (by cbv) (by cbv) (by cbv) (by cbv) (by cbv) hhead

/-- the commit that no repository has -/
def zeroCommit : String := "0000000000000000000000000000000000000000"

/-- a repository whose `HEAD` is empty opens, and that commit is checked out in it -/
theorem opens_of_empty_head {fs : FileSystem} {root gitDir : List Char} (hgitDir : fs.gitDir? root = some gitDir)
    (hread : fs.readFile (Path.join [gitDir, "HEAD".toList]) = .ok []) :
    fs.opens root = true ∧ fs.headOf? gitDir = some (Ref.head, zeroCommit.toList) := by
  have hname : Ref.head.chars? = some "HEAD".toList := by decide
  have hpath : Path.join (Path.split "HEAD".toList) = "HEAD".toList := by decide
  have hinside : ¬ (Path.names "HEAD".toList).head? = some ['.', '.'] := by decide
  have hnothing : Ref.ofText (RawText.ofBytes []).trim = .commit zeroCommit.toList := by decide +kernel
  have hfound : Ref.find? fs gitDir Ref.head = some (.commit zeroCommit.toList) := by
    unfold Ref.find? Ref.loose?
    rw [hname, Option.bind_some]
    dsimp only
    rw [hpath, if_neg hinside, hread]
    dsimp only
    rw [hnothing]
  constructor
  · unfold opens
    rw [hgitDir]
    dsimp only
    rw [hfound]
    rfl
  · unfold headOf? Ref.follow?
    rw [hfound]

theorem provenance_emptiedTree :
    headEnvironment.provenance emptiedTree ".".toList = .ok (some ⟨"", acmePage, zeroCommit⟩) := by
  have hgitDir : emptiedTree.gitDir? ['/'] = some "/.git".toList := by cbv
  have hread : emptiedTree.readFile (Path.join ["/.git".toList, "HEAD".toList]) = .ok [] := by cbv
  have hpath : Path.abs headEnvironment.cwd.text ".".toList = ['/'] := by cbv
  obtain ⟨hopens, hhead⟩ := opens_of_empty_head hgitDir hread
  exact provenance_of_acmeOrigin hpath (by cbv) hopens hgitDir (by cbv) (congrArg (·.getD ({}, [])) hhead)

theorem deliver_head : ((emptyJob .sarif).deliver headEnvironment ".git/HEAD").error = none ∧
    ((emptyJob .sarif).deliver headEnvironment ".git/HEAD").files.readFile ".git/HEAD".toList =
      .ok (textBytes ((Sarif.document (Sarif.run .empty headEnvironment.build.version "id"
        (some ⟨"", acmePage, zeroCommit⟩))).pretty ++ "\n")) := by
  have hplace : headEnvironment.files.outputPlace headEnvironment.home ".git/HEAD".toList
      (ReportFormat.fileName (emptyJob .sarif).format).toList = .ok ⟨".git/HEAD".toList, ".git".toList⟩ := by
    rw [show ReportFormat.fileName (emptyJob .sarif).format = "mobileaudit-report.sarif" by decide]
    cbv
  have hfolder : headEnvironment.files.createFolder ".git".toList = .ok headEnvironment.files := by cbv
  have hopen : headEnvironment.files.openTruncated ".git/HEAD".toList =
      .ok (emptiedTree, .regular [".git".toList, "HEAD".toList]) := by
    cbv
  have hread (bytes : Bytes) : (emptiedTree.store (.regular [".git".toList, "HEAD".toList]) bytes).readFile
      ".git/HEAD".toList = .ok bytes := by
    cbv
  obtain ⟨r, hrender, hwhole, hcontent⟩ := render_emptyJob .sarif headEnvironment emptiedTree
    (by rw [provenance_emptiedTree]; rfl)
  obtain ⟨herror, hfiles⟩ := ReportJob.deliver_of_open (by decide) hplace hfolder hopen hrender hwhole (by simp)
  refine ⟨herror, ?_⟩
  rw [hfiles, hread, hcontent]
  rfl

/-- a delivery to the path of a file that succeeds, but leaves something else in the file than what would have been
printed -/
structure ReportJob.Loses (job : ReportJob) (env : Environment) (output : String) : Prop where
  ne : output ≠ ""
  noDots : ['.', '.'] ∉ parts output.toList
  cwd : env.files.tree.IsDirAt env.files.cwd
  succeeds : (job.deliver env output).error = none
  loses : (job.deliver env output).files.readFile output.toList ≠ .ok (job.print env).stdout

/-- **Lost reports.** A device takes a report and keeps nothing. And a SARIF report that is written over the `HEAD` of its
own repository is not the one that standard output would have got: when it is rendered `HEAD` is empty, and the report
states a commit of zeros where there is none. -/
theorem lost_reports :
    (emptyJob .json).Loses deviceEnvironment "/dev/null" ∧ (emptyJob .sarif).Loses headEnvironment ".git/HEAD" := by
  constructor
  · refine ⟨by decide, by decide, ⟨_, by cbv⟩, deliver_device.1, ?_⟩
    have hread : deviceEnvironment.files.readFile "/dev/null".toList = .ok [] := by cbv
    obtain ⟨r, hrender, -, hcontent⟩ :=
      render_emptyJob .json deviceEnvironment deviceEnvironment.files rfl
    have hprinted : ((emptyJob .json).print deviceEnvironment).stdout = r.content :=
      (ReportJob.printed_of_render hrender).2
    rw [deliver_device.2, hread]
    intro hsame
    rw [Except.ok.injEq, hprinted, hcontent] at hsame
    exact textBytes_append_ne_nil _ (by decide) hsame.symm
  · refine ⟨by decide, by decide, ⟨_, by cbv⟩, deliver_head.1, ?_⟩
    obtain ⟨r, hrender, -, hcontent⟩ := render_emptyJob .sarif headEnvironment headEnvironment.files
      (by rw [provenance_headEnvironment]; rfl)
    have hprinted : ((emptyJob .sarif).print headEnvironment).stdout = r.content :=
      (ReportJob.printed_of_render hrender).2
    rw [deliver_head.2]
    intro hsame
    rw [Except.ok.injEq, hprinted, hcontent, Utf8.textBytes_inj, String.append_left_inj] at hsame
    exact sarif_revision_ne .empty _ _ "" acmePage (by decide) hsame

end AppAudit
