/-
What the report for people tells.

A text report is a sequence of lines, and a line shows by its first characters what it is: entries are indented,
headings and the last lines begin at the margin, and the first three characters tell these apart. So the sections of a
report can be found although either of them may be missing and nothing marks its end (`readSection_section`), whatever
the entries say, as long as no entry is spread over several lines. The total in a heading counts everything, listed or
not.

Main results:
- `TextReport.read?_render`: a text report is read back as the digest of its snapshot;
- `text_report_tells`: two text reports are the same exactly if they tell the same.
-/
import Mathlib.Tactic
import AppAudit.Proofs.Decoding
import AppAudit.Proofs.LogLines
import AppAudit.Proofs.PrintedNumbers
import AppAudit.Proofs.Verdict

namespace AppAudit

/-- a list as a report shows it: how long it is, and how it begins -/
structure Excerpt where
  total : ℕ
  entries : List String
deriving DecidableEq, Repr

def excerpt (limit : ℕ) (entries : List String) : Excerpt := ⟨entries.length, entries.take limit⟩

/-- what a text report tells -/
structure Digest where
  filesChecked : ℤ
  issues : Excerpt
  warnings : Excerpt
  passedChecks : ℤ
  compliant : Bool
deriving DecidableEq, Repr

namespace Snapshot

def digest (s : Snapshot) : Digest :=
  { filesChecked := s.filesChecked
    issues := excerpt TextReport.maxIssues s.issues
    warnings := excerpt TextReport.maxWarnings s.warnings
    passedChecks := s.passedChecks
    compliant := s.compliant }

/-- no finding is spread over several lines -/
def OneLiners (s : Snapshot) : Prop := ∀ text ∈ s.issues ++ s.warnings, '\n' ∉ text.toList

end Snapshot

namespace TextReport

/-! ## Reading -/

/-- what stands between two texts in a line that consists of nothing else -/
def between? (before after : String) (line : List Char) : Option (List Char) :=
  (line.dropPrefix? before.toList).bind fun rest => rest.dropSuffix? after.toList

/-- the entries at the front, and the lines behind them -/
def readEntries : List (List Char) → List String × List (List Char)
  | [] => ([], [])
  | line :: rest =>
    match between? "  - " "" line with
    | some entry => (String.ofList entry :: (readEntries rest).1, (readEntries rest).2)
    | none => ([], line :: rest)

/-- the section with a title, if there is one, and the lines behind it; without a section the list is empty -/
def readSection (title : String) : List (List Char) → Excerpt × List (List Char)
  | [] => (⟨0, []⟩, [])
  | line :: rest =>
    match (between? (title ++ " (") "):" line).bind natural? with
    | some total => (⟨total, (readEntries rest).1⟩, (readEntries rest).2)
    | none => (⟨0, []⟩, line :: rest)

def readVerdict? (word : List Char) : Option Bool :=
  if word = "PASS".toList then some true else if word = "FAIL".toList then some false else none

/-- reads a whole report: an empty line, the heading, a rule, two sections, and two lines at the end -/
def read? (text : String) : Option Digest :=
  match text.toList.splitOn '\n' with
  | [] :: heading :: _ :: body =>
    let (issues, body) := readSection "[!] ISSUES" body
    let (warnings, body) := readSection "[*] WARNINGS" body
    match body with
    | [passed, status, []] => do
      let filesChecked ← (between? "[MOBILE AUDIT] " " mobile files checked" heading).bind integer?
      let passedChecks ← (between? "[+] PASSED CHECKS: " "" passed).bind integer?
      let compliant ← (between? "STATUS: " "" status).bind readVerdict?
      some { filesChecked, issues, warnings, passedChecks, compliant }
    | _ => none
  | _ => none

/-! ## Lines -/

theorem between?_append (before after inner : String) :
    between? before after (before ++ inner ++ after).toList = some inner.toList := by
  unfold between?
  rw [String.toList_append, String.toList_append, List.append_assoc, List.dropPrefix?_append_of_beq _ BEq.rfl,
    Option.bind_some, List.dropSuffix?_eq_some_iff]
  exact ⟨_, rfl, BEq.rfl⟩

theorem between?_end (before inner : String) : between? before "" (before ++ inner).toList = some inner.toList := by
  have h := between?_append before "" inner
  rwa [String.append_empty] at h

theorem between?_eq_none {before after : String} {line : List Char} (h : ¬before.toList <+: line) :
    between? before after line = none := by
  unfold between?
  cases hdrop : line.dropPrefix? before.toList with
  | none => rfl
  | some rest =>
    obtain ⟨front, rfl, hfront⟩ := List.dropPrefix?_eq_some_iff.1 hdrop
    exact absurd (eq_of_beq hfront ▸ List.prefix_append _ _) h

/-- what begins with one word does not begin with another one, unless one of them begins the other -/
theorem not_prefix_of_prefix {a b line : List Char} (ha : a <+: line) (hab : ¬a <+: b ∧ ¬b <+: a) : ¬b <+: line :=
  fun hb => (List.prefix_or_prefix_of_prefix ha hb).elim hab.1 hab.2

/-- the lines of a section -/
def sectionLines (title : String) (limit : ℕ) (entries : List String) : List String :=
  if entries.isEmpty then []
  else (title ++ " (" ++ toString entries.length ++ "):") :: (entries.take limit).map fun e => "  - " ++ e

def passedLine (s : Snapshot) : String := "[+] PASSED CHECKS: " ++ toString s.passedChecks

def statusLine (s : Snapshot) : String := "STATUS: " ++ if s.compliant then "PASS" else "FAIL"

/-- the lines of a report, after the empty one -/
def reportLines (s : Snapshot) : List String :=
  ["[MOBILE AUDIT] " ++ toString s.filesChecked ++ " mobile files checked", String.ofList (List.replicate 50 '-')]
  ++ sectionLines "[!] ISSUES" maxIssues s.issues ++ sectionLines "[*] WARNINGS" maxWarnings s.warnings
  ++ [passedLine s, statusLine s]

theorem listing_eq (title : String) (limit : ℕ) (entries : List String) :
    listing title limit entries = (sectionLines title limit entries).map (· ++ "\n") := by
  unfold listing sectionLines
  split_ifs with hempty
  · rfl
  · have hend : "):\n" = "):" ++ "\n" := rfl
    rw [List.map_cons, List.map_map, hend, ← String.append_assoc]
    rfl

theorem render_eq (s : Snapshot) : render s = "\n" ++ String.join ((reportLines s).map (· ++ "\n")) := by
  unfold render lines reportLines passedLine statusLine
  simp only [listing_eq, List.map_append, List.map_cons, List.map_nil, List.cons_append, List.nil_append,
    String.join_cons, String.append_assoc]
  rfl

/-- lines are found again by their line breaks -/
theorem splitOn_join {ls : List String} (h : ∀ l ∈ ls, '\n' ∉ l.toList) :
    (String.join (ls.map (· ++ "\n"))).toList.splitOn '\n' = ls.map String.toList ++ [[]] := by
  induction ls with
  | nil => rfl
  | cons l ls ih =>
    obtain ⟨hl, hls⟩ := List.forall_mem_cons.1 h
    rw [List.map_cons, String.join_cons, String.toList_append, String.toList_append, List.append_assoc]
    exact (List.splitOn_append_cons_self_of_not_mem hl _).trans (congrArg _ (ih hls))

theorem newline_not_mem_append {a b : String} (ha : '\n' ∉ a.toList) (hb : '\n' ∉ b.toList) :
    '\n' ∉ (a ++ b).toList := by
  rw [String.toList_append, List.mem_append]
  exact not_or.2 ⟨ha, hb⟩

theorem newline_not_mem_sectionLines {title : String} {limit : ℕ} {entries : List String} (htitle : '\n' ∉ title.toList)
    (h : ∀ e ∈ entries, '\n' ∉ e.toList) : ∀ l ∈ sectionLines title limit entries, '\n' ∉ l.toList := by
  have htotal : '\n' ∉ (toString entries.length).toList := newline_not_mem_int entries.length
  unfold sectionLines
  split_ifs
  · exact List.forall_mem_nil _
  · have hheading := newline_not_mem_append (newline_not_mem_append htitle (b := " (") (by decide)) htotal
    refine List.forall_mem_cons.2 ⟨newline_not_mem_append hheading (by decide), List.forall_mem_map.2 fun e he => ?_⟩
    exact newline_not_mem_append (by decide) (h e (List.mem_of_mem_take he))

/-- no line of a report holds a line break -/
theorem newline_not_mem_reportLines {s : Snapshot} (h : s.OneLiners) : ∀ l ∈ reportLines s, '\n' ∉ l.toList := by
  obtain ⟨hissues, hwarnings⟩ := List.forall_mem_append.1 h
  have hfiles := newline_not_mem_append (a := "[MOBILE AUDIT] ") (by decide) (newline_not_mem_int s.filesChecked)
  have hpassed : '\n' ∉ (passedLine s).toList := newline_not_mem_append (by decide) (newline_not_mem_int s.passedChecks)
  have hstatus : '\n' ∉ (statusLine s).toList := by
    unfold statusLine
    cases s.compliant <;> decide
  unfold reportLines
  simp only [List.forall_mem_append, List.forall_mem_cons]
  refine ⟨⟨⟨⟨?_, ?_, List.forall_mem_nil _⟩, ?_⟩, ?_⟩, hpassed, hstatus, List.forall_mem_nil _⟩
  · exact newline_not_mem_append hfiles (by decide)
  · decide
  · exact newline_not_mem_sectionLines (by decide) hissues
  · exact newline_not_mem_sectionLines (by decide) hwarnings

theorem splitOn_render {s : Snapshot} (h : s.OneLiners) :
    (render s).toList.splitOn '\n' = [] :: ((reportLines s).map String.toList ++ [[]]) := by
  rw [render_eq, String.toList_append, ← splitOn_join (newline_not_mem_reportLines h)]
  have hfront : '\n' ∉ ([] : List Char) := List.not_mem_nil
  exact List.splitOn_append_cons_self_of_not_mem hfront _

/-! ## Sections -/

/-- entries are read up to the first line that is none -/
theorem readEntries_append (entries : List String) {rest : List (List Char)}
    (h : ∀ line ∈ rest.head?, ¬"  - ".toList <+: line) :
    readEntries ((entries.map fun e => ("  - " ++ e).toList) ++ rest) = (entries, rest) := by
  induction entries with
  | nil =>
    cases rest with
    | nil => rfl
    | cons line rest => simp only [List.map_nil, List.nil_append, readEntries, between?_eq_none (h line rfl)]
  | cons e entries ih =>
    simp only [List.map_cons, List.cons_append, readEntries, between?_end, ih, String.ofList_toList]

/-- a section is read as what it excerpts, whether it is there or not, if what follows it is neither an entry nor a
section with this title -/
theorem readSection_section (title : String) (limit : ℕ) (entries : List String) {rest : List (List Char)}
    (hentry : ∀ line ∈ rest.head?, ¬"  - ".toList <+: line) (htitle : ∀ line ∈ rest.head?, ¬title.toList <+: line) :
    readSection title ((sectionLines title limit entries).map String.toList ++ rest) =
      (excerpt limit entries, rest) := by
  unfold sectionLines
  split_ifs with hempty
  · rw [List.isEmpty_iff.1 hempty, List.map_nil, List.nil_append]
    cases rest with
    | nil => simp [readSection, excerpt]
    | cons line rest =>
      have hno : between? (title ++ " (") "):" line = none := by
        refine between?_eq_none fun hprefix => htitle line rfl (List.IsPrefix.trans ?_ hprefix)
        rw [String.toList_append]
        exact List.prefix_append _ _
      simp [readSection, hno, excerpt]
  · have hheading := between?_append (title ++ " (") "):" (toString entries.length)
    have hentries := readEntries_append (entries.take limit) hentry
    simp only [List.map_cons, List.map_map, List.cons_append, readSection, hheading, Option.bind_some, natural?_nat]
    rw [Function.comp_def, hentries, excerpt]

/-- what follows a section that may be missing -/
theorem head?_section {title : String} {limit : ℕ} {entries : List String} {next line : List Char}
    {rest : List (List Char)}
    (h : line ∈ ((sectionLines title limit entries).map String.toList ++ next :: rest).head?) :
    title.toList <+: line ∨ line = next := by
  unfold sectionLines at h
  split_ifs at h with hempty
  · exact Or.inr (Option.some.inj h).symm
  · refine Or.inl ?_
    rw [← Option.some.inj h]
    simp only [String.toList_append, List.append_assoc]
    exact List.prefix_append _ _

/-- what is behind both sections -/
def lastLines (s : Snapshot) : List (List Char) := [(passedLine s).toList, (statusLine s).toList, []]

theorem prefix_passedLine (s : Snapshot) : "[+]".toList <+: (passedLine s).toList := by
  have hmark : "[+]".toList <+: "[+] PASSED CHECKS: ".toList := by decide
  have hline : "[+] PASSED CHECKS: ".toList <+: (passedLine s).toList :=
    ⟨(toString s.passedChecks).toList, String.toList_append.symm⟩
  exact hmark.trans hline

theorem not_prefix_lastLines (s : Snapshot) (mark : String)
    (h : ¬"[+]".toList <+: mark.toList ∧ ¬mark.toList <+: "[+]".toList) :
    ∀ line ∈ (lastLines s).head?, ¬mark.toList <+: line := by
  rintro line ⟨⟩
  exact not_prefix_of_prefix (prefix_passedLine s) h

theorem not_prefix_warnings (s : Snapshot) (mark : String)
    (h : ¬"[+]".toList <+: mark.toList ∧ ¬mark.toList <+: "[+]".toList)
    (h' : ¬"[*] WARNINGS".toList <+: mark.toList ∧ ¬mark.toList <+: "[*] WARNINGS".toList) :
    ∀ line ∈ ((sectionLines "[*] WARNINGS" maxWarnings s.warnings).map String.toList ++ lastLines s).head?,
      ¬mark.toList <+: line := by
  intro line hline
  rcases head?_section hline with htitle | rfl
  · exact not_prefix_of_prefix htitle h'
  · exact not_prefix_of_prefix (prefix_passedLine s) h

/-! ## The report -/

/-- a text report is read back as what it tells -/
theorem read?_render {s : Snapshot} (h : s.OneLiners) : read? (render s) = some s.digest := by
  have hfiles := between?_append "[MOBILE AUDIT] " " mobile files checked" (toString s.filesChecked)
  have hissues := readSection_section "[!] ISSUES" maxIssues s.issues
    (not_prefix_warnings s "  - " (by decide) (by decide)) (not_prefix_warnings s "[!] ISSUES" (by decide) (by decide))
  have hwarnings := readSection_section "[*] WARNINGS" maxWarnings s.warnings
    (not_prefix_lastLines s "  - " (by decide)) (not_prefix_lastLines s "[*] WARNINGS" (by decide))
  have hpassed : between? "[+] PASSED CHECKS: " "" (passedLine s).toList = some (toString s.passedChecks).toList :=
    between?_end "[+] PASSED CHECKS: " (toString s.passedChecks)
  have hstatus : (between? "STATUS: " "" (statusLine s).toList).bind readVerdict? = some s.compliant := by
    unfold statusLine
    cases s.compliant <;> decide
  unfold lastLines at hissues hwarnings
  unfold read?
  rw [splitOn_render h, reportLines]
  simp only [List.map_append, List.map_cons, List.map_nil, List.append_assoc, List.cons_append, List.nil_append]
  simp only [hissues, hwarnings, hfiles, hpassed, hstatus, Option.bind_some, integer?_int]
  rfl

theorem listing_congr (title : String) {limit : ℕ} {a b : List String} (h : excerpt limit a = excerpt limit b) :
    listing title limit a = listing title limit b := by
  obtain ⟨htotal, hentries⟩ := Excerpt.mk.inj h
  have hempty : a.isEmpty = b.isEmpty := by
    rw [Bool.eq_iff_iff, List.isEmpty_iff_length_eq_zero, List.isEmpty_iff_length_eq_zero, htotal]
  rw [listing, listing, hempty, htotal, hentries]

/-- a text report shows nothing but what it tells -/
theorem render_congr {s s' : Snapshot} (h : s.digest = s'.digest) : render s = render s' := by
  obtain ⟨hfiles, hissues, hwarnings, hpassed, hcompliant⟩ := Digest.mk.inj h
  rw [render, render, lines, lines, hfiles, listing_congr _ hissues, listing_congr _ hwarnings, hpassed, hcompliant]

theorem render_inj {s s' : Snapshot} (h : s.OneLiners) (h' : s'.OneLiners) :
    render s = render s' ↔ s.digest = s'.digest := by
  refine ⟨fun hsame => ?_, render_congr⟩
  have hread := read?_render h
  rw [hsame, read?_render h'] at hread
  exact (Option.some.inj hread).symm

end TextReport

namespace Result

/-- no finding is spread over several lines -/
def OneLiners (r : Result) : Prop := ∀ f ∈ r.findings, '\n' ∉ f.text.toList

theorem OneLiners.snapshot {r : Result} (h : r.OneLiners) : r.snapshot.OneLiners := by
  intro text htext
  rw [snapshot_texts] at htext
  obtain ⟨f, hf, rfl⟩ := List.mem_map.1 htext
  exact h f hf

theorem digest_snapshot (r : Result) : r.snapshot.digest =
    { filesChecked := r.filesChecked
      issues := ⟨r.issues.length, (r.issues.take 10).map Finding.text⟩
      warnings := ⟨r.warnings.length, (r.warnings.take 15).map Finding.text⟩
      passedChecks := r.passedCount
      compliant := r.compliant } := by
  simp only [Snapshot.digest, Result.snapshot, excerpt, List.length_map, List.map_take]
  rfl

end Result

/-- **A text report tells what it shows.** If no finding is spread over several lines, the text report of a result can
be read back: the number of files, the numbers of all issues and of all warnings, the first 10 issues and the first 15
warnings in their order, the number of passed checks, and the verdict. Two text reports are the same, byte by byte,
exactly if the two results agree in these; what they agree in decides the report even if there are such findings. -/
theorem text_report_tells :
    (∀ r : Result, r.OneLiners → TextReport.read? (TextReport.render r.snapshot) = some
      { filesChecked := r.filesChecked
        issues := ⟨r.issues.length, (r.issues.take 10).map Finding.text⟩
        warnings := ⟨r.warnings.length, (r.warnings.take 15).map Finding.text⟩
        passedChecks := r.passedCount
        compliant := r.compliant }) ∧
    (∀ (r r' : Result) (c c' : ReportContext), r.OneLiners → r'.OneLiners →
      ((ReportFormat.text.render r c).map Rendering.content = (ReportFormat.text.render r' c').map Rendering.content ↔
        r.filesChecked = r'.filesChecked ∧ r.passedCount = r'.passedCount ∧ r.compliant = r'.compliant ∧
        r.issues.length = r'.issues.length ∧ r.warnings.length = r'.warnings.length ∧
        (r.issues.take 10).map Finding.text = (r'.issues.take 10).map Finding.text ∧
        (r.warnings.take 15).map Finding.text = (r'.warnings.take 15).map Finding.text)) ∧
    ∀ s s' : Snapshot, s.digest = s'.digest → TextReport.render s = TextReport.render s' := by
  refine ⟨fun r h => ?_, fun r r' c c' h h' => ?_, fun s s' => TextReport.render_congr⟩
  · rw [← Result.digest_snapshot]
    exact TextReport.read?_render h.snapshot
  · rw [content_text, content_text, Except.ok.injEq, Utf8.textBytes_inj, TextReport.render_inj h.snapshot h'.snapshot,
      Result.digest_snapshot, Result.digest_snapshot]
    simp only [Digest.mk.injEq, Excerpt.mk.injEq]
    constructor
    · rintro ⟨hfiles, ⟨hissues, hfirst⟩, ⟨hwarnings, hfirst'⟩, hpassed, hcompliant⟩
      exact ⟨hfiles, hpassed, hcompliant, hissues, hwarnings, hfirst, hfirst'⟩
    · rintro ⟨hfiles, hpassed, hcompliant, hissues, hwarnings, hfirst, hfirst'⟩
      exact ⟨hfiles, ⟨hissues, hfirst⟩, ⟨hwarnings, hfirst'⟩, hpassed, hcompliant⟩

/-- an issue whose text looks like a heading and an entry -/
def decoy (message : String) : Finding :=
  { category := "*", message, severity := .issue, file := "WARNINGS (2):  - ", ruleId := "decoy", path := "" }

/-- eleven such issues, the last of which is not listed -/
def decoys (message : String) : Result := ⟨1, List.replicate 10 (decoy "STATUS: PASS") ++ [decoy message], [], 0⟩

theorem text_report_tells_decoys :
    TextReport.read? (TextReport.render (decoys "a").snapshot) =
      some ⟨1, ⟨11, List.replicate 10 (decoy "STATUS: PASS").text⟩, ⟨0, []⟩, 0, false⟩ ∧
    ∀ c, (ReportFormat.text.render (decoys "a") c).map Rendering.content =
      (ReportFormat.text.render (decoys "b") c).map Rendering.content := by
  have ha : (decoys "a").OneLiners := by
    unfold Result.OneLiners
    decide
  have hb : (decoys "b").OneLiners := by
    unfold Result.OneLiners
    decide
  obtain ⟨hread, hsame, -⟩ := text_report_tells
  exact ⟨hread _ ha, fun c => (hsame _ _ c c ha hb).2 ⟨rfl, rfl, rfl, rfl, rfl, rfl, rfl⟩⟩

end AppAudit
