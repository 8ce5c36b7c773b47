/-
Where reports say that their sources come from.

A target lies in the nearest repository above it, and the address of the origin there decides (`FileSystem.Origin`): it
has a page, or is one of the addresses without an answer (`Remote.DashFirst`). The missing answer spreads as far as the
report, so that there is none for a target with such an origin; there is one for every other target. What opens as a
repository and what its origin is are left to a `Git` that nothing is assumed about, and so is the spelling of the working
directory.

Main results:
- `FileSystem.provenance_of_origin`: what an origin says about the sources;
- `origin_stated_or_breakdown`: addresses, targets and reports together;
- `dashRemote_without_page`: an address without a page, and a target without a report.
-/
import Mathlib
import AppAudit.Proofs.OutputPlacement
import AppAudit.Proofs.ProjectPages

namespace AppAudit

/-! ## Origins -/

namespace FileSystem

variable {fs : FileSystem} {git : Git} {cwd : RootedPath} {target root address : List Char}

/-- the search from a target finds the nearest repository -/
theorem climb?_searchStart_iff (fs : FileSystem) (git : Git) (cwd : RootedPath) (target : List Char) :
    climb? git.opens (fs.searchStart (Path.abs cwd.text target)) = some root ↔
      IsNearest git.opens (fs.searchStart (Path.abs cwd.text target)) root := by
  obtain ⟨ns, hns, hpath⟩ := Path.abs_eq_spelled cwd target
  obtain ⟨first, hfirst, hstart, -⟩ := fs.searchStart_above hns
  rw [hpath, hstart]
  exact climb?_eq_some_iff hfirst

/-- the target lies in a repository, and this is the first address of its origin -/
def Origin (fs : FileSystem) (git : Git) (cwd : RootedPath) (target address : List Char) : Prop :=
  ∃ root, IsNearest git.opens (fs.searchStart (Path.abs cwd.text target)) root ∧ git.origin? root = some address

theorem Origin.unique {address' : List Char} (h : fs.Origin git cwd target address)
    (h' : fs.Origin git cwd target address') : address = address' := by
  obtain ⟨root, hroot, horigin⟩ := h
  obtain ⟨root', hroot', horigin'⟩ := h'
  obtain rfl := hroot.unique hroot'
  rw [horigin] at horigin'
  exact Option.some.inj horigin'

theorem metadata_of_nearest (hne : target ≠ [])
    (h : IsNearest git.opens (fs.searchStart (Path.abs cwd.text target)) root) :
    fs.metadata target git cwd = git.metadataAt root (Path.abs cwd.text target) := by
  rw [metadata_of_ne fs git cwd hne, (climb?_searchStart_iff fs git cwd target).2 h]

end FileSystem

/-- something is stated about a repository if it has a page or an address -/
theorem Metadata.isSome_provenance? (m : Metadata) : m.provenance?.isSome = true ↔ m.url ≠ {} ∨ m.remote ≠ [] := by
  have hempty (s : RawText) : s.isEmpty = true ↔ s = {} := by
    constructor
    · intro h
      exact congrArg RawText.mk (List.isEmpty_iff.1 h)
    · rintro rfl
      rfl
  unfold provenance? RawText.orElse
  dsimp only
  by_cases hurl : m.url = {}
  · rw [if_pos ((hempty _).2 hurl)]
    by_cases hremote : m.remote = []
    · rw [hremote]
      simp [hurl, RawText.ofChars, RawText.isEmpty]
    · simp [hurl, hremote, RawText.ofChars, RawText.isEmpty]
  · have hpage : m.url.isEmpty = false := by simpa using (hempty _).not.2 hurl
    simp [hurl, hpage]

namespace FileSystem

variable {fs : FileSystem} {git : Git} {cwd : RootedPath} {target address : List Char}

/-- what an origin says about the sources, if its address has a page -/
theorem provenance_of_origin {page : RawText} (hne : target ≠ []) (h : fs.Origin git cwd target address)
    (hpage : Remote.webUrl address = .ok page) :
    ∃ p, fs.provenance target git cwd = .ok p ∧ (p.isSome = true ↔ address ≠ [] ∧ address ≠ ".git".toList) := by
  obtain ⟨root, hroot, horigin⟩ := h
  obtain ⟨m, hm, hremote, hurl, -⟩ := git.metadataAt_of_origin root (Path.abs cwd.text target) horigin hpage
  refine ⟨m.provenance?, ?_, ?_⟩
  · unfold provenance
    rw [metadata_of_nearest hne hroot, hm]
  · rw [m.isSome_provenance?, hremote, hurl, ← not_or, ← Remote.dropGit_eq_nil_iff]
    constructor
    · rintro (hpage' | hleft)
      · exact fun hnil => hpage' ((Remote.webUrl_eq_nil_iff hpage).2 (Remote.trimmed_eq_nil_of_dropGit hnil))
      · exact hleft
    · exact Or.inr

/-- without an origin nothing is stated -/
theorem provenance_of_noOrigin (hne : target ≠ []) (h : ∀ address, ¬fs.Origin git cwd target address) :
    fs.provenance target git cwd = .ok none := by
  unfold provenance
  cases hroot : climb? git.opens (fs.searchStart (Path.abs cwd.text target)) with
  | none => rw [metadata_of_ne fs git cwd hne, hroot]
  | some root =>
    have hnearest := (climb?_searchStart_iff fs git cwd target).1 hroot
    have hnone : git.origin? root = none := by
      rw [Option.eq_none_iff_forall_ne_some]
      exact fun address horigin => h address ⟨root, hnearest, horigin⟩
    obtain ⟨m, hm, hremote, hurl⟩ := git.metadataAt_of_noOrigin root (Path.abs cwd.text target) hnone
    have hnothing : m.provenance? = none := by
      rw [← Option.not_isSome_iff_eq_none, m.isSome_provenance?, hremote, hurl]
      simp
    rw [metadata_of_nearest hne hnearest, hm]
    dsimp only
    rw [hnothing]

/-- an origin whose address has no page leaves the question open -/
theorem provenance_of_dashFirst (hne : target ≠ []) (h : fs.Origin git cwd target address)
    (hdash : Remote.DashFirst address) : fs.provenance target git cwd = .error ⟨⟩ := by
  obtain ⟨root, hroot, horigin⟩ := h
  apply provenance_of_breakdown (by simpa using hne) ((climb?_searchStart_iff fs git cwd target).2 hroot) horigin
  exact Remote.webUrl_eq_error_iff.2 hdash

/-- unless the address of the origin is one without a page, it is known whether something is stated -/
theorem exists_provenance (hne : target ≠ [])
    (h : ¬∃ address, fs.Origin git cwd target address ∧ Remote.DashFirst address) :
    ∃ p, fs.provenance target git cwd = .ok p ∧
      (p.isSome = true ↔ ∃ address, fs.Origin git cwd target address ∧ address ≠ [] ∧ address ≠ ".git".toList) := by
  by_cases horigin : ∃ address, fs.Origin git cwd target address
  · obtain ⟨address, horigin⟩ := horigin
    cases hpage : Remote.webUrl address with
    | error e => exact absurd ⟨address, horigin, Remote.webUrl_eq_error_iff.1 hpage⟩ h
    | ok page =>
      obtain ⟨p, hp, hstated⟩ := provenance_of_origin hne horigin hpage
      refine ⟨p, hp, ?_⟩
      rw [hstated]
      constructor
      · intro haddress
        exact ⟨address, horigin, haddress⟩
      · rintro ⟨address', horigin', haddress'⟩
        rwa [horigin.unique horigin']
  · refine ⟨none, provenance_of_noOrigin hne (not_exists.1 horigin), iff_of_false nofun ?_⟩
    rintro ⟨address, haddress, -⟩
    exact horigin ⟨address, haddress⟩

end FileSystem

/-! ## Reports -/

/-- the report that says where its sources come from, whenever that is known -/
theorem sarif_of_provenance {p : Option Sarif.Provenance} (r : Result) (version guid : String)
    {known : Except Remote.Breakdown (Option Sarif.Provenance)} (h : known = .ok p) :
    ∃ rendering, renderReport "sarif" (some r) ⟨version, guid, known⟩ = .ok rendering ∧
      rendering.content = textBytes ((Sarif.document (Sarif.run r version guid p)).pretty ++ "\n") := by
  subst h
  have hreport : ReportFormat.sarif.report r ⟨version, guid, .ok p⟩ =
      .ok ((Sarif.document (Sarif.run r version guid p)).pretty ++ "\n") := rfl
  obtain ⟨rendering, hrender, hrenders⟩ := render_of_report hreport
  exact ⟨rendering, (renderReport_of_name (Or.inl rfl)).trans hrender, hrenders.content⟩

/-- **Every origin is stated, but for one kind of address.** Every address of a remote repository has a page, unless its
path on the host with nested groups starts with a part `-`. The page is empty exactly for an address of which nothing
is left when it is trimmed; otherwise it is that of a project with an owner and a name, or the trimmed address. So for
every target and every result there is a report, unless the target is in a repository whose origin has such an address,
and the report states where the sources come from exactly if the target is in a repository whose origin has an address
that is neither empty nor `.git`. That is so whatever opens as a repository and however its settings are read. -/
theorem origin_stated_or_breakdown (remote : List Char) (fs : FileSystem) (git : Git) (cwd : RootedPath)
    (target : List Char) (r : Result) (version guid : String) :
    ((Remote.webUrl remote = .error ⟨⟩ ↔ Remote.DashFirst remote) ∧
      ∀ page, Remote.webUrl remote = .ok page →
        (page = {} ↔ Remote.trimmed remote = []) ∧
        (page = .ofChars (Remote.trimmed remote) ∨ Remote.IsProjectPage page)) ∧
    (target ≠ [] →
      let report := renderReport "sarif" (some r) ⟨version, guid, fs.provenance target git cwd⟩
      (report = .error (.brokenDown ⟨⟩) ↔ ∃ address, fs.Origin git cwd target address ∧ Remote.DashFirst address) ∧
      ((¬∃ address, fs.Origin git cwd target address ∧ Remote.DashFirst address) →
        ∃ p rendering, fs.provenance target git cwd = .ok p ∧ report = .ok rendering ∧
          rendering.content = textBytes ((Sarif.document (Sarif.run r version guid p)).pretty ++ "\n") ∧
          (p.isSome = true ↔ ∃ address, fs.Origin git cwd target address ∧ address ≠ [] ∧ address ≠ ".git".toList))) := by
  constructor
  · refine ⟨Remote.webUrl_eq_error_iff, fun page hpage => ?_⟩
    exact ⟨Remote.webUrl_eq_nil_iff hpage, Remote.webUrl_cases hpage⟩
  · intro hne report
    by_cases hdash : ∃ address, fs.Origin git cwd target address ∧ Remote.DashFirst address
    · obtain ⟨address, horigin, haddress⟩ := hdash
      have hbroken : report = .error (.brokenDown ⟨⟩) := by
        unfold report
        rw [FileSystem.provenance_of_dashFirst hne horigin haddress]
        rfl
      refine ⟨iff_of_true hbroken ⟨address, horigin, haddress⟩, ?_⟩
      intro hnone
      exact absurd ⟨address, horigin, haddress⟩ hnone
    · obtain ⟨p, hp, hstated⟩ := FileSystem.exists_provenance hne hdash
      obtain ⟨rendering, hreport, hcontent⟩ := sarif_of_provenance r version guid hp
      constructor
      · refine iff_of_false ?_ hdash
        intro hbroken
        cases hreport.symm.trans hbroken
      · intro _
        exact ⟨p, rendering, hp, hreport, hcontent, hstated⟩

/-- a repository with an origin, and an address with white space around it -/
theorem origin_stated_or_breakdown_head :
    let page : RawText := .ofString "https://gitlab.com/acme/tools/app"
    let fs := headEnvironment.files
    Remote.webUrl "\tgit@gitlab.com:acme/tools/app.git\n".toList = .ok page ∧ page ≠ {} ∧
    ∃ address rendering, fs.Origin fs.git fs.cwdPath ".".toList address ∧ address ≠ [] ∧
      renderReport "sarif" (some .empty) ⟨"1.0", "id", fs.provenance ".".toList⟩ = .ok rendering := by
  intro page fs
  obtain ⟨⟨-, hpages⟩, hreports⟩ := origin_stated_or_breakdown "\tgit@gitlab.com:acme/tools/app.git\n".toList
    fs fs.git fs.cwdPath ".".toList .empty "1.0" "id"
  have hpage : Remote.webUrl "\tgit@gitlab.com:acme/tools/app.git\n".toList = .ok page := by cbv
  obtain ⟨hempty, -⟩ := hpages page hpage
  have hp : fs.provenance ".".toList = .ok (some ⟨"", acmePage, ""⟩) := provenance_headEnvironment
  obtain ⟨hbroken, hstated⟩ := hreports (by decide)
  have hclear : ¬∃ address, fs.Origin fs.git fs.cwdPath ".".toList address ∧ Remote.DashFirst address := by
    intro hdash
    obtain ⟨rendering, hreport, -⟩ := sarif_of_provenance .empty "1.0" "id" hp
    cases hreport.symm.trans (hbroken.2 hdash)
  obtain ⟨p', rendering, hp', hreport, -, hsome⟩ := hstated hclear
  rw [hp] at hp'
  obtain rfl := Except.ok.inj hp'
  obtain ⟨address, horigin, hne, -⟩ := hsome.1 rfl
  refine ⟨hpage, ?_, address, rendering, horigin, hne, hreport⟩
  intro hnil
  exact absurd (hempty.1 hnil) (by decide)

/-- **An address without a page, and a target without a report.** -/
theorem dashRemote_without_page :
    (¬∃ page, Remote.webUrl "https://gitlab.com/-/app".toList = .ok page) ∧
    ¬∃ rendering, renderReport "sarif" (some .empty) ⟨"1.0", "id", dashTree.provenance ".".toList⟩ = .ok rendering := by
  constructor
  · rintro ⟨page, hpage⟩
    have hbroken : Remote.webUrl "https://gitlab.com/-/app".toList = .error ⟨⟩ := by cbv
    cases hpage.symm.trans hbroken
  · rintro ⟨rendering, hreport⟩
    rw [provenance_dashTree] at hreport
    cases hreport

end AppAudit
