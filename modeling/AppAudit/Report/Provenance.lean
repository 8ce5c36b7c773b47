/-
Where the audited sources come from, as reports state it.

Nothing is stated without a repository, or when the repository comes from nowhere.
-/
import AppAudit.Report.Sarif
import AppAudit.Repository.Metadata

namespace AppAudit

/-- what reports state about a repository -/
def Metadata.provenance? (m : Metadata) : Option Sarif.Provenance :=
  let page := m.url.orElse (.ofChars m.remote)
  if page.isEmpty then none
  else some ⟨String.ofList m.branch, page, String.ofList m.commit⟩

/-- what reports state about the sources at a path, if the look-up does not break down; nothing about no path -/
def FileSystem.provenance (fs : FileSystem) (target : List Char) (git : Git := fs.git)
    (cwd : RootedPath := fs.cwdPath) : Except Remote.Breakdown (Option Sarif.Provenance) :=
  match fs.metadata target git cwd with
  | .ok m => .ok m.provenance?
  | .error (.remote e) => .error e
  | .error _ => .ok none

end AppAudit
