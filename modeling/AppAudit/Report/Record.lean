/-
A finding as a record for other programs.
-/
import AppAudit.Finding
import AppAudit.Json

namespace AppAudit

/-- the finding with its severity as a code; an unknown path is left out -/
def Finding.toJson (f : Finding) : Json :=
  .obj ([("rule_id", .str f.ruleId), ("severity", .num f.severity.code), ("category", .str f.category),
      ("file", .str f.file)]
    ++ (if f.path.isEmpty then [] else [("path", .str f.path)])
    ++ [("message", .str f.message)])

end AppAudit
