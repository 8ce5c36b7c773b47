/-
Rendering a result in one of the formats.

The text report is written line by line through a buffer, the JSON report at once, and the SARIF report as the document
and a final line break. There is no report without a result, and none in an unknown format; the empty format name stands
for plain text. Only the SARIF report asks where the sources come from, so only it can break down there.
-/
import AppAudit.Report.Format
import AppAudit.Report.Sarif
import AppAudit.Report.Sink
import AppAudit.Report.Text
import AppAudit.Repository.Remote

namespace AppAudit

def Snapshot.toJson (s : Snapshot) : Json :=
  .obj [("files_checked", .num s.filesChecked), ("issues", .arr (s.issues.map Json.str)),
    ("warnings", .arr (s.warnings.map Json.str)), ("passed_checks", .num s.passedChecks),
    ("compliant", .bool s.compliant)]

/-- the JSON report -/
def jsonReport (s : Snapshot) : String := s.toJson.pretty ++ "\n"

/-- what a report needs to know besides the result -/
structure ReportContext where
  toolVersion : String
  guid : String
  /-- where the sources come from, if the look-up did not break down -/
  provenance : Except Remote.Breakdown (Option Sarif.Provenance)

inductive ReportError where
  | noResult
  | unsupported (format : String)
  | brokenDown (cause : Remote.Breakdown)
deriving DecidableEq, Repr

def ReportError.text : ReportError → String
  | noResult => "result is nil"
  | unsupported format => "unsupported report format " ++ quoted format
  | brokenDown cause => cause.text

/-- the report of a result in a format -/
def ReportFormat.render (r : Result) (c : ReportContext) : ReportFormat → Except ReportError Rendering
  | text => .ok { chunks := (TextReport.lines r.snapshot).map textBytes, buffered := true }
  | json => .ok { chunks := [textBytes (jsonReport r.snapshot)], context := "failed to write report: " }
  | sarif =>
    match c.provenance with
    | .error e => .error (.brokenDown e)
    | .ok provenance =>
      .ok
        { chunks := [textBytes (Sarif.document (Sarif.run r c.toolVersion c.guid provenance)).pretty, textBytes "\n"]
          context := "failed to write SARIF report: " }

/-- the report in the format with a name -/
def renderReport (format : String) (r : Option Result) (c : ReportContext) : Except ReportError Rendering :=
  match r with
  | none => .error .noResult
  | some r =>
    match if format.isEmpty then some .text else ReportFormat.ofName? format with
    | some f => f.render r c
    | none => .error (.unsupported format)

end AppAudit
