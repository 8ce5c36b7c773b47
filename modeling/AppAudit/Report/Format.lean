/-
The report formats and what goes with each of them: name, file extension, and the name of a report file.
-/

namespace AppAudit

inductive ReportFormat where
  | text
  | json
  | sarif
deriving DecidableEq, Repr

namespace ReportFormat

def name : ReportFormat → String
  | text => "text"
  | json => "json"
  | sarif => "sarif"

def all : List ReportFormat := [text, json, sarif]

/-- the format with a name -/
def ofName? (s : String) : Option ReportFormat := all.find? fun f => f.name == s

/-- the extension that goes with a format name; whatever is no other format is plain text -/
def extension (format : String) : String :=
  match ofName? format with
  | some .json => "json"
  | some .sarif => "sarif"
  | _ => "txt"

/-- the name of a report file -/
def fileName (format : String) : String := "mobileaudit-report." ++ extension format

end ReportFormat

end AppAudit
