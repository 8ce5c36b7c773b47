/-
The report for code scanning tools: one SARIF run with a table of the rules that fired and one result per finding.

The table lists each rule once, where it first fired. A later finding of the same rule overwrites the description, level
and category of its entry, and every result points to its rule by position. Where the sources come from is added when a
repository is known.
-/
import AppAudit.Catalog
import AppAudit.Json
import AppAudit.Result

namespace AppAudit.Sarif

/-- an entry of the rule table -/
structure RuleEntry where
  id : String
  description : String
  level : String
  category : String
deriving DecidableEq, Repr

/-- a finding in the run -/
structure Entry where
  ruleId : String
  ruleIndex : Nat
  level : String
  message : String
  uri : String
deriving DecidableEq, Repr

/-- the repository that the sources belong to; what is empty is unknown -/
structure Provenance where
  branch : String
  repository : RawText
  revision : String
deriving DecidableEq, Repr

structure Run where
  toolVersion : String
  guid : String
  rules : List RuleEntry
  entries : List Entry
  provenance : Option Provenance
  compliant : Bool
  filesChecked : Int
  passedChecks : Int
deriving DecidableEq, Repr

/-! ## Building -/

def level : Severity → String
  | .issue => "error"
  | .warning => "warning"
  | .other _ => "none"

/-- what the catalog says about the rule, or else the category of the finding -/
def description (f : Finding) : String :=
  match Catalog.lookup? f.ruleId with
  | some r => r.description
  | none => f.category

def ruleEntry (f : Finding) : RuleEntry := ⟨f.ruleId, description f, level f.severity, f.category⟩

/-- puts an entry into the table, in place of an entry of the same rule if there is one -/
def putRule (e : RuleEntry) : List RuleEntry → List RuleEntry
  | [] => [e]
  | old :: rest => if old.id = e.id then e :: rest else old :: putRule e rest

/-- the result of one finding, given the rule table -/
def entry (table : List RuleEntry) (f : Finding) : Entry :=
  { ruleId := f.ruleId
    ruleIndex := table.findIdx fun e => e.id == f.ruleId
    level := level f.severity
    message := f.message
    uri := if f.path.isEmpty then f.file else f.path }

/-- a run in the making -/
structure Draft where
  rules : List RuleEntry
  entries : List Entry
deriving DecidableEq, Repr

/-- takes in one more finding: its rule is listed or overwritten, and its result points to where the rule stands now -/
def Draft.add (d : Draft) (f : Finding) : Draft :=
  let rules := putRule (ruleEntry f) d.rules
  { rules, entries := d.entries ++ [entry rules f] }

/-- takes in findings one after the other -/
def draft (findings : List Finding) : Draft := findings.foldl Draft.add ⟨[], []⟩

def run (r : Result) (toolVersion guid : String) (provenance : Option Provenance) : Run :=
  let d := draft r.findings
  { toolVersion, guid, provenance
    rules := d.rules
    entries := d.entries
    compliant := r.compliant
    filesChecked := r.filesChecked
    passedChecks := r.passedCount }

/-! ## Writing -/

/-- a member that is left out when its text is empty -/
def member? (name value : String) : List (String × Json) := if value.isEmpty then [] else [(name, .str value)]

def text (s : String) : Json := .obj [("text", .str s)]

def RuleEntry.toJson (e : RuleEntry) : Json :=
  .obj [("id", .str e.id), ("shortDescription", text e.description),
    ("defaultConfiguration", .obj [("level", .str e.level)]), ("properties", .obj [("category", .str e.category)])]

def Entry.toJson (e : Entry) : Json :=
  .obj [("ruleId", .str e.ruleId), ("ruleIndex", .num e.ruleIndex), ("level", .str e.level), ("message", text e.message),
    ("locations", .arr [.obj [("physicalLocation", .obj [("artifactLocation", .obj [("uri", .str e.uri)])])]])]

def Provenance.toJson (p : Provenance) : Json :=
  .obj (member? "branch" p.branch ++ [("repositoryUri", .raw p.repository)] ++ member? "revisionId" p.revision)

def Run.toJson (r : Run) : Json :=
  let driver : Json := .obj
    ([("informationUri", .str "https://github.com/scan-io-git/scan-io"), ("name", .str "mobileaudit"),
      ("rules", .arr (r.rules.map RuleEntry.toJson))] ++ member? "version" r.toolVersion)
  .obj
    ([("tool", .obj [("driver", driver)]), ("results", .arr (r.entries.map Entry.toJson)),
      ("automationDetails", .obj [("guid", .str r.guid)])]
    ++ (r.provenance.map fun p => ("versionControlProvenance", Json.arr [p.toJson])).toList
    ++ [("properties", .obj [("compliant", .bool r.compliant), ("files_checked", .num r.filesChecked),
        ("passed_checks", .num r.passedChecks)])])

/-- the document with its only run -/
def document (r : Run) : Json :=
  .obj [("version", .str "2.1.0"),
    ("$schema", .str "https://raw.githubusercontent.com/oasis-tcs/sarif-spec/main/sarif-2.1/schema/sarif-schema-2.1.0.json"),
    ("runs", .arr [r.toJson])]

end AppAudit.Sarif
