/-
Truth values of a configuration by their dotted names.

A name leads from record to record. Where it leads nowhere, to something that is no truth value, or to one that is not
set, the default counts.
-/
import AppAudit.Config.Basic

namespace AppAudit

inductive Field where
  | record (fields : List (String × Field))
  | flag (value : Option Bool)
  /-- something that is neither -/
  | other

namespace Field

/-- what a name leads to from a field on -/
def follow? : Field → List String → Option Field
  | f, [] => some f
  | record fields, name :: names => (fields.lookup name).bind fun f => f.follow? names
  | _, _ :: _ => none
termination_by _ names => names.length

/-- the truth value with a dotted name -/
def boolAt (f : Field) (path : String) (default : Bool) : Bool :=
  match f.follow? (path.splitOn ".") with
  | some (flag (some b)) => b
  | _ => default

end Field

def Config.toField (c : Config) : Field :=
  .record
    [("Logger", .record [("Level", .other), ("DisableTime", .flag c.logger.disableTime),
      ("JSONFormat", .flag c.logger.jsonFormat), ("IncludeLocation", .flag c.logger.includeLocation)]),
     ("Audit", .record [("Threads", .other), ("Format", .other)])]

def AuditFlags.toField (o : AuditFlags) : Field :=
  .record [("Format", .other), ("JSON", .flag o.json), ("OutputPath", .other), ("Threads", .other)]

end AppAudit
