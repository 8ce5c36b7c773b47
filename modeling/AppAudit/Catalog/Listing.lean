/-
The catalog as a listing, one entry per rule in running order, as a table or as JSON.

In the table every column but the last is padded with blanks to its widest cell and two more.
-/
import AppAudit.Catalog
import AppAudit.Json
import AppAudit.Text.Space

namespace AppAudit

/-- what a rule requires, in words -/
def Rule.requirement (r : Rule) : String := if r.requires.inScope then r.requires.names else "any"

/-- the cells of a rule -/
def Rule.cells (r : Rule) : List String := [r.id, r.category, r.requirement, r.description]

namespace Listing

def header : List String := ["ID", "CATEGORY", "REQUIRES", "DESCRIPTION"]

/-- blanks between columns -/
def gap : Nat := 2

/-- how wide each of the columns but the last is -/
def widths (rows : List (List String)) : List Nat :=
  rows.foldl (fun ws row => ws.zipWith max (row.map String.length)) ((header.dropLast).map String.length)

/-- a line of the table -/
def line : List Nat → List String → String
  | w :: ws, cell :: cells => padRight (w + gap) cell ++ line ws cells
  | _, cells => String.join cells ++ "\n"

/-- the table of a catalog -/
def table (rules : List Rule) : String :=
  let rows := header :: rules.map Rule.cells
  String.join (rows.map (line (widths rows)))

/-- the catalog as a JSON document -/
def document (rules : List Rule) : Json :=
  .arr (rules.map fun r => .obj [("id", .str r.id), ("category", .str r.category), ("requires", .str r.requirement),
    ("description", .str r.description)])

end Listing

end AppAudit
