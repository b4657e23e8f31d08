import PrefixPattern.Pattern
import PrefixPattern.NameMap
import PrefixPattern.Json.Basic

/-!
# Reports: compiled sets ready to be printed

## What is here

* `Report` — what is printed of one compiled set.
* `OutputFormat.pattern` — one report as the whole output: its fragment alone, or a JSON object.
* `OutputFormat.pieces`, `OutputFormat.sets` — reports by name, piece by piece and as a whole: a line
  with the name, a tab and the fragment for each, or one JSON object that holds an object for every
  name, in the order of the names.
-/

set_option autoImplicit false

namespace PrefixPattern

/-- A compiled set and its name, if it has one. -/
structure Report where
  name : Option String
  pattern : String
  matchesEmpty : Bool
  members : Nat
  deriving DecidableEq, Repr, Inhabited

namespace Report

/-- The report on a pattern. -/
def ofPattern (name : Option String) (p : Pattern) : Report :=
  ⟨name, p.fragment, p.matchesEmpty, p.members⟩

/-- The facts of a report, without the name. -/
def toJson (r : Report) : Json :=
  .obj [("pattern", .str r.pattern), ("matches_empty", .bool r.matchesEmpty),
    ("members", .num r.members)]

/-- The reports by name; of several with one name the last counts. -/
def setsToJson (reports : List Report) : Json :=
  let byName := NameMap.ofList (reports.map fun r => (r.name.getD "", r.toJson))
  .obj [("sets", .obj byName)]

/-- A report as one line: name, tab, fragment. -/
def line (r : Report) : String :=
  r.name.getD "-" ++ "\t" ++ r.pattern ++ "\n"

end Report

/-- How reports are printed. -/
inductive OutputFormat where
  | text
  | json
  deriving DecidableEq, Repr, Inhabited

namespace OutputFormat

/-- The output for a single set. -/
def pattern : OutputFormat → Report → String
  | text, r => r.pattern ++ "\n"
  | json, r => r.toJson.pretty ++ "\n"

/-- The texts that are printed one behind the other for sets by name. -/
def pieces : OutputFormat → List Report → List String
  | text, reports => reports.map Report.line
  | json, reports => [(Report.setsToJson reports).pretty ++ "\n"]

/-- The output for sets by name. -/
def sets (f : OutputFormat) (reports : List Report) : String :=
  String.join (f.pieces reports)

theorem sets_json (reports : List Report) :
    json.sets reports = (Report.setsToJson reports).pretty ++ "\n" := by
  simp [sets, pieces]

end OutputFormat
end PrefixPattern
