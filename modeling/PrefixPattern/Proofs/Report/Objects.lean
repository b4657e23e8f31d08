import PrefixPattern.Proofs.Json.RoundTrip
import PrefixPattern.Proofs.NameMap
import PrefixPattern.Report

/-!
# Reports as objects

Printed as JSON, reports are in no danger from the characters in them, unlike on lines of their own:
whatever a name or a pattern holds comes back when the text is read.  The names are the names of
fields, and sets of one name would share a field, of which the last set would get hold.  Where no
two sets go by the same name every one of them has a field, and the fields are in the order of the
names.

## What is here

* `Report.setsToJson_fields` — the fields for the sets are the reports with their names, in order.
* `Report.read?_json` — so they can be read from what is printed, and so can a single report.
-/

set_option autoImplicit false

namespace PrefixPattern
namespace Report

/-- The name of the field for a set; one without a name goes by the empty one. -/
def key (r : Report) : String :=
  r.name.getD ""

/-- Sets whose names differ have a field each, in the order of the names. -/
theorem setsToJson_fields {reports : List Report} (h : (reports.map key).Nodup) :
    ∃ fields : List (String × Json), setsToJson reports = .obj [("sets", .obj fields)] ∧
      (fields.map Prod.fst).Pairwise (· < ·) ∧
      fields.Perm (reports.map fun r => (r.key, r.toJson)) := by
  refine ⟨_, rfl, NameMap.ascending_ofList _, NameMap.perm_ofList ?_⟩
  rw [List.map_map]
  exact h

/-- **What is printed as JSON can be read.**  A single report comes back with its three facts.  Of
sets with different names every one comes back under its name and none comes back besides them, in
the order of the names. -/
theorem read?_json :
    let facts : Report → Json := fun r =>
      .obj [("pattern", .str r.pattern), ("matches_empty", .bool r.matchesEmpty),
        ("members", .num r.members)]
    (∀ r : Report, Json.read? (OutputFormat.json.pattern r) = some (facts r)) ∧
      ∀ reports : List Report, (reports.map key).Nodup →
        ∃ fields : List (String × Json),
          Json.read? (OutputFormat.json.sets reports) = some (.obj [("sets", .obj fields)]) ∧
            (fields.map Prod.fst).Pairwise (· < ·) ∧
            fields.Perm (reports.map fun r => (r.key, facts r)) := by
  intro facts
  refine ⟨fun r => Json.read?_line r.toJson, fun reports hnames => ?_⟩
  obtain ⟨fields, hfields, hascending, hperm⟩ := setsToJson_fields hnames
  refine ⟨fields, ?_, hascending, hperm⟩
  rw [OutputFormat.sets_json, hfields]
  exact Json.read?_line _

/-- Three sets in descending order: a name with a quote and a brace that could end an object, a
pattern with a line feed behind a backslash, another with control characters, and the empty
name. -/
theorem read?_json_quoted :
    let reports : List Report :=
      [⟨some "b\"\x7d, \"a", "x(\\\n|\\.)", false, 2⟩, ⟨some "a\\", "\x01\x1f\"é", false, 10 ^ 20⟩,
        ⟨some "", "(:\t)?", true, 0⟩]
    (reports.map key).Nodup ∧
      Json.read? (OutputFormat.json.sets reports) = some (.obj [("sets", .obj
        [("", .obj [("pattern", .str "(:\t)?"), ("matches_empty", .bool true),
            ("members", .num 0)]),
          ("a\\", .obj [("pattern", .str "\x01\x1f\"é"), ("matches_empty", .bool false),
            ("members", .num (10 ^ 20))]),
          ("b\"\x7d, \"a", .obj [("pattern", .str "x(\\\n|\\.)"), ("matches_empty", .bool false),
            ("members", .num 2)])])]) := by
  intro reports
  have hnames : (reports.map key).Nodup := by decide
  refine ⟨hnames, ?_⟩
  obtain ⟨fields, hread, hascending, hperm⟩ := read?_json.2 reports hnames
  have hfields : fields = (reports.map fun r => (r.key, r.toJson)).reverse :=
    NameMap.eq_of_perm hascending (by decide) (hperm.trans (List.reverse_perm _).symm)
  rw [hread, hfields]
  rfl

end Report
end PrefixPattern
