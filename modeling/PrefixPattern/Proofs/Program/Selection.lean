import Mathlib
import PrefixPattern.Proofs.Json.RoundTrip
import PrefixPattern.Proofs.Lines
import PrefixPattern.Proofs.Program.Result
import PrefixPattern.Proofs.Report.Lines

/-!
# The sets that a build is about

A build compiles the sets that are named, or all sets if no name is given.  It goes through them in
the order of their names, whatever order they are asked for in, and the other sets of the
configuration might as well not be there.

## What is here

* `Surroundings.Builds` — what a run is given makes it a build of a configuration.
* `Surroundings.Builds.exists_shows` — what is seen of a build is what its configuration comes to.
* `quiet_buildConfig` — if all names are known, a build goes through the sets that are selected.
* `BuildArgs.Alike`, `Config.AgreesOn` — requests and configurations that cannot be told apart by a
  build.
* `build_selected` — the outcome of a build, by the sets that are selected and nothing else.
-/

set_option autoImplicit false

namespace PrefixPattern

open PrefixPattern.Action (quiet quiet_bind_of_ok)

/-! ## Builds -/

/-- The command line asks for sets of a configuration, and this is the configuration that is
found. -/
def Surroundings.Builds (s : Surroundings) (args : BuildArgs) (config : Config) : Prop :=
  ∃ requested path warnings,
    CommandLine.parse s.words s.config = .ok ⟨requested, some (.build args)⟩ ∧
      resolveConfig s.files requested s.directory = .ok (some path) ∧
      loadConfig s.files path = .ok (config, warnings)

/-- The set of a name is asked for. -/
def BuildArgs.Selects (args : BuildArgs) (name : String) : Prop :=
  args.names = [] ∨ name ∈ args.names

/-- Two requests for the same sets, in any order and with any repetitions. -/
structure BuildArgs.Alike (args args' : BuildArgs) : Prop where
  mem_names : ∀ name, name ∈ args'.names ↔ name ∈ args.names
  verify : args'.verify = args.verify
  output : args'.output = args.output

/-- The sets that are asked for are the same in both configurations. -/
def Config.AgreesOn (args : BuildArgs) (config config' : Config) : Prop :=
  ∀ name, args.Selects name → config'.sets.find? name = config.sets.find? name

variable {s : Surroundings} {args : BuildArgs} {config : Config}

section Found

variable {files : Files} {directory path : String} {requested : Option String}
variable {warnings : List Warning}

/-- **The sets of a configuration are in the order of their names.** -/
theorem Config.ascending_sets (h : loadConfig files path = .ok (config, warnings)) :
    config.sets.Ascending := by
  obtain ⟨hload, -⟩ := Action.withWarnings_eq_ok_iff.1 h
  rw [load] at hload
  cases hread : files.readText path with
  | error e =>
    rw [hread] at hload
    cases hload
  | ok content =>
    rw [hread] at hload
    exact ascending_sets_of_read hload

/-- What is seen of a build does not show where the configuration was found. -/
theorem quiet_buildSets (hresolve : resolveConfig files requested directory = .ok (some path))
    (hload : loadConfig files path = .ok (config, warnings)) :
    quiet (buildSets files directory requested args) = quiet (buildConfig path config args) := by
  have hfound : quiet (findPath files directory requested) = .ok path := by
    rw [findPath_eq hresolve]
    rfl
  have hconfig : quiet (Config.load files path) = .ok config :=
    Action.quiet_eq_ok_iff.2 (Action.withWarnings_eq_ok_iff.1 hload).1
  rw [buildSets, quiet_bind_of_ok hfound, quiet_bind_of_ok rfl, quiet_bind_of_ok hconfig]

end Found

theorem Surroundings.Builds.ascending (h : s.Builds args config) : config.sets.Ascending := by
  obtain ⟨_, _, _, -, -, hload⟩ := h
  exact Config.ascending_sets hload

/-- What is seen of a build are the reports that its configuration comes to. -/
theorem Surroundings.Builds.exists_shows (h : s.Builds args config) :
    ∃ path, (run s).Shows ((quiet (buildConfig path config args)).map args.output.sets) := by
  obtain ⟨requested, path, warnings, hparse, hresolve, hload⟩ := h
  have hshows := Outcome.shows_of_does (does_buildSets s.files s.directory requested args)
    args.output.pieces
  rw [quiet_buildSets hresolve hload] at hshows
  refine ⟨path, ?_⟩
  rw [run, hparse]
  exact hshows

/-! ## Sets that are selected -/

theorem BuildArgs.selects_iff {name : String} :
    args.Selects name ↔ (args.names.isEmpty || args.names.contains name) = true := by
  rw [Selects, Bool.or_eq_true, List.isEmpty_iff, List.contains_iff_mem]

theorem ascending_selectSets {names : List String} {sets : NameMap SetConfig}
    (h : sets.Ascending) : (selectSets names sets).Ascending :=
  h.filter _

theorem find?_selectSets {names : List String} {sets : NameMap SetConfig} (h : sets.Ascending)
    (name : String) :
    (selectSets names sets).find? name =
      if names.isEmpty || names.contains name then sets.find? name else none :=
  NameMap.find?_filter h (fun name => names.isEmpty || names.contains name) name

theorem mem_selectSets {sets : NameMap SetConfig} (h : sets.Ascending) {name : String}
    {set : SetConfig} :
    (name, set) ∈ selectSets args.names sets ↔
      args.Selects name ∧ sets.find? name = some set := by
  rw [selectSets, List.mem_filter, NameMap.mem_iff_find? h, and_comm, BuildArgs.selects_iff]

theorem mem_names_selectSets {sets : NameMap SetConfig} (h : sets.Ascending) {name : String} :
    name ∈ (selectSets args.names sets).names ↔ name ∈ sets.names ∧ args.Selects name := by
  rw [NameMap.mem_names_iff h, NameMap.mem_names_iff (ascending_selectSets h), and_comm,
    ← exists_and_left]
  simp only [← NameMap.mem_iff_find? (ascending_selectSets h), mem_selectSets h]

/-- **If all names are known, a build goes through the sets that are selected.** -/
theorem quiet_buildConfig (hknown : ∀ name ∈ args.names, name ∈ config.sets.names)
    (h : config.sets.Ascending) (path : String) :
    quiet (buildConfig path config args) =
      quiet (compileSets path args.verify (selectSets args.names config.sets)) := by
  have hnone : (args.names.find? fun name => (config.sets.find? name).isNone) = none := by
    rw [List.find?_eq_none]
    intro name hname hisNone
    obtain ⟨set, hset⟩ := (NameMap.mem_names_iff h).1 (hknown name hname)
    rw [hset] at hisNone
    cases hisNone
  rw [buildConfig, hnone]

/-- The same sets are selected by requests that are alike, from configurations that agree on
them. -/
theorem selectSets_congr {args' : BuildArgs} {config' : Config} (hargs : args.Alike args')
    (hconfig : config.AgreesOn args config') (h : config.sets.Ascending)
    (h' : config'.sets.Ascending) :
    selectSets args'.names config'.sets = selectSets args.names config.sets := by
  have hselects : ∀ name, args'.Selects name ↔ args.Selects name := by
    intro name
    rw [BuildArgs.Selects, BuildArgs.Selects, List.eq_nil_iff_forall_not_mem,
      List.eq_nil_iff_forall_not_mem]
    simp only [hargs.mem_names]
  refine NameMap.ext (ascending_selectSets h') (ascending_selectSets h) fun name => ?_
  rw [find?_selectSets h', find?_selectSets h]
  by_cases hname : args.Selects name
  · rw [if_pos (BuildArgs.selects_iff.1 ((hselects name).2 hname)),
      if_pos (BuildArgs.selects_iff.1 hname), hconfig name hname]
  · rw [if_neg (mt BuildArgs.selects_iff.2 (mt (hselects name).1 hname)),
      if_neg (mt BuildArgs.selects_iff.2 hname)]

/-! ## What a build comes to -/

/-- The set of the name compiles, and this is the report on it. -/
def Config.Reports (config : Config) (name : String) (r : Report) : Prop :=
  ∃ set p, config.sets.find? name = some set ∧
    Pattern.compile set.members set.options = .ok p ∧ r = .ofPattern (some name) p

/-- A set compiles, and its fragment is found right where that is checked. -/
def SetConfig.Passes (check : Bool) (set : SetConfig) : Prop :=
  ∃ p, Pattern.compile set.members set.options = .ok p ∧
    (check = true → verify p.fragment set.members = .ok ())

/-- Sets that all pass have their reports. -/
theorem exists_forall₂_isThrough {check : Bool} {sets : NameMap SetConfig} :
    (∃ reports, List.Forall₂ (IsThrough check) sets reports) ↔
      ∀ named ∈ sets, named.2.Passes check := by
  induction sets with
  | nil => simp
  | cons named rest ih =>
    rw [List.forall_mem_cons, ← ih]
    refine ⟨?_, ?_⟩
    · rintro ⟨_, hreports⟩
      obtain ⟨r, reports, ⟨p, hcompile, hverify, -⟩, hrest, -⟩ :=
        List.forall₂_cons_left_iff.1 hreports
      exact ⟨⟨p, hcompile, hverify⟩, reports, hrest⟩
    · rintro ⟨⟨p, hcompile, hverify⟩, reports, hrest⟩
      exact ⟨_, .cons ⟨p, hcompile, hverify, rfl⟩ hrest⟩

/-- The reports on sets carry their names, in the order of the sets. -/
theorem map_name_of_forall₂ {config : Config} {names : List String} {reports : List Report}
    (h : List.Forall₂ config.Reports names reports) :
    reports.map (fun r => r.name.getD "") = names := by
  induction h with
  | nil => rfl
  | cons hr _ ih =>
    obtain ⟨set, p, -, -, rfl⟩ := hr
    rw [List.map_cons, ih]
    rfl

/-- Reports with ascending names are printed as they come, and can be read from what is printed. -/
theorem Report.read?_sets {names : List String} {reports : List Report}
    (hnames : reports.map (fun r => r.name.getD "") = names) (h : names.Pairwise (· < ·)) :
    Json.read? (OutputFormat.json.sets reports) =
      some (.obj [("sets", .obj (reports.map fun r => (r.name.getD "", r.toJson)))]) := by
  have hascending : NameMap.Ascending (reports.map fun r => (r.name.getD "", r.toJson)) := by
    rw [NameMap.Ascending, NameMap.names, List.map_map]
    exact hnames ▸ h
  rw [OutputFormat.sets_json, Report.setsToJson, NameMap.ofList_eq hascending, Json.read?_line]

/-- What is seen of a build of known sets is what the selected ones come to. -/
theorem Surroundings.Builds.exists_shows_selected (h : s.Builds args config)
    (hknown : ∀ name ∈ args.names, name ∈ config.sets.names) :
    ∃ path, (run s).Shows
      ((quiet (compileSets path args.verify (selectSets args.names config.sets))).map
        args.output.sets) := by
  obtain ⟨path, hshows⟩ := h.exists_shows
  rw [quiet_buildConfig hknown h.ascending] at hshows
  exact ⟨path, hshows⟩

/-- A build that succeeds knows all names that it was given. -/
theorem Surroundings.Builds.known_of_success (h : s.Builds args config)
    (hexit : (run s).exit = .success) : ∀ name ∈ args.names, name ∈ config.sets.names := by
  intro name hname
  obtain ⟨path, hshows⟩ := h.exists_shows
  rw [NameMap.mem_names_iff h.ascending]
  by_contra hnone
  obtain ⟨unknown, hunknown⟩ : ∃ unknown,
      args.names.find? (fun name => (config.sets.find? name).isNone) = some unknown := by
    rw [← Option.isSome_iff_exists, List.find?_isSome]
    exact ⟨name, hname, by simpa [Option.eq_none_iff_forall_ne_some] using hnone⟩
  rw [buildConfig, hunknown] at hshows
  obtain ⟨text, htext⟩ := hshows.exit_eq_success_iff.1 hexit
  cases htext

theorem Surroundings.Builds.exit_eq_success_iff (h : s.Builds args config)
    (hknown : ∀ name ∈ args.names, name ∈ config.sets.names) :
    (run s).exit = .success ↔
      ∀ name set, args.Selects name → config.sets.find? name = some set →
        set.Passes args.verify := by
  obtain ⟨path, hshows⟩ := h.exists_shows_selected hknown
  rw [hshows.exit_eq_success_iff_of_map, exists_congr fun _ => quiet_compileSets_eq_ok_iff,
    exists_forall₂_isThrough]
  refine ⟨fun hall name set hname hset => hall (name, set) ?_, ?_⟩
  · exact (mem_selectSets h.ascending).2 ⟨hname, hset⟩
  · rintro hall ⟨name, set⟩ hmem
    obtain ⟨hname, hset⟩ := (mem_selectSets h.ascending).1 hmem
    exact hall name set hname hset

theorem Surroundings.Builds.exists_reports (h : s.Builds args config)
    (hknown : ∀ name ∈ args.names, name ∈ config.sets.names) (hexit : (run s).exit = .success) :
    ∃ names reports, names.Pairwise (· < ·) ∧
      (∀ name, name ∈ names ↔ name ∈ config.sets.names ∧ args.Selects name) ∧
      List.Forall₂ config.Reports names reports ∧
      (run s).printed = args.output.sets reports := by
  obtain ⟨path, hshows⟩ := h.exists_shows_selected hknown
  obtain ⟨reports, hreports⟩ := hshows.exit_eq_success_iff_of_map.1 hexit
  rw [hreports] at hshows
  refine ⟨(selectSets args.names config.sets).names, reports, ascending_selectSets h.ascending,
    fun name => mem_names_selectSets h.ascending, ?_, hshows.printed_eq⟩
  rw [NameMap.names, List.forall₂_map_left_iff]
  have hmem : ∀ named ∈ selectSets args.names config.sets,
      config.sets.find? named.1 = some named.2 := fun named hnamed =>
    ((mem_selectSets h.ascending).1 hnamed).2
  have hthrough := quiet_compileSets_eq_ok_iff.1 hreports
  refine ((List.forall₂_and_left _ _).2 ⟨hmem, hthrough⟩).imp ?_
  rintro ⟨name, set⟩ r ⟨hset, p, hcompile, -, rfl⟩
  exact ⟨set, p, hset, hcompile, rfl⟩

/-- Names that are known stay so where requests are alike and configurations agree. -/
theorem known_of_alike {args' : BuildArgs} {config' : Config} (hargs : args.Alike args')
    (hconfig : config.AgreesOn args config') (h : config.sets.Ascending)
    (h' : config'.sets.Ascending) (hknown : ∀ name ∈ args.names, name ∈ config.sets.names) :
    ∀ name ∈ args'.names, name ∈ config'.sets.names := by
  intro name hname
  have hrequested : name ∈ args.names := (hargs.mem_names name).1 hname
  rw [NameMap.mem_names_iff h', hconfig name (Or.inr hrequested), ← NameMap.mem_names_iff h]
  exact hknown name hrequested

/-- **A build is about the selected sets.**  It succeeds if these pass, whatever becomes of the
others.  If it succeeds, then every set that was asked for is reported exactly once, in the order of
the names, with what its own strings and options compile to.  These reports can be read from what is
printed, as an object for every name or, if no name or pattern would break them, as lines.  The exit
code and what is printed stay the same if the names are given in another order or repeatedly, and if
anything is changed about the sets that are not selected. -/
theorem build_selected (h : s.Builds args config)
    (hknown : ∀ name ∈ args.names, name ∈ config.sets.names) :
    ((run s).exit = .success ↔
        ∀ name set, args.Selects name → config.sets.find? name = some set →
          set.Passes args.verify) ∧
      ((run s).exit = .success →
        ∃ names reports, names.Pairwise (· < ·) ∧
          (∀ name, name ∈ names ↔ name ∈ config.sets.names ∧ args.Selects name) ∧
          List.Forall₂ config.Reports names reports ∧
          (run s).printed = args.output.sets reports ∧
          (args.output = .json →
            Json.read? (run s).printed = some (.obj [("sets", .obj (reports.map fun r =>
              (r.name.getD "", .obj [("pattern", .str r.pattern),
                ("matches_empty", .bool r.matchesEmpty), ("members", .num r.members)])))])) ∧
          (args.output = .text →
            (run s).printed =
              String.join (reports.map fun r => r.name.getD "-" ++ "\t" ++ r.pattern ++ "\n") ∧
            (Report.readLines? (run s).printed = some (reports.map Report.pair) ↔
              ∀ r ∈ reports,
                '\n' ∉ r.pair.1.toList ∧ '\t' ∉ r.pair.1.toList ∧ '\n' ∉ r.pair.2.toList))) ∧
      ∀ (s' : Surroundings) (args' : BuildArgs) (config' : Config), s'.Builds args' config' →
        args.Alike args' → config.AgreesOn args config' →
        (run s').exit = (run s).exit ∧ (run s').printed = (run s).printed := by
  refine ⟨h.exit_eq_success_iff hknown, fun hexit => ?_, ?_⟩
  · obtain ⟨names, reports, hnames, hmem, hreports, hprinted⟩ := h.exists_reports hknown hexit
    refine ⟨names, reports, hnames, hmem, hreports, hprinted, fun hjson => ?_, fun htext => ?_⟩
    · rw [hprinted, hjson]
      exact Report.read?_sets (map_name_of_forall₂ hreports) hnames
    · rw [hprinted, htext]
      exact ⟨rfl, Report.readLines?_eq_iff reports⟩
  · intro s' args' config' h' hargs hconfig
    have hknown' := known_of_alike hargs hconfig h.ascending h'.ascending hknown
    obtain ⟨path, hshows⟩ := h.exists_shows_selected hknown
    obtain ⟨path', hshows'⟩ := h'.exists_shows_selected hknown'
    rw [selectSets_congr hargs hconfig h.ascending h'.ascending, hargs.verify, hargs.output,
      quiet_compileSets_congr path' path] at hshows'
    exact hshows.congr hshows'

/-- A run in a directory that holds a configuration, among other files. -/
def Surroundings.beside (words : List String) (text : String) (others : Files) : Surroundings where
  words := words
  config := none
  log := none
  directory := "/"
  files path := if path = "/routeset.toml" then .ok (.file text.toUTF8) else others path
  stdin := .empty

section Beside

variable {words : List String} {text : String} {others : Files}

theorem Surroundings.files_beside :
    (beside words text others).files "/routeset.toml" = .ok (.file text.toUTF8) := by
  simp [beside]

/-- This configuration is the one that is found. -/
theorem Surroundings.resolveConfig_beside :
    resolveConfig (beside words text others).files none "/" = .ok (some "/routeset.toml") := by
  have hancestors : Path.ancestors "/" = ["/"] := by cbv
  have hcandidate : Path.join "/" configFileName = "/routeset.toml" := by cbv
  have hisFile : (beside words text others).files.isFile "/routeset.toml" = true := by
    rw [Files.isFile, files_beside]
  simp only [resolveConfig, findConfig]
  rw [hancestors, findAmong]
  simp only [hcandidate, hisFile, if_true]

theorem Surroundings.exists_loadConfig_beside
    (h : (Config.parse text "/routeset.toml").map Prod.fst = .ok config) :
    ∃ warnings, loadConfig (beside words text others).files "/routeset.toml" =
      .ok (config, warnings) := by
  have hload : loadConfig (beside words text others).files "/routeset.toml" =
      Config.parse text "/routeset.toml" := by
    rw [loadConfig, Config.load, Files.readText_eq files_beside]
    rfl
  rw [hload]
  cases hread : Config.parse text "/routeset.toml" with
  | error e => simp [hread, Except.map] at h
  | ok c =>
    obtain rfl : c.1 = config := by simpa [hread, Except.map] using h
    exact ⟨c.2, rfl⟩

theorem Surroundings.builds_beside
    (hparse : CommandLine.parse words none = .ok ⟨none, some (.build args)⟩)
    (hconfig : (Config.parse text "/routeset.toml").map Prod.fst = .ok config) :
    (beside words text others).Builds args config := by
  obtain ⟨warnings, hload⟩ := exists_loadConfig_beside hconfig
  exact ⟨none, "/routeset.toml", warnings, hparse, resolveConfig_beside, hload⟩

end Beside

/-- Names are given in the wrong order and repeatedly, and a set that does not compile is next to
those that are asked for.  Without it, and with the names in order, the run looks the same. -/
theorem build_selected_beside_empty :
    let s := Surroundings.beside ["build", "--verify", "-o", "json", "b", "a", "b"]
      ("version = 1\nsets.b.members = [\"xy\", \"xz\"]\nsets.c.members = [\"\"]\n" ++
        "sets.a.members = [\"x\", \"\"]\nsets.a.allow_empty = true\n")
      fun _ => .error .notFound
    let args : BuildArgs := ⟨["b", "a", "b"], true, .json⟩
    let config : Config := ⟨1, [("a", ⟨["x", ""], false, true⟩),
      ("b", ⟨["xy", "xz"], false, false⟩), ("c", ⟨[""], false, false⟩)]⟩
    let s' := Surroundings.beside ["build", "a", "--output=json", "--verify", "--", "b"]
      ("version = 1\nsets.b.members = [\"xy\", \"xz\"]\n" ++
        "sets.a.members = [\"x\", \"\"]\nsets.a.allow_empty = true\n")
      fun _ => .error .notFound
    let args' : BuildArgs := ⟨["a", "b"], true, .json⟩
    let config' : Config := ⟨1, [("a", ⟨["x", ""], false, true⟩),
      ("b", ⟨["xy", "xz"], false, false⟩)]⟩
    s.Builds args config ∧ (∀ name ∈ args.names, name ∈ config.sets.names) ∧
      s'.Builds args' config' ∧ args.Alike args' ∧ config.AgreesOn args config' ∧
      (run s).exit = .success ∧ (run s').exit = .success ∧ (run s').printed = (run s).printed ∧
      ∃ names reports, (∀ name, name ∈ names ↔ name ∈ config.sets.names ∧ args.Selects name) ∧
        List.Forall₂ config.Reports names reports ∧
        (run s).printed = args.output.sets reports ∧
        Json.read? (run s).printed = some (.obj [("sets", .obj (reports.map fun r =>
          (r.name.getD "", .obj [("pattern", .str r.pattern),
            ("matches_empty", .bool r.matchesEmpty), ("members", .num r.members)])))]) := by
  intro s args config s' args' config'
  obtain ⟨hbuilds, hbuilds'⟩ : s.Builds args config ∧ s'.Builds args' config' := by
    refine ⟨Surroundings.builds_beside (by decide +kernel) ?_,
      Surroundings.builds_beside (by decide +kernel) ?_⟩
    · dsimp only [config]
      cbv
    · dsimp only [config']
      cbv
  have hknown : ∀ name ∈ args.names, name ∈ config.sets.names := by decide
  have halike : args.Alike args' := by
    refine ⟨fun name => ?_, rfl, rfl⟩
    simp only [args, args', List.mem_cons, List.not_mem_nil]
    tauto
  have hselects : ∀ name, args.Selects name ↔ name = "a" ∨ name = "b" := by
    intro name
    simp only [BuildArgs.Selects, args, List.mem_cons, List.not_mem_nil, reduceCtorEq]
    tauto
  have hagrees : config.AgreesOn args config' := by
    intro name hname
    obtain rfl | rfl := (hselects name).1 hname <;> rfl
  obtain ⟨hexit, hreports, hsame⟩ := build_selected hbuilds hknown
  have hsuccess : (run s).exit = .success := by
    rw [hexit]
    intro name set hname hset
    obtain rfl | rfl := (hselects name).1 hname
    · obtain rfl : set = ⟨["x", ""], false, true⟩ := (Option.some.inj hset).symm
      exact ⟨⟨"(x)?", true, 2, 2⟩, by decide +kernel, fun _ => by cbv⟩
    · obtain rfl : set = ⟨["xy", "xz"], false, false⟩ := (Option.some.inj hset).symm
      exact ⟨⟨"x(y|z)", false, 2, 4⟩, by decide +kernel, fun _ => by cbv⟩
  obtain ⟨hexit', hprinted'⟩ := hsame s' args' config' hbuilds' halike hagrees
  obtain ⟨names, reports, -, hnames, hall, hprinted, hread, -⟩ := hreports hsuccess
  exact ⟨hbuilds, hknown, hbuilds', halike, hagrees, hsuccess, hexit'.trans hsuccess, hprinted',
    names, reports, hnames, hall, hprinted, hread rfl⟩

end PrefixPattern
