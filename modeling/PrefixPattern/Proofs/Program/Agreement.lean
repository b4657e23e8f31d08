import PrefixPattern.Proofs.CommandLine.Requests
import PrefixPattern.Proofs.Program.Selection

/-!
# Both commands agree

The same strings can be compiled as a set of a configuration, or from the command line and a file.
The two ways have their own options, their own errors and their own output, but what is compiled and
checked is the same list with the same options.

## What is here

* `shows_runCompile` — compiling strings, by the one check that both commands share.
* `shows_runBuild_singleton` — the same for one set of a configuration.
* `run_build_words`, `run_compile_words` — written requests are carried out.
* `build_agrees_with_compile` — the exit codes are the same, and so is all that is printed but for the
  name of the set.
-/

set_option autoImplicit false

namespace PrefixPattern

open PrefixPattern.Action (quiet quiet_bind_of_ok)

/-! ## One list of strings -/

/-- Compiling strings is checking the list that was gathered.  No strings at all are an error on both
ways. -/
theorem quiet_compileStrings {files : Files} {stdin : ByteArray} {args : CompileArgs}
    {strings : List String} (h : gatherStrings files stdin args = .ok strings) :
    quiet (compileStrings files stdin args) =
      quiet (compileChecked strings args.options args.verify .compile) := by
  rw [compileStrings, h, quiet_bind_of_ok rfl]
  split
  · rename_i hnil
    rw [hnil]
    rfl
  · rfl

/-- What is seen of compiling strings is the report on the list that was gathered. -/
theorem shows_runCompile {files : Files} {stdin : ByteArray} {args : CompileArgs}
    {strings : List String} (h : gatherStrings files stdin args = .ok strings) :
    (Outcome.ofAction (runCompile files stdin args)).Shows
      ((quiet (compileChecked strings args.options args.verify .compile)).map fun p =>
        args.output.pattern (.ofPattern none p)) := by
  have hshows := Outcome.shows_of_does (does_compileStrings files stdin args) fun p =>
    [args.output.pattern (.ofPattern none p)]
  simp only [quiet_compileStrings h, String.join_cons, String.join_nil, String.append_empty]
    at hshows
  exact hshows

/-- Only the set of the name is selected. -/
theorem selectSets_singleton {sets : NameMap SetConfig} {name : String} {set : SetConfig}
    (h : sets.Ascending) (hset : sets.find? name = some set) :
    selectSets [name] sets = [(name, set)] := by
  refine NameMap.ext (ascending_selectSets h) (List.pairwise_singleton _ _) fun other => ?_
  rw [find?_selectSets h]
  by_cases hother : other = name
  · subst hother
    rw [if_pos (by simp), hset, NameMap.find?, List.lookup_cons_self]
  · rw [if_neg (by simpa using hother), NameMap.find?, List.lookup_cons, beq_false_of_ne hother]
    rfl

/-- Building one set is checking its members, and the report has its name. -/
theorem quiet_buildConfig_singleton {config : Config} {args : BuildArgs} {name : String}
    {set : SetConfig} (hnames : args.names = [name]) (h : config.sets.Ascending)
    (hset : config.sets.find? name = some set) (path : String) :
    quiet (buildConfig path config args) =
      (quiet (compileChecked set.members set.options args.verify .compile)).map fun p =>
        [.ofPattern (some name) p] := by
  have hknown : ∀ name ∈ args.names, name ∈ config.sets.names := by
    rw [hnames, List.forall_mem_singleton, NameMap.mem_names_iff h]
    exact ⟨set, hset⟩
  rw [quiet_buildConfig hknown h, hnames, selectSets_singleton h hset, quiet_compileSets_cons]
  cases quiet (compileChecked set.members set.options args.verify .compile) <;> rfl

/-- The line of one set is that of its pattern, with the name in front of it. -/
theorem sets_text_singleton (name : String) (p : Pattern) :
    OutputFormat.text.sets [.ofPattern (some name) p] =
      name ++ "\t" ++ OutputFormat.text.pattern (.ofPattern none p) := by
  simp [OutputFormat.sets, OutputFormat.pieces, OutputFormat.pattern, Report.line,
    Report.ofPattern, String.append_assoc]

/-- What is seen of building one set is the report on its members. -/
theorem shows_runBuild_singleton {files : Files} {directory path name : String}
    {requested : Option String} {config : Config} {warnings : List Warning} {args : BuildArgs}
    {set : SetConfig} (hresolve : resolveConfig files requested directory = .ok (some path))
    (hload : loadConfig files path = .ok (config, warnings)) (hnames : args.names = [name])
    (hset : config.sets.find? name = some set) :
    (Outcome.ofAction (runBuild files directory requested args)).Shows
      ((quiet (compileChecked set.members set.options args.verify .compile)).map fun p =>
        args.output.sets [.ofPattern (some name) p]) := by
  have hshows := Outcome.shows_of_does (does_buildSets files directory requested args)
    args.output.pieces
  rw [quiet_buildSets hresolve hload,
    quiet_buildConfig_singleton hnames (Config.ascending_sets hload) hset] at hshows
  generalize quiet (compileChecked _ _ _ _) = checked at hshows ⊢
  cases checked <;> exact hshows

/-! ## Both ways to say the same -/

/-- A written request to compile sets is carried out, unless the environment has an empty
configuration. -/
theorem run_build_words (s : Surroundings) (args : BuildArgs) :
    run { s with words := args.words } =
      if s.config = some "" then
        .ofInterruption (.usage (.invalidValue ValueOption.config.label))
      else .ofAction (runBuild s.files s.directory s.config args) := by
  simp only [run, args.parse_words]
  by_cases hempty : s.config = some ""
  · simp only [hempty, if_true, refuse]
  · simp only [hempty, if_false]

/-- A written request to compile strings is carried out under the same condition, although it has
nothing to do with configurations. -/
theorem run_compile_words (s : Surroundings) (args : CompileArgs) (h : args.source ≠ some "") :
    run { s with words := args.words } =
      if s.config = some "" then
        .ofInterruption (.usage (.invalidValue ValueOption.config.label))
      else .ofAction (runCompile s.files s.stdin args) := by
  simp only [run, CompileArgs.parse_words h]
  by_cases hempty : s.config = some ""
  · simp only [hempty, if_true, refuse]
  · simp only [hempty, if_false]

/-- **The commands agree.**  A set of a configuration is built, and the same strings are compiled
from the command line and a file, with the same options.  No file lies at the empty path, and the
path of the standard input is not that of a file.  Both runs end with the same exit code, which is
success if the set passes.  They report the same pattern then, matching the empty string alike, with
as many members: the line that is printed for the set is that of the pattern with the name in front
of it, and the object that can be read for the set is the very object that is printed for the
pattern. -/
theorem build_agrees_with_compile {s : Surroundings} {config : Config} {warnings : List Warning}
    {path name source text : String} {strings members : List String} {wrap allowEmpty : Bool}
    (hresolve : resolveConfig s.files s.config s.directory = .ok (some path))
    (hload : loadConfig s.files path = .ok (config, warnings))
    (hset : config.sets.find? name = some ⟨strings ++ members, wrap, allowEmpty⟩)
    (hsource : s.files source = .ok (.file text.toUTF8)) (hne : source ≠ "")
    (hdash : Path.isName "-" source = false) (hlines : OnePerLine members text.toList)
    (hfits : ∀ b ∈ members, FitsOnLine b) (verify : Bool) (format : OutputFormat) :
    let build := run { s with words := BuildArgs.words ⟨[name], verify, format⟩ }
    let compile := run { s with
      words := CompileArgs.words ⟨strings, some source, wrap, allowEmpty, verify, format⟩ }
    build.exit = compile.exit ∧
      (compile.exit = .success ↔
        s.config ≠ some "" ∧ SetConfig.Passes verify ⟨strings ++ members, wrap, allowEmpty⟩) ∧
      (compile.exit = .success → ∃ p,
        Pattern.compile (strings ++ members) ⟨wrap, .ofAllow allowEmpty⟩ = .ok p ∧
          (format = .text →
            compile.printed = p.fragment ++ "\n" ∧
              build.printed = name ++ "\t" ++ compile.printed) ∧
          (format = .json → ∃ object,
            object = .obj [("pattern", .str p.fragment), ("matches_empty", .bool p.matchesEmpty),
              ("members", .num p.members)] ∧
            Json.read? compile.printed = some object ∧
            Json.read? build.printed = some (.obj [("sets", .obj [(name, object)])]))) := by
  intro build compile
  let request : CompileArgs := ⟨strings, some source, wrap, allowEmpty, verify, format⟩
  have hgather : gatherStrings s.files s.stdin request = .ok (strings ++ members) := by
    simp only [request, gatherStrings, hlines.readMembers hfits hdash hsource]
  have hbuild : build = _ := run_build_words s ⟨[name], verify, format⟩
  have hcompile : compile = _ := run_compile_words s request (mt Option.some.inj hne)
  rw [hbuild, hcompile]
  by_cases hempty : s.config = some ""
  · rw [if_pos hempty, if_pos hempty]
    refine ⟨rfl, iff_of_false ?_ (fun h => h.1 hempty), ?_⟩ <;> rintro ⟨⟩
  · rw [if_neg hempty, if_neg hempty]
    -- both commands come down to the same check
    let checked := compileChecked (strings ++ members) ⟨wrap, .ofAllow allowEmpty⟩ verify .compile
    have hbuilt : (Outcome.ofAction
        (runBuild s.files s.directory s.config ⟨[name], verify, format⟩)).Shows
          ((quiet checked).map fun p => format.sets [.ofPattern (some name) p]) :=
      shows_runBuild_singleton hresolve hload rfl hset
    have hcompiled : (Outcome.ofAction (runCompile s.files s.stdin request)).Shows
        ((quiet checked).map fun p => format.pattern (.ofPattern none p)) :=
      shows_runCompile hgather
    refine ⟨hcompiled.exit_congr hbuilt, ?_, fun hexit => ?_⟩
    · rw [hcompiled.exit_eq_success_iff_of_map, and_iff_right hempty]
      exact exists_congr fun _ => quiet_compileChecked_eq_ok_iff
    · obtain ⟨p, hp⟩ := hcompiled.exit_eq_success_iff_of_map.1 hexit
      rw [hp] at hbuilt hcompiled
      rw [hbuilt.printed_eq, hcompiled.printed_eq]
      refine ⟨p, (quiet_compileChecked_eq_ok_iff.1 hp).1, fun htext => ?_, fun hjson => ?_⟩
      · rw [htext]
        exact ⟨rfl, sets_text_singleton name p⟩
      · rw [hjson]
        exact ⟨_, rfl, Json.read?_line _, Report.read?_sets rfl (List.pairwise_singleton _ _)⟩

/-- A set whose name looks like a flag, with half of its strings in a file of mixed line ends. -/
theorem build_agrees_with_compile_mixed :
    let s := Surroundings.beside []
      ("version = 1\nsets.\"-h\".members = [\"\", \"a\", \"b\", \"c\"]\n" ++
        "sets.\"-h\".allow_empty = true\n")
      fun path => if path = "list" then .ok (.file "b\r\n\nc".toUTF8) else .error .notFound
    let build := run { s with words := ["build", "--verify", "-o", "json", "--", "-h"] }
    let compile := run { s with words :=
      ["compile", "--from=list", "--allow-empty", "--verify", "-o", "json", "--", "", "a"] }
    let object : Json :=
      .obj [("pattern", .str "(a|b|c)?"), ("matches_empty", .bool true), ("members", .num 4)]
    build.exit = .success ∧ compile.exit = .success ∧
      Json.read? compile.printed = some object ∧
      Json.read? build.printed = some (.obj [("sets", .obj [("-h", object)])]) := by
  intro s build compile object
  have hpattern : Pattern.compile (["", "a"] ++ ["b", "c"]) ⟨false, .ofAllow true⟩ =
      .ok ⟨"(a|b|c)?", true, 4, 4⟩ := by decide +kernel
  have hpasses : SetConfig.Passes true ⟨["", "a"] ++ ["b", "c"], false, true⟩ :=
    ⟨_, hpattern, fun _ => by cbv⟩
  have hconfig : (Config.parse
      ("version = 1\nsets.\"-h\".members = [\"\", \"a\", \"b\", \"c\"]\n" ++
        "sets.\"-h\".allow_empty = true\n") "/routeset.toml").map Prod.fst =
      .ok ⟨1, [("-h", ⟨["", "a", "b", "c"], false, true⟩)]⟩ := by cbv
  obtain ⟨warnings, hload⟩ : ∃ warnings, loadConfig s.files "/routeset.toml" = .ok (_, warnings) :=
    Surroundings.exists_loadConfig_beside hconfig
  have hsource : s.files "list" = .ok (.file "b\r\n\nc".toUTF8) := by
    simp [s, Surroundings.beside]
  have hlines : OnePerLine ["b", "c"] "b\r\n\nc".toList :=
    .line "b" true (.blank false (.last "c"))
  have hfits : ∀ b ∈ ["b", "c"], FitsOnLine b := by
    intro b hb
    obtain rfl | rfl : b = "b" ∨ b = "c" := by simpa using hb
    · exact ⟨by decide, by decide, by decide⟩
    · exact ⟨by decide, by decide, by decide⟩
  have hset : NameMap.find? [("-h", ⟨["", "a", "b", "c"], false, true⟩)] "-h" =
      some (⟨["", "a"] ++ ["b", "c"], false, true⟩ : SetConfig) := rfl
  obtain ⟨hexit, hsuccess, hreports⟩ :=
    build_agrees_with_compile Surroundings.resolveConfig_beside hload hset hsource (by decide)
      (by decide) hlines hfits true .json
  have hcompiled : compile.exit = .success := hsuccess.2 ⟨by decide, hpasses⟩
  obtain ⟨p, hp, -, hjson⟩ := hreports hcompiled
  obtain rfl : _ = p := Except.ok.inj (hpattern.symm.trans hp)
  obtain ⟨_, rfl, hcompile, hbuild⟩ := hjson rfl
  exact ⟨hexit.trans hcompiled, hcompiled, hcompile, hbuild⟩

end PrefixPattern
