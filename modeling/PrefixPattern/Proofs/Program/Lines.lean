import PrefixPattern.Proofs.Program.Selection

/-!
# The lines of a build

A build that succeeds with text output has a line for every set.  Whether these can be told from the
output depends on the names of the sets, and on the strings in them.

## What is here

* `Config.Lists` — the names and patterns of the sets that are asked for.
* `build_lines_iff` — they stand on the lines of the output just where no name and no string has a
  character in it that ends a line or a name.
* `build_lines_split` — one set on two lines, and two configurations with one output.
-/

set_option autoImplicit false

namespace PrefixPattern

section Builds

variable {s : Surroundings} {args : BuildArgs} {config : Config}

/-- The set of the name is compiled to the pattern. -/
def Config.Compiles (config : Config) (name pattern : String) : Prop :=
  ∃ set p, config.sets.find? name = some set ∧ Pattern.compile set.members set.options = .ok p ∧
    p.fragment = pattern

/-- The names of the sets that are asked for in ascending order, each with the pattern that its set
is compiled to. -/
structure Config.Lists (config : Config) (args : BuildArgs) (pairs : NameMap String) : Prop where
  ascending : pairs.Ascending
  mem_names : ∀ name, name ∈ pairs.names ↔ args.Selects name ∧ name ∈ config.sets.names
  mem_iff : ∀ name pattern,
    (name, pattern) ∈ pairs ↔ args.Selects name ∧ config.Compiles name pattern

/-- There is only one such list. -/
theorem Config.Lists.unique {pairs others : NameMap String} (h : config.Lists args pairs)
    (h' : config.Lists args others) : pairs = others := by
  refine NameMap.ext h.ascending h'.ascending fun name => Option.ext fun pattern => ?_
  rw [← NameMap.mem_iff_find? h.ascending, ← NameMap.mem_iff_find? h'.ascending, h.mem_iff,
    h'.mem_iff]

theorem Config.Reports.exists_pair {name : String} {r : Report} (h : config.Reports name r) :
    ∃ pattern, r.pair = (name, pattern) ∧
      ∀ other, config.Compiles name other ↔ other = pattern := by
  obtain ⟨set, p, hset, hp, rfl⟩ := h
  refine ⟨p.fragment, rfl, fun other => ⟨?_, ?_⟩⟩
  · rintro ⟨set', p', hset', hp', rfl⟩
    obtain rfl : set = set' := Option.some.inj (hset.symm.trans hset')
    obtain rfl : p = p' := Except.ok.inj (hp.symm.trans hp')
    rfl
  · rintro rfl
    exact ⟨set, p, hset, hp, rfl⟩

/-- What reports on sets print is the name of each with its pattern. -/
theorem map_pair_of_forall₂ {names : List String} {reports : List Report}
    (h : List.Forall₂ config.Reports names reports) :
    NameMap.names (reports.map Report.pair) = names ∧
      ∀ name pattern, (name, pattern) ∈ reports.map Report.pair ↔
        name ∈ names ∧ config.Compiles name pattern := by
  induction h with
  | nil => exact ⟨rfl, by simp⟩
  | cons hr _ ih =>
    obtain ⟨pattern, hpair, hcompiles⟩ := hr.exists_pair
    obtain ⟨hnames, hmem⟩ := ih
    refine ⟨?_, fun other text => ?_⟩
    · rw [List.map_cons, hpair]
      exact congrArg (_ :: ·) hnames
    · rw [List.map_cons, hpair, List.mem_cons, hmem, List.mem_cons, Prod.mk.injEq, or_and_right]
      refine or_congr_left (and_congr_right ?_)
      rintro rfl
      exact (hcompiles text).symm

/-- A build that succeeds with text output prints a report for every set that is asked for. -/
theorem Surroundings.Builds.exists_lists (h : s.Builds args config) (htext : args.output = .text)
    (hexit : (run s).exit = .success) :
    ∃ reports, config.Lists args (reports.map Report.pair) ∧
      (run s).printed = OutputFormat.text.sets reports := by
  obtain ⟨names, reports, hascends, hmem, hreports, hprinted⟩ :=
    h.exists_reports (h.known_of_success hexit) hexit
  obtain ⟨hnames, hpairs⟩ := map_pair_of_forall₂ hreports
  refine ⟨reports, ⟨?_, ?_, ?_⟩, ?_⟩
  · rw [NameMap.Ascending, hnames]
    exact hascends
  · intro name
    rw [hnames, hmem, and_comm]
  · intro name pattern
    rw [hpairs, hmem, and_comm (a := name ∈ _), and_assoc]
    refine and_congr_right fun _ => and_iff_right_of_imp ?_
    rintro ⟨set, p, hset, -, -⟩
    exact (NameMap.mem_names_iff h.ascending).2 ⟨set, hset⟩
  · rw [hprinted, htext]

/-- Whether a list of pairs can be read line by line, in terms of what is configured. -/
theorem Config.Lists.forall_mem_iff {pairs : NameMap String} (h : config.Lists args pairs)
    (hconfig : config.sets.Ascending) :
    (∀ q ∈ pairs, '\n' ∉ q.1.toList ∧ '\t' ∉ q.1.toList ∧ '\n' ∉ q.2.toList) ↔
      ∀ name set, args.Selects name → config.sets.find? name = some set →
        '\n' ∉ name.toList ∧ '\t' ∉ name.toList ∧ ∀ m ∈ set.members, '\n' ∉ m.toList := by
  have hfeed : ∀ {set : SetConfig} {p : Pattern},
      Pattern.compile set.members set.options = .ok p →
        ('\n' ∉ p.fragment.toList ↔ ∀ m ∈ set.members, '\n' ∉ m.toList) := fun hp => by
    rw [Pattern.mem_fragment_iff (by decide) hp]
    push Not
    rfl
  refine ⟨fun hall name set hname hset => ?_, ?_⟩
  · have hin : name ∈ pairs.names :=
      (h.mem_names name).2 ⟨hname, (NameMap.mem_names_iff hconfig).2 ⟨set, hset⟩⟩
    obtain ⟨pattern, hpattern⟩ := (NameMap.mem_names_iff h.ascending).1 hin
    have hpair := (NameMap.mem_iff_find? h.ascending).2 hpattern
    obtain ⟨-, set', p, hset', hp, rfl⟩ := (h.mem_iff _ _).1 hpair
    obtain rfl : set = set' := Option.some.inj (hset.symm.trans hset')
    obtain ⟨hlines, htabs, hpatterns⟩ := hall _ hpair
    exact ⟨hlines, htabs, (hfeed hp).1 hpatterns⟩
  · rintro hall ⟨name, pattern⟩ hpair
    obtain ⟨hname, set, p, hset, hp, rfl⟩ := (h.mem_iff _ _).1 hpair
    obtain ⟨hlines, htabs, hmembers⟩ := hall name set hname hset
    exact ⟨hlines, htabs, (hfeed hp).2 hmembers⟩

/-- The patterns of a list go on behind each of their line feeds. -/
theorem Config.Lists.continued {pairs : NameMap String} (h : config.Lists args pairs)
    {name pattern : String} (hpair : (name, pattern) ∈ pairs) : Continued pattern.toList := by
  obtain ⟨-, set, p, -, hp, rfl⟩ := (h.mem_iff _ _).1 hpair
  exact Pattern.continued_fragment hp

/-- **The lines of a build.**  A build that succeeds has one name and one pattern for every set that
is asked for.  They stand on the lines of its output, each set on a line of its own and its name in
front of the first tab, just where none of the names has a tab or a line feed in it and none of the
strings has a line feed.  Already if none of the names has a tab, no other names and patterns make
the same output. -/
theorem build_lines_iff (h : s.Builds args config) (htext : args.output = .text)
    (hexit : (run s).exit = .success) :
    ∃ pairs, config.Lists args pairs ∧
      (Report.readLines? (run s).printed = some pairs ↔
        ∀ name set, args.Selects name → config.sets.find? name = some set →
          '\n' ∉ name.toList ∧ '\t' ∉ name.toList ∧ ∀ m ∈ set.members, '\n' ∉ m.toList) ∧
      ∀ s' args' config' pairs', s'.Builds args' config' → args'.output = .text →
        (run s').exit = .success → config'.Lists args' pairs' →
        (∀ name ∈ pairs.names, '\t' ∉ name.toList) → (∀ name ∈ pairs'.names, '\t' ∉ name.toList) →
          (run s').printed = (run s).printed → pairs' = pairs := by
  obtain ⟨reports, hlists, hprinted⟩ := h.exists_lists htext hexit
  refine ⟨reports.map Report.pair, hlists, ?_, ?_⟩
  · rw [hprinted, Report.readLines?_eq_iff, ← hlists.forall_mem_iff h.ascending,
      List.forall_mem_map]
  · intro s' args' config' pairs' h' htext' hexit' hpairs' htabs htabs' hsame
    obtain ⟨others, hlists', hprinted'⟩ := h'.exists_lists htext' hexit'
    obtain rfl := hpairs'.unique hlists'
    refine Report.pairs_eq_of_sets_eq (fun r hr => ?_) (fun r hr => ?_)
      (hprinted'.symm.trans (hsame.trans hprinted))
    · have hmem := List.mem_map_of_mem (f := Report.pair) hr
      exact ⟨htabs' _ (List.mem_map_of_mem hmem), hlists'.continued hmem⟩
    · have hmem := List.mem_map_of_mem (f := Report.pair) hr
      exact ⟨htabs _ (List.mem_map_of_mem hmem), hlists.continued hmem⟩

end Builds

/-- Two sets that can be read line by line, one with a tab in a string and a backslash in front of
the tab behind its name.  Asked for by name and in another order, they are the same. -/
theorem build_lines_iff_tab :
    let text := "version = 1\nsets.\"b \\\\\".members = [\"x\\ty\", \"x\"]\n" ++
      "sets.a.members = [\"\"]\nsets.a.allow_empty = true\n"
    let s := Surroundings.beside ["build"] text fun _ => .error .notFound
    let s' := Surroundings.beside ["build", "--", "b \\", "a"] text fun _ => .error .notFound
    let config : Config :=
      ⟨1, [("a", ⟨[""], false, true⟩), ("b \\", ⟨["x\ty", "x"], false, false⟩)]⟩
    s.Builds ⟨[], false, .text⟩ config ∧ (run s).exit = .success ∧
      (run s).printed = "a\t\nb \\\tx(\\\ty)?\n" ∧
      ∃ pairs, config.Lists ⟨[], false, .text⟩ pairs ∧
        Report.readLines? (run s).printed = some pairs ∧ (run s').printed = (run s).printed ∧
        ∀ pairs', config.Lists ⟨["b \\", "a"], false, .text⟩ pairs' → pairs' = pairs := by
  intro text s s' config
  have hconfig : (Config.parse text "/routeset.toml").map Prod.fst = .ok config := by
    dsimp only [text, config]
    cbv
  have hbuilds : s.Builds ⟨[], false, .text⟩ config :=
    Surroundings.builds_beside (by decide +kernel) hconfig
  have hbuilds' : s'.Builds ⟨["b \\", "a"], false, .text⟩ config :=
    Surroundings.builds_beside (by decide +kernel) hconfig
  obtain ⟨hexit, hprinted, hexit', hsame⟩ : (run s).exit = .success ∧
      (run s).printed = "a\t\nb \\\tx(\\\ty)?\n" ∧
      (run s').exit = .success ∧ (run s').printed = (run s).printed := by
    decide +kernel
  obtain ⟨pairs, hlists, hread, hothers⟩ := build_lines_iff hbuilds rfl hexit
  have hnames : ∀ name ∈ config.sets.names, '\t' ∉ name.toList := by decide
  refine ⟨hbuilds, hexit, hprinted, pairs, hlists, hread.2 ?_, hsame, ?_⟩
  · intro name set _ hset
    have hmem := (NameMap.mem_iff_find? hbuilds.ascending).2 hset
    obtain ⟨rfl, rfl⟩ | ⟨rfl, rfl⟩ : name = "a" ∧ set = ⟨[""], false, true⟩ ∨
        name = "b \\" ∧ set = ⟨["x\ty", "x"], false, false⟩ := by
      simpa [config] using hmem
    · decide
    · decide
  · intro pairs' hpairs'
    exact hothers s' _ config pairs' hbuilds' rfl hexit' hpairs'
      (fun name hname => hnames name ((hlists.mem_names name).1 hname).2)
      (fun name hname => hnames name ((hpairs'.mem_names name).1 hname).2) hsame

/-- **Lines that split and names that merge.**  A line feed in a string makes two lines of one set.
A tab in a name can be taken for the one behind a shorter name: two configurations of one set each
have different names and different patterns, and the same output. -/
theorem build_lines_split :
    let nowhere : Files := fun _ => .error .notFound
    let s := Surroundings.beside ["build"] "version = 1\nsets.x.members = [\"a\\nb\"]\n" nowhere
    let t := Surroundings.beside ["build"]
      "version = 1\nsets.\"a\\tb\\\\\".members = [\"c\"]\n" nowhere
    let u := Surroundings.beside ["build"] "version = 1\nsets.a.members = [\"b\\tc\"]\n" nowhere
    ((run s).exit = .success ∧ (run s).printed = "x\ta\\\nb\n" ∧
        Report.readLines? (run s).printed = some [("x", "a\\"), ("b", "")]) ∧
      (Pattern.compile ["c"] {}).map Pattern.fragment = .ok "c" ∧
      (Pattern.compile ["b\tc"] {}).map Pattern.fragment = .ok "b\\\tc" ∧
      (run t).printed = OutputFormat.text.sets [⟨some "a\tb\\", "c", false, 1⟩] ∧
      (run u).printed = OutputFormat.text.sets [⟨some "a", "b\\\tc", false, 1⟩] ∧
      (run t).exit = .success ∧ (run u).exit = .success ∧ (run t).printed = (run u).printed := by
  decide +kernel

end PrefixPattern
