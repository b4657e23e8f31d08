import PrefixPattern.Proofs.Discovery.Trial

/-!
# Where a configuration is found

The search goes upwards in the text of a path: it takes one component after the other away.  The
directories where it looks are therefore those that the path passes on its way, and these are above
the one where it leads as long as the path is straight.  A path such as `a/../b` passes the
directory `a`, which is beside `b`, and a configuration there is found.

## What is here

* `FileSystem.IsConfigIn` — what is found, as the file system sees it.
* `FileSystem.LeadsTo.exists_of_findConfig` — a configuration that is found is in a directory that
  the path passes.
* `FindsAbove` — all that is found from a path is in the directory of the path or above it;
  `findsAbove_of_isStraight`, `findsAbove_of_notMem` have it of straight paths, and of paths without
  `..` in particular.
* `isStraight_of_findsAbove` — among plain paths, it holds of no others.
* `findConfig_above` — these together.
* `findConfig_beside` — a configuration beside the directory where the search began.
-/

set_option autoImplicit false

namespace PrefixPattern

open FileTree (Place)

variable {s : FileSystem} {start path d : String} {place : Place} {way : List String}

/-! ## On the way -/

namespace FileSystem

/-- The path is that of a configuration, which is in the directory. -/
def IsConfigIn (s : FileSystem) (path : String) (directory : Place) : Prop :=
  ∃ content, s.locate path = .ok ((configFileName, .file content) :: directory)

theorem IsConfigIn.unique {directory directory' : Place} (h : s.IsConfigIn path directory)
    (h' : s.IsConfigIn path directory') : directory = directory' := by
  obtain ⟨content, hcontent⟩ := h
  obtain ⟨content', hcontent'⟩ := h'
  rw [hcontent] at hcontent'
  cases hcontent'
  rfl

theorem LeadsTo.isConfigIn_of_holdsConfig (h : s.LeadsTo start place)
    (hd : d ∈ Path.ancestors start) (hconfig : s.files.HoldsConfig d) :
    ∃ passed, s.Passes start (Path.steps d) passed place ∧
      s.IsConfigIn (Path.join d configFileName) passed := by
  obtain ⟨passed, hpasses, ⟨entries, hentries⟩, hentry⟩ := h.exists_passes hd
  obtain ⟨content, hcontent⟩ := Files.isFile_iff.1 hconfig
  obtain ⟨found, hfound, hfile⟩ := files_eq_ok_iff.1 hcontent
  have hfollow := hfound
  rw [hentry _ isEntryName_config (locate_eq_ok_iff.1 hfound).1.length_le,
    FileTree.follow_eq_ok_iff isEntryName_config hentries] at hfollow
  obtain ⟨t, -, rfl⟩ := hfollow
  cases t with
  | file content' => exact ⟨passed, hpasses, content', hfound⟩
  | directory entries => cases hfile

/-- **A configuration that is found is in a directory that the path passes.** -/
theorem LeadsTo.exists_of_findConfig (h : s.LeadsTo start place)
    (hfound : findConfig s.files start = some path) :
    ∃ way passed, s.Passes start way passed place ∧ s.IsConfigIn path passed := by
  obtain ⟨before, d, after, hcut, rfl, hconfig, -⟩ := findAmong_eq_some_iff.1 hfound
  have hd : d ∈ Path.ancestors start := by
    rw [hcut]
    exact List.mem_append_right _ List.mem_cons_self
  exact ⟨_, h.isConfigIn_of_holdsConfig hd hconfig⟩

end FileSystem

/-! ## Straight paths -/

/-- Whatever is found from the path is in the directory where it leads or above it, in all file
systems that have one there. -/
def FindsAbove (start : String) : Prop :=
  ∀ (s : FileSystem) (place : Place) (path : String), s.LeadsTo start place →
    findConfig s.files start = some path →
      ∃ directory, s.IsConfigIn path directory ∧ directory <:+ place

theorem findsAbove_of_isStraight (h : Path.IsStraight start) : FindsAbove start := by
  intro s place path hstart hfound
  obtain ⟨way, passed, hpasses, hin⟩ := hstart.exists_of_findConfig hfound
  refine ⟨passed, hin, ?_⟩
  have horigin : s.root.IsPlace (s.origin start) := FileSystem.isPlace_origin
  have hpassed := hpasses.followAll_eq
  have hplace := (FileSystem.leadsTo_iff.1 hstart).2.2
  rw [(horigin.followAll hpassed).suffix_iff (horigin.followAll hplace),
    FileTree.names_followAll hpassed, FileTree.names_followAll hplace]
  refine h.behind_suffix (fun habsolute => ?_) hpasses.mem_inits
  rw [FileSystem.origin, if_pos habsolute]
  rfl

/-- **What is found from a path without `..` is in its directory or above it.** -/
theorem findsAbove_of_notMem (h : ".." ∉ Path.steps start) : FindsAbove start :=
  findsAbove_of_isStraight (Path.isStraight_of_notMem h)

/-! ## All other paths -/

/-- Where only configurations above a path are found, every beginning of it leads to a directory
above it: otherwise there could be a configuration there. -/
theorem FindsAbove.behind_suffix (hfinds : FindsAbove start) (h : IsPlain start)
    {current : List String} (hcurrent : ∀ name ∈ current, name ∈ directoryNames start)
    (habsolute : Path.isAbsolute start.toList → current = [])
    (hway : way ∈ (Path.steps start).inits) :
    (Path.route way).behind current <:+ (Path.route (Path.steps start)).behind current := by
  by_contra hbeside
  have hempty : start ≠ "" := by
    rintro rfl
    obtain rfl : way = [] := List.mem_singleton.1 hway
    exact hbeside List.suffix_rfl
  -- the configurations are in all directories that are not above the one of the path
  let t : Trial start := ⟨h, hempty, current, hcurrent, habsolute, fun names =>
    !decide (names <:+ (Path.route (Path.steps start)).behind current)⟩
  have hholds : t.holds ((Path.route way).behind t.current) = true := by
    simpa [t] using hbeside
  obtain ⟨path, hfound⟩ := Trial.exists_findConfig hway hholds
  obtain ⟨directory, ⟨content, hin⟩, habove⟩ := hfinds _ _ _ t.leadsTo hfound
  have hplace := FileSystem.isPlace_of_locate hin
  rw [Uniform.eq_place_of_suffix habove] at hplace
  have hconfig : t.holds directory.names = true := Uniform.holds_of_isPlace hplace
  have hnot : ¬ directory.names <:+ (Path.route (Path.steps start)).behind current := by
    simpa [t] using hconfig
  have hnames : directory.names <:+ (t.place (Path.steps start)).names := habove.map Prod.fst
  rw [Trial.names_place] at hnames
  exact hnot hnames

theorem isStraight_of_findsAbove (h : IsPlain start) (hfinds : FindsAbove start) :
    Path.IsStraight start := by
  refine Path.isStraight_of_behind_suffix (fun way hway => ?_) fun habsolute name hname n => ?_
  · exact hfinds.behind_suffix h (List.forall_mem_nil _) (fun _ => rfl) hway
  · have hcurrent : ∀ step ∈ List.replicate n name, step ∈ directoryNames start := by
      intro step hstep
      rw [List.eq_of_mem_replicate hstep, directoryNames, List.mem_dedup]
      exact List.mem_append_right _ hname
    have hnil := hfinds.behind_suffix h hcurrent (fun hroot => absurd hroot habsolute)
      ((List.mem_inits _ _).2 List.nil_prefix)
    exact hnil

/-- **What is found is above the directory of a path, as long as the path is straight.**  A
configuration that is found is in a directory that the path passes on its way.  If the path is
straight, this is the directory where it leads or one above it, and for any other plain path there
is a file system in which it is neither. -/
theorem findConfig_above (start : String) :
    (∀ (s : FileSystem) (place : Place) (path : String), s.LeadsTo start place →
      findConfig s.files start = some path →
        ∃ way passed, s.Passes start way passed place ∧ s.IsConfigIn path passed) ∧
      (Path.IsStraight start → FindsAbove start) ∧
      (IsPlain start → FindsAbove start → Path.IsStraight start) :=
  ⟨fun _ _ _ => FileSystem.LeadsTo.exists_of_findConfig, findsAbove_of_isStraight,
    isStraight_of_findsAbove⟩

/-! ## Above and beside -/

/-- A directory with a configuration and another directory in it. -/
def configured : FileTree :=
  .directory [(configFileName, .file .empty), ("x", .directory [])]

/-- The directory `a` is this one, and `b` has nothing in it. -/
def sideBySide : FileSystem where
  root := .directory [("a", configured), ("b", .directory [])]
  current := []
  isProper := by
    have hempty : FileTree.IsProper (.directory []) :=
      .directory List.nodup_nil (List.forall_mem_nil _) (List.forall_mem_nil _)
    have hconfigured : configured.IsProper :=
      .directory (by decide) (by decide) (by simp [hempty, FileTree.IsProper.file])
    exact .directory (by decide) (by decide) (by simp [hempty, hconfigured])
  isPlace := trivial
  isDirectory := ⟨_, rfl⟩

/-- From a path that takes a name back and names it again, a configuration above it is found; a path
that goes up from the current directory, and down from there, can find one that is not. -/
theorem findConfig_above_again :
    (∃ place directory : Place, ∃ way, sideBySide.LeadsTo "/a/x/../x//." place ∧
      findConfig sideBySide.files "/a/x/../x//." = some "/a/x/../routeset.toml" ∧
      sideBySide.Passes "/a/x/../x//." way directory place ∧
      sideBySide.IsConfigIn "/a/x/../routeset.toml" directory ∧
      place.names = ["x", "a"] ∧ directory.names = ["a"] ∧ directory <:+ place) ∧
      IsPlain "/a/x/../x//." ∧ FindsAbove "/a/x/../x//." ∧ Path.IsStraight "/a/x/../x//." ∧
      IsPlain "../x" ∧ ¬ FindsAbove "../x" := by
  have hstart : sideBySide.LeadsTo "/a/x/../x//." [("x", .directory []), ("a", configured)] :=
    ⟨rfl, _, rfl⟩
  have hancestors : Path.ancestors "/a/x/../x//." =
      ["/a/x/../x//.", "/a/x/..", "/a/x", "/a", "/"] := by cbv
  have hfound : findConfig sideBySide.files "/a/x/../x//." = some "/a/x/../routeset.toml" := by
    rw [findConfig, hancestors]
    rfl
  have hplain : IsPlain "/a/x/../x//." := ⟨by decide, by decide, by decide⟩
  have hbeside : IsPlain "../x" := ⟨by decide, by decide, by decide⟩
  obtain ⟨hway, habove, hstraight⟩ := findConfig_above "/a/x/../x//."
  have hfinds : FindsAbove "/a/x/../x//." := habove (by decide)
  obtain ⟨way, directory, hpasses, hconfig⟩ := hway sideBySide _ _ hstart hfound
  obtain ⟨directory', hconfig', hsuffix⟩ := hfinds sideBySide _ _ hstart hfound
  obtain rfl := hconfig.unique hconfig'
  have hdirectory : directory = [("a", configured)] := hconfig.unique ⟨.empty, rfl⟩
  refine ⟨⟨_, directory, way, hstart, hfound, hpasses, hconfig, rfl, hdirectory ▸ rfl, hsuffix⟩,
    hplain, hfinds, hstraight hplain hfinds, hbeside, fun h => ?_⟩
  exact absurd ((findConfig_above "../x").2.2 hbeside h) (by decide)

/-- **Beside, and not above**: the search from `a/../b` finds a configuration in `a`. -/
theorem findConfig_beside : ¬ FindsAbove "a/../b" := by
  intro hfinds
  have hstart : sideBySide.LeadsTo "a/../b" [("b", .directory [])] := ⟨rfl, _, rfl⟩
  have hancestors : Path.ancestors "a/../b" = ["a/../b", "a/..", "a", ""] := by cbv
  have hfound : findConfig sideBySide.files "a/../b" = some "a/routeset.toml" := by
    rw [findConfig, hancestors]
    rfl
  obtain ⟨directory, hconfig, habove⟩ := hfinds sideBySide _ _ hstart hfound
  obtain rfl : directory = [("a", configured)] := hconfig.unique ⟨.empty, rfl⟩
  have hnames : ["a"] <:+ ["b"] := habove.map Prod.fst
  exact absurd hnames (by decide)

end PrefixPattern
