import Mathlib.Data.List.Dedup
import PrefixPattern.Proofs.Discovery
import PrefixPattern.Proofs.Files.Uniform

/-!
# Placing configurations along a path

Which configuration is found from a path depends on which of the directories that it passes hold
one.  For a path with ordinary names in it these can be chosen at will: there is a file system in
which all its directories exist, from any current directory of such names, none of them holds
`.git`, and a configuration is just where it is wanted.

## What is here

* `IsPlain` — paths with ordinary names.
* `Trial`, `Trial.fileSystem` — a current directory and a choice of the directories with a
  configuration, and the file system.
* `Trial.followAll_steps`, `Trial.leadsTo` — the path and its beginnings lead to directories.
* `Trial.holdsConfig`, `Trial.not_holdsGit` — what a search for a configuration asks of them.
* `Trial.exists_findConfig` — one is found as soon as one is on the way.
-/

set_option autoImplicit false

namespace PrefixPattern

open FileTree (Place IsEntryName maxNameLength maxPathLength)

theorem isEntryName_config : IsEntryName configFileName := by decide

theorem isEntryName_git : IsEntryName ".git" := by decide

/-- A path that can be that of a directory, and of one that holds a configuration, and that has none
of the names in it that are searched for. -/
structure IsPlain (path : String) : Prop where
  noNul : '\x00' ∉ path.toList
  length_le : (Path.join path configFileName).utf8ByteSize ≤ maxPathLength
  plain : ∀ name ∈ Path.steps path,
    name.utf8ByteSize ≤ maxNameLength ∧ name ≠ configFileName ∧ name ≠ ".git"

/-- Names of directories: those to which a path goes down, and two more for those that it starts
from. -/
def directoryNames (path : String) : List String :=
  (((Path.steps path).filter fun step => Path.isMove step && step ≠ "..") ++ ["a", "b"]).dedup

variable {path d name : String} {way : List String}

theorem mem_directoryNames_of_mem_steps (h : name ∈ Path.steps path) (hmove : Path.isMove name)
    (hback : name ≠ "..") : name ∈ directoryNames path := by
  rw [directoryNames, List.mem_dedup]
  refine List.mem_append_left _ (List.mem_filter.2 ⟨h, ?_⟩)
  simpa [hback] using hmove

theorem IsPlain.isEntryName_of_mem (h : IsPlain path) (hname : name ∈ directoryNames path) :
    IsEntryName name ∧ name ≠ configFileName ∧ name ≠ ".git" := by
  rw [directoryNames, List.mem_dedup] at hname
  rcases List.mem_append.1 hname with hname | hname
  · obtain ⟨hstep, hmove⟩ := List.mem_filter.1 hname
    simp only [Bool.and_eq_true, decide_eq_true_eq] at hmove
    obtain ⟨hmove, hback⟩ := hmove
    obtain ⟨hlength, hothers⟩ := h.plain name hstep
    obtain ⟨hslash, hsubset⟩ := Path.notMem_and_subset_of_mem_steps hstep hmove
    have hne : name ≠ "" ∧ name ≠ "." := by simpa [Path.isMove] using hmove
    exact ⟨⟨hne.1, hne.2, hback, hslash, fun hmem => h.noNul (hsubset hmem), hlength⟩, hothers⟩
  · have htwo : ∀ name ∈ ["a", "b"],
        IsEntryName name ∧ name ≠ configFileName ∧ name ≠ ".git" := by decide
    exact htwo name hname

/-! ## A file system for a path -/

/-- A current directory for a plain path, and which directories hold a configuration, both by the
names on the way to a directory, the last first. -/
structure Trial (path : String) where
  isPlain : IsPlain path
  ne_empty : path ≠ ""
  current : List String
  mem_names : ∀ name ∈ current, name ∈ directoryNames path
  current_eq_nil : Path.isAbsolute path.toList → current = []
  holds : List String → Bool

namespace Trial

/-- All names in all directories, and configurations in some. -/
def uniform (t : Trial path) : Uniform where
  names := directoryNames path
  file := configFileName
  holds := t.holds
  nodup := List.nodup_cons.2
    ⟨fun hmem => (t.isPlain.isEntryName_of_mem hmem).2.1 rfl, List.nodup_dedup _⟩
  isEntryName := List.forall_mem_cons.2
    ⟨isEntryName_config, fun _ hname => (t.isPlain.isEntryName_of_mem hname).1⟩

/-- Deep enough for the whole path, and a configuration below it. -/
def depth (t : Trial path) : Nat :=
  t.current.length + (Path.steps path).length + 1

theorem length_le_depth (t : Trial path) : t.current.length ≤ t.depth := by
  rw [depth]
  omega

/-- The file system in which every directory that the path can pass has the same entries. -/
def fileSystem (t : Trial path) : FileSystem :=
  t.uniform.fileSystem t.depth t.current t.mem_names t.length_le_depth

/-- The place to which some steps lead from where the path starts. -/
def place (t : Trial path) (way : List String) : Place :=
  t.uniform.place t.depth ((Path.route way).behind t.current)

variable {t : Trial path}

theorem names_place : (t.place way).names = (Path.route way).behind t.current :=
  Uniform.names_place _ _ _

theorem origin_eq : t.fileSystem.origin path = t.uniform.place t.depth t.current := by
  rw [FileSystem.origin]
  split
  · rename_i habsolute
    rw [t.current_eq_nil habsolute]
    rfl
  · rfl

/-- Every beginning of the path leads to a directory. -/
theorem followAll_steps (h : way ∈ (Path.steps path).inits) :
    t.fileSystem.root.followAll (t.fileSystem.origin path) way = .ok (t.place way) := by
  have hway := (List.mem_inits _ _).1 h
  have hlength := hway.length_le
  rw [origin_eq]
  refine Uniform.followAll_place (fun name hname hmove hback => ?_) ?_
  · exact mem_directoryNames_of_mem_steps (hway.subset hname) hmove hback
  · rw [depth]
    omega

theorem leadsTo : t.fileSystem.LeadsTo path (t.place (Path.steps path)) := by
  have hlength : path.utf8ByteSize ≤ maxPathLength :=
    (Nat.le_add_right _ _).trans
      ((Path.utf8ByteSize_add_le_join path _).trans t.isPlain.length_le)
  exact FileSystem.leadsTo_iff.2 ⟨⟨t.ne_empty, t.isPlain.noNul, hlength⟩,
    Uniform.isDirectory_place, followAll_steps ((List.mem_inits _ _).2 List.prefix_rfl)⟩

/-- The entries of these directories, looked for at the paths above the path. -/
theorem locate_join (hd : d ∈ Path.ancestors path) (hname : IsEntryName name)
    (hlength : (Path.join d name).utf8ByteSize ≤ maxPathLength) :
    t.fileSystem.locate (Path.join d name) =
      t.fileSystem.root.follow (t.place (Path.steps d)) name := by
  obtain ⟨passed, hpassed, -, hentry⟩ := t.leadsTo.exists_passes hd
  have hplace := hpassed.followAll_eq
  rw [followAll_steps hpassed.mem_inits] at hplace
  cases hplace
  exact hentry name hname hlength

theorem holdsConfig (hd : d ∈ Path.ancestors path)
    (h : t.holds ((Path.route (Path.steps d)).behind t.current) = true) :
    t.fileSystem.files.HoldsConfig d := by
  have hway := (List.mem_inits _ _).1 (Path.mem_inits_steps_iff.2 ⟨d, hd, rfl⟩)
  have hlocate := t.locate_join hd isEntryName_config
    ((Path.utf8ByteSize_join_le_of_mem_ancestors hd _).trans t.isPlain.length_le)
  have hdepth : ((Path.route (Path.steps d)).behind t.current).length < t.depth := by
    have hlength := Path.length_behind_route_le t.current (Path.steps d)
    have hsteps := hway.length_le
    rw [depth]
    omega
  have hfile := hlocate.trans (Uniform.follow_file hdepth h)
  exact Files.isFile_iff.2 ⟨_, FileSystem.files_eq_ok_iff.2 ⟨_, hfile, rfl⟩⟩

theorem not_holdsGit (hd : d ∈ Path.ancestors path) : ¬ t.fileSystem.files.HoldsGit d := by
  intro hgit
  obtain ⟨entry, hentry⟩ := Files.exists_iff.1 hgit
  obtain ⟨found, hfound, -⟩ := FileSystem.files_eq_ok_iff.1 hentry
  have hlength := (FileSystem.locate_eq_ok_iff.1 hfound).1.length_le
  rw [t.locate_join hd isEntryName_git hlength] at hfound
  have hne : ".git" ≠ configFileName := by decide
  rcases List.mem_cons.1 (Uniform.mem_of_follow isEntryName_git hfound) with heq | hmem
  · exact hne heq
  · exact (t.isPlain.isEntryName_of_mem hmem).2.2 rfl

/-- **A configuration is found as soon as one is on the way.** -/
theorem exists_findConfig (hway : way ∈ (Path.steps path).inits)
    (h : t.holds ((Path.route way).behind t.current) = true) :
    ∃ found, findConfig t.fileSystem.files path = some found := by
  obtain ⟨d, hd, rfl⟩ := Path.mem_inits_steps_iff.1 hway
  rw [← Option.ne_none_iff_exists', Ne, findConfig, findAmong_eq_none_iff,
    Files.upToGit_eq_self fun d hd => not_holdsGit hd]
  exact fun hnone => hnone d hd (holdsConfig hd h)

end Trial
end PrefixPattern
