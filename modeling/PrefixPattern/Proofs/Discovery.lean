import PrefixPattern.Discovery
import PrefixPattern.Proofs.Path

/-!
# The nearest configuration

The search for a configuration goes from a directory to those above it.  In every one of them it
asks two things, whether the configuration is there and whether `.git` is, and stops as soon as
either is.  So it finds the nearest configuration, and never looks past the first `.git`.

## What is here

* `Files.HoldsConfig`, `Files.HoldsGit` — the two questions.
* `Files.ends`, `findAmong_eq` — the search through a list of directories stops at the first one
  that holds either.
* `Files.upToGit` — the directories that the search can come to; it never passes one with `.git`.
* `findAmong_eq_some_iff`, `findAmong_eq_none_iff`, `findAmong_congr` — what is found, when nothing
  is, and what this depends on.
* `findConfig_nearest` — the three together, with the directories that are looked at.
-/

set_option autoImplicit false

namespace PrefixPattern

/-! ## Through a list of directories -/

namespace Files

/-- A configuration is a regular file in the directory. -/
def HoldsConfig (files : Files) (directory : String) : Prop :=
  files.isFile (Path.join directory configFileName) = true

/-- Something named `.git` is in the directory. -/
def HoldsGit (files : Files) (directory : String) : Prop :=
  files.exists (Path.join directory ".git") = true

/-- Both questions have the same answers in the directory. -/
structure AgreesAt (files files' : Files) (directory : String) : Prop where
  holdsConfig_iff : files'.HoldsConfig directory ↔ files.HoldsConfig directory
  holdsGit_iff : files'.HoldsGit directory ↔ files.HoldsGit directory

/-- The search ends in the directory. -/
def ends (files : Files) (directory : String) : Bool :=
  files.isFile (Path.join directory configFileName) || files.exists (Path.join directory ".git")

variable {files : Files} {directory : String}

theorem ends_iff : files.ends directory = true ↔
    files.HoldsConfig directory ∨ files.HoldsGit directory := by
  rw [ends, Bool.or_eq_true]
  rfl

instance : Decidable (files.HoldsConfig directory) :=
  inferInstanceAs (Decidable (_ = true))

instance : Decidable (files.HoldsGit directory) :=
  inferInstanceAs (Decidable (_ = true))

/-- The directories up to the first that holds `.git`, with this one. -/
def upToGit (files : Files) : List String → List String
  | [] => []
  | d :: rest => if files.HoldsGit d then [d] else d :: upToGit files rest

theorem upToGit_eq_self {directories : List String} (h : ∀ d ∈ directories, ¬ files.HoldsGit d) :
    files.upToGit directories = directories := by
  induction directories with
  | nil => rfl
  | cons first rest ih =>
    obtain ⟨hfirst, hrest⟩ := List.forall_mem_cons.1 h
    rw [upToGit, if_neg hfirst, ih hrest]

end Files

section FindAmong

variable {files files' : Files} {directories : List String}

theorem findAmong_cons (directory : String) :
    findAmong files (directory :: directories) =
      if files.HoldsConfig directory then some (Path.join directory configFileName)
      else if files.HoldsGit directory then none
      else findAmong files directories := rfl

/-- The search stops at the first directory where it ends, and finds the configuration if it is
there. -/
theorem findAmong_eq :
    findAmong files directories = (directories.find? files.ends).bind fun d =>
      if files.HoldsConfig d then some (Path.join d configFileName) else none := by
  induction directories with
  | nil => rfl
  | cons first rest ih =>
    rw [findAmong_cons, List.find?_cons]
    by_cases hends : files.HoldsConfig first ∨ files.HoldsGit first
    · rw [Files.ends_iff.2 hends, Option.bind_some]
      split
      · rfl
      · rename_i hconfig
        exact if_pos (hends.resolve_left hconfig)
    · obtain ⟨hconfig, hgit⟩ := not_or.1 hends
      rw [Bool.eq_false_iff.2 (mt Files.ends_iff.1 hends), if_neg hconfig, if_neg hgit]
      exact ih

/-- **The first directory that holds a configuration is found**, unless `.git` comes before it. -/
theorem findAmong_eq_some_iff {path : String} :
    findAmong files directories = some path ↔
      ∃ before d after, directories = before ++ d :: after ∧
        path = Path.join d configFileName ∧ files.HoldsConfig d ∧
        ∀ a ∈ before, ¬ files.HoldsConfig a ∧ ¬ files.HoldsGit a := by
  have hpasses : ∀ a, (!files.ends a) = true ↔ ¬ files.HoldsConfig a ∧ ¬ files.HoldsGit a := by
    intro a
    rw [Bool.not_eq_true', ← Bool.not_eq_true, Files.ends_iff, not_or]
  rw [findAmong_eq, Option.bind_eq_some_iff]
  simp only [List.find?_eq_some_iff_append, hpasses]
  refine ⟨?_, ?_⟩
  · rintro ⟨d, ⟨-, before, after, hcut, hbefore⟩, hd⟩
    split at hd
    · rename_i hconfig
      exact ⟨before, d, after, hcut, (Option.some.inj hd).symm, hconfig, hbefore⟩
    · cases hd
  · rintro ⟨before, d, after, hcut, rfl, hconfig, hbefore⟩
    exact ⟨d, ⟨Files.ends_iff.2 (Or.inl hconfig), before, after, hcut, hbefore⟩, if_pos hconfig⟩

/-- Nothing is found where no directory up to `.git` holds a configuration. -/
theorem findAmong_eq_none_iff :
    findAmong files directories = none ↔
      ∀ d ∈ files.upToGit directories, ¬ files.HoldsConfig d := by
  induction directories with
  | nil => simp [Files.upToGit, findAmong]
  | cons first rest ih =>
    rw [findAmong_cons, Files.upToGit]
    by_cases hconfig : files.HoldsConfig first <;> by_cases hgit : files.HoldsGit first <;>
      simp [hconfig, hgit, ih]

/-- **What is above `.git` does not matter**, and neither does anything else in the directories. -/
theorem findAmong_congr (h : ∀ d ∈ files.upToGit directories, files.AgreesAt files' d) :
    findAmong files' directories = findAmong files directories := by
  induction directories with
  | nil => rfl
  | cons first rest ih =>
    rw [Files.upToGit] at h
    by_cases hgit : files.HoldsGit first
    · rw [if_pos hgit] at h
      obtain ⟨hconfig, hgit'⟩ := h first List.mem_cons_self
      simp only [findAmong_cons, hconfig, hgit', if_pos hgit]
    · rw [if_neg hgit] at h
      obtain ⟨⟨hconfig, hgit'⟩, hrest⟩ := List.forall_mem_cons.1 h
      simp only [findAmong_cons, hconfig, hgit', ih hrest]

end FindAmong

/-! ## From a directory upwards -/

/-- **The search finds the nearest configuration and does not look past `.git`.**  It goes through
the directory and everything above it as the path is written.  It finds the configuration of the
first one that holds one, if `.git` is in none of the nearer ones, and nothing otherwise; and in
other files it finds the same, if they agree on the directories up to the first `.git`. -/
theorem findConfig_nearest (files : Files) (start : String) :
    Path.Ascent start.toList ((Path.ancestors start).map String.toList) ∧
      (∀ path, findConfig files start = some path ↔
        ∃ before d after, Path.ancestors start = before ++ d :: after ∧
          path = Path.join d configFileName ∧ files.HoldsConfig d ∧
          ∀ a ∈ before, ¬ files.HoldsConfig a ∧ ¬ files.HoldsGit a) ∧
      (findConfig files start = none ↔
        ∀ d ∈ files.upToGit (Path.ancestors start), ¬ files.HoldsConfig d) ∧
      ∀ files' : Files, (∀ d ∈ files.upToGit (Path.ancestors start), files.AgreesAt files' d) →
        findConfig files' start = findConfig files start :=
  ⟨Path.ascent_ancestors start, fun _ => findAmong_eq_some_iff, findAmong_eq_none_iff,
    fun _ => findAmong_congr⟩

/-- A configuration above `.git` is not found, and the search does not notice when it is taken
away. -/
theorem findConfig_nearest_below_git :
    let git : Files := fun path => if path = "/r/.git" then .ok .directory else .error .notFound
    let files : Files := fun path =>
      if path = "/routeset.toml" then .ok (.file .empty) else git path
    Path.ancestors "/r//s/." = ["/r//s/.", "/r", "/"] ∧
      files.HoldsConfig "/" ∧ findConfig files "/r//s/." = none ∧
      findConfig git "/r//s/." = findConfig files "/r//s/." := by
  intro git files
  have hancestors : Path.ancestors "/r//s/." = ["/r//s/.", "/r", "/"] := by cbv
  have hupTo : files.upToGit (Path.ancestors "/r//s/.") = ["/r//s/.", "/r"] := by
    rw [hancestors]
    decide +kernel
  obtain ⟨-, -, hnone, hsame⟩ := findConfig_nearest files "/r//s/."
  rw [hupTo] at hnone hsame
  refine ⟨hancestors, by decide +kernel, hnone.2 (by decide +kernel), hsame git fun d hd => ?_⟩
  obtain rfl | rfl : d = "/r//s/." ∨ d = "/r" := by simpa using hd
  · exact ⟨by decide +kernel, by decide +kernel⟩
  · exact ⟨by decide +kernel, by decide +kernel⟩

end PrefixPattern
