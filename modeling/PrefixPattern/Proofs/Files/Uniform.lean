import Mathlib.Data.List.Basic
import PrefixPattern.Proofs.Files

/-!
# File systems with the same names everywhere

To see what can happen on the way along a path, it helps to have a file system in which the way is
there, whatever its names are.  In a uniform file system all directories have the same names in
them, down to some depth, and a file is in any of them that one likes.

## What is here

* `Uniform`, `Uniform.tree` — the names, the file and the directories that hold it.
* `Uniform.place`, `Uniform.fileSystem` — every list of the names is that of a place, and any of
  these can be the current directory.
* `Uniform.lookup_file`, `Uniform.lookup_of_mem` — the entries of a directory.
* `Uniform.follow_place`, `Uniform.followAll_place` — all paths of the names lead to directories.
* `Uniform.follow_file`, `Uniform.holds_of_isPlace`, `Uniform.mem_of_follow` — the file is where it
  should be, and nothing else is anywhere.
-/

set_option autoImplicit false

namespace PrefixPattern

open FileTree (Place IsEntryName)

/-- Names of directories, all in each of them, and a file that is in some of them. -/
structure Uniform where
  names : List String
  file : String
  /-- the file is in the directory with these names, the last first -/
  holds : List String → Bool
  nodup : (file :: names).Nodup
  isEntryName : ∀ name ∈ file :: names, IsEntryName name

namespace Uniform

/-- The entries of a directory, from the directories below it. -/
def entries (u : Uniform) (below : List String → FileTree) (above : List String) :
    List (String × FileTree) :=
  (if u.holds above then [(u.file, .file .empty)] else []) ++
    u.names.map fun name => (name, below (name :: above))

/-- The directory with some names, and what is below it down to a depth. -/
def tree (u : Uniform) : Nat → List String → FileTree
  | 0, _ => .directory []
  | depth + 1, above => .directory (u.entries (u.tree depth) above)

/-- The place with some names. -/
def place (u : Uniform) (depth : Nat) : List String → Place
  | [] => []
  | name :: above =>
    (name, u.tree (depth - (above.length + 1)) (name :: above)) :: u.place depth above

variable {u : Uniform} {below : List String → FileTree} {depth : Nat} {above steps : List String}
variable {name : String} {t : FileTree} {next p : Place}

/-! ## Entries -/

theorem ne_file_of_mem (h : name ∈ u.names) : name ≠ u.file :=
  fun heq => (List.nodup_cons.1 u.nodup).1 (heq ▸ h)

theorem lookup_file :
    (u.entries below above).lookup u.file =
      if u.holds above then some (.file .empty) else none := by
  have hnone : (u.names.map fun name => (name, below (name :: above))).lookup u.file = none := by
    rw [List.lookup_eq_none_iff]
    intro entry hentry
    obtain ⟨name, hname, rfl⟩ := List.mem_map.1 hentry
    simpa using (ne_file_of_mem hname).symm
  rw [entries, List.lookup_append, hnone, Option.or_none]
  split
  · exact List.lookup_cons_self
  · rfl

theorem lookup_of_mem (h : name ∈ u.names) :
    (u.entries below above).lookup name = some (below (name :: above)) := by
  have hfile : ((if u.holds above then [(u.file, FileTree.file .empty)] else []) :
      List (String × FileTree)).lookup name = none := by
    rw [List.lookup_eq_none_iff]
    split <;> simp [ne_file_of_mem h]
  rw [entries, List.lookup_append, hfile, Option.none_or,
    List.lookup_graph (fun name => below (name :: above)) h]

theorem mem_of_mem_entries {e : String × FileTree} (h : e ∈ u.entries below above) :
    e = (u.file, .file .empty) ∨ ∃ name ∈ u.names, e = (name, below (name :: above)) := by
  rcases List.mem_append.1 h with h | h
  · split at h
    · exact Or.inl (List.mem_singleton.1 h)
    · cases h
  · obtain ⟨name, hname, rfl⟩ := List.mem_map.1 h
    exact Or.inr ⟨name, hname, rfl⟩

theorem nodup_entries : ((u.entries below above).map Prod.fst).Nodup := by
  have hnames : (u.names.map fun name => (name, below (name :: above))).map Prod.fst = u.names := by
    rw [List.map_map]
    exact List.map_id _
  rw [entries, List.map_append, hnames]
  split
  · exact u.nodup
  · exact (List.nodup_cons.1 u.nodup).2

theorem isProper_tree : (u.tree depth above).IsProper := by
  induction depth generalizing above with
  | zero => exact .directory List.nodup_nil (by simp) (by simp)
  | succ depth ih =>
    refine .directory nodup_entries (fun e he => ?_) fun e he => ?_
    · rcases mem_of_mem_entries he with rfl | ⟨name, hname, rfl⟩
      · exact u.isEntryName _ List.mem_cons_self
      · exact u.isEntryName _ (List.mem_cons_of_mem _ hname)
    · rcases mem_of_mem_entries he with rfl | ⟨name, hname, rfl⟩
      · exact .file _
      · exact ih

/-! ## Places -/

theorem names_place (u : Uniform) (depth : Nat) (above : List String) :
    (u.place depth above).names = above := by
  induction above with
  | nil => rfl
  | cons name above ih => exact congrArg (name :: ·) ih

theorem tail_place : (u.place depth above).tail = u.place depth above.tail := by
  cases above <;> rfl

/-- A place above one of these places is one of them. -/
theorem eq_place_of_suffix (h : p <:+ u.place depth above) : p = u.place depth p.names := by
  induction above with
  | nil =>
    obtain rfl := List.suffix_nil.1 h
    rfl
  | cons name above ih =>
    rcases List.suffix_cons_iff.1 h with rfl | habove
    · exact congrArg (u.place depth) (names_place u depth (name :: above)).symm
    · exact ih habove

theorem at_place :
    (u.tree depth []).at (u.place depth above) = u.tree (depth - above.length) above := by
  cases above <;> rfl

theorem at_place_of_lt (h : above.length < depth) :
    (u.tree depth []).at (u.place depth above) =
      .directory (u.entries (u.tree (depth - (above.length + 1))) above) := by
  have hdepth : depth - above.length = depth - (above.length + 1) + 1 := by omega
  rw [at_place, hdepth, tree]

theorem exists_at_place (u : Uniform) (depth : Nat) (above : List String) :
    ∃ entries, (u.tree depth []).at (u.place depth above) = .directory entries ∧
      (entries = [] ∨ ∃ below, entries = u.entries below above) := by
  rw [at_place]
  cases depth - above.length with
  | zero => exact ⟨_, rfl, Or.inl rfl⟩
  | succ n => exact ⟨_, rfl, Or.inr ⟨_, rfl⟩⟩

theorem isDirectory_place : (u.tree depth []).IsDirectory (u.place depth above) := by
  obtain ⟨entries, hentries, -⟩ := exists_at_place u depth above
  exact ⟨entries, hentries⟩

theorem isPlace_place (h : ∀ name ∈ above, name ∈ u.names) (hlength : above.length ≤ depth) :
    (u.tree depth []).IsPlace (u.place depth above) := by
  induction above with
  | nil => trivial
  | cons name above ih =>
    obtain ⟨hname, habove⟩ := List.forall_mem_cons.1 h
    rw [List.length_cons] at hlength
    exact ⟨ih habove (by omega), _, at_place_of_lt (by omega), lookup_of_mem hname⟩

/-- The file is only where it should be. -/
theorem holds_of_isPlace (h : (u.tree depth []).IsPlace ((u.file, t) :: u.place depth above)) :
    u.holds above = true := by
  obtain ⟨-, entries, hentries, ht⟩ := h
  obtain ⟨entries', hentries', hcases⟩ := exists_at_place u depth above
  rw [hentries] at hentries'
  cases hentries'
  rcases hcases with rfl | ⟨below, rfl⟩
  · cases ht
  · rw [lookup_file, Option.ite_none_right_eq_some] at ht
    exact ht.1

/-! ## Paths -/

theorem follow_file (hlength : above.length < depth) (h : u.holds above = true) :
    (u.tree depth []).follow (u.place depth above) u.file =
      .ok ((u.file, .file .empty) :: u.place depth above) := by
  rw [FileTree.follow_eq_ok_iff (u.isEntryName _ List.mem_cons_self) (at_place_of_lt hlength)]
  exact ⟨_, lookup_file.trans (if_pos h), rfl⟩

theorem follow_place (hlength : above.length < depth)
    (hname : Path.isMove name → name ≠ ".." → name ∈ u.names) :
    (u.tree depth []).follow (u.place depth above) name =
      .ok (u.place depth (Path.move above name)) := by
  rw [Path.move]
  split
  · rename_i hstay
    exact FileTree.follow_of_stays isDirectory_place hstay
  · rename_i hmove
    split
    · rename_i hback
      rw [hback, FileTree.follow_dotDot isDirectory_place, tail_place]
    · rename_i hback
      have hmem := hname (by simpa [Path.isMove] using hmove) hback
      rw [FileTree.follow_eq_ok_iff (u.isEntryName _ (List.mem_cons_of_mem _ hmem))
        (at_place_of_lt hlength)]
      exact ⟨_, lookup_of_mem hmem, rfl⟩

/-- Nothing else is anywhere. -/
theorem mem_of_follow (hname : IsEntryName name)
    (h : (u.tree depth []).follow (u.place depth above) name = .ok next) :
    name ∈ u.file :: u.names := by
  obtain ⟨entries, hentries, hcases⟩ := exists_at_place u depth above
  obtain ⟨t, ht, -⟩ := (FileTree.follow_eq_ok_iff hname hentries).1 h
  obtain ⟨before, after, hcut, -⟩ := List.lookup_eq_some_iff.1 ht
  rcases hcases with rfl | ⟨below, rfl⟩
  · cases ht
  · have hmem : (name, t) ∈ u.entries below above := by
      rw [hcut]
      exact List.mem_append_right _ List.mem_cons_self
    rcases mem_of_mem_entries hmem with heq | ⟨name', hname', heq⟩
    · cases heq
      exact List.mem_cons_self
    · cases heq
      exact List.mem_cons_of_mem _ hname'

/-- **All paths of the names lead to directories.** -/
theorem followAll_place (hsteps : ∀ name ∈ steps, Path.isMove name → name ≠ ".." → name ∈ u.names)
    (hlength : above.length + steps.length ≤ depth) :
    (u.tree depth []).followAll (u.place depth above) steps =
      .ok (u.place depth ((Path.route steps).behind above)) := by
  rw [← Path.foldl_move]
  induction steps generalizing above with
  | nil => rfl
  | cons name steps ih =>
    obtain ⟨hname, hsteps⟩ := List.forall_mem_cons.1 hsteps
    rw [List.length_cons] at hlength
    have hmove := Path.length_move_le above name
    rw [FileTree.followAll, follow_place (by omega) hname]
    exact ih hsteps (by omega)

/-- The file system with one of the places as its current directory. -/
def fileSystem (u : Uniform) (depth : Nat) (current : List String)
    (hcurrent : ∀ name ∈ current, name ∈ u.names) (hlength : current.length ≤ depth) :
    FileSystem where
  root := u.tree depth []
  current := u.place depth current
  isProper := isProper_tree
  isPlace := isPlace_place hcurrent hlength
  isDirectory := isDirectory_place

end Uniform
end PrefixPattern
