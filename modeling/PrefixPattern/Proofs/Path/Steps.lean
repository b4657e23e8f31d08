import Mathlib.Data.List.Infix
import PrefixPattern.Proofs.Path
import PrefixPattern.Proofs.Text.Pieces

/-!
# Paths to be followed

A file system follows what stands between the slashes of a path, one piece after the other.  The
components of a path are these pieces without those that lead nowhere, and the paths above it are
those of the beginnings of its components.

## What is here

* `Path.steps`, `Path.pieces` — the components and the pieces of a path; `Path.filter_steps` — they
  differ by what leads nowhere.
* `Path.notMem_and_subset_of_mem_steps` — the characters of a name that a path goes down to.
* `Path.mem_inits_steps_iff` — the paths above a path.
* `Path.exists_pieces_join`, `Path.isAbsolute_join` — a name below a directory is followed last, and
  from where the directory is followed.
* `Path.subset_toList_join`, `Path.utf8ByteSize_join_le_of_mem_ancestors` — its characters, and its
  length.
-/

set_option autoImplicit false

namespace PrefixPattern
namespace Path

/-! ## Steps -/

/-- The components of a path, to be followed one after the other. -/
def steps (p : String) : List String :=
  (components p.toList).map String.ofList

/-- What stands between the slashes of a path. -/
def pieces (p : String) : List String :=
  (p.toList.splitOn '/').map String.ofList

/-- The step leads to another directory. -/
def isMove (step : String) : Bool :=
  step ≠ "" && step ≠ "."

variable {p d name : String} {way : List String}

theorem isMove_ofList (cs : List Char) :
    isMove (String.ofList cs) = decide (cs ≠ [] ∧ cs ≠ ['.']) := by
  have hempty : String.ofList cs = "" ↔ cs = [] := by simp
  have hdot : String.ofList cs = "." ↔ cs = ['.'] := by simp [← String.toList_inj]
  simp [isMove, hempty, hdot]

/-- The components of a path are its pieces, but for those that lead nowhere. -/
theorem filter_steps (p : String) : (steps p).filter isMove = (pieces p).filter isMove := by
  have hnames : ((names p.toList).map String.ofList).filter isMove =
      (names p.toList).map String.ofList := by
    rw [List.filter_eq_self]
    intro name hname
    obtain ⟨cs, hcs, rfl⟩ := List.mem_map.1 hname
    rw [isMove_ofList]
    exact (List.mem_filter.1 hcs).2
  have hpieces : (pieces p).filter isMove = (names p.toList).map String.ofList := by
    rw [pieces, List.filter_map, names]
    congr 1
    exact List.filter_congr fun cs _ => isMove_ofList cs
  rw [hpieces, steps, components]
  split
  · rw [List.map_cons, List.filter_cons_of_neg (by decide), hnames]
  · exact hnames

/-- A name that a path goes down to has no slash, and no character that the path has not. -/
theorem notMem_and_subset_of_mem_steps (h : name ∈ steps p) (hmove : isMove name) :
    '/' ∉ name.toList ∧ name.toList ⊆ p.toList := by
  have hname : name ∈ (pieces p).filter isMove := by
    rw [← filter_steps]
    exact List.mem_filter.2 ⟨h, hmove⟩
  obtain ⟨piece, hpiece, rfl⟩ := List.mem_map.1 (List.mem_filter.1 hname).1
  rw [String.toList_ofList]
  exact ⟨notMem_of_mem_splitOn hpiece, subset_of_mem_splitOn hpiece⟩

/-- **The paths above a path are those of the beginnings of its steps.** -/
theorem mem_inits_steps_iff : way ∈ (steps p).inits ↔ ∃ d ∈ ancestors p, steps d = way := by
  have hinits : (components p.toList).inits =
      ((ancestors p).map fun d => components d.toList).reverse := by
    have hreverse := (ascent_ancestors p).components_eq
    rw [List.map_map] at hreverse
    exact List.reverse_eq_iff.1 hreverse.symm
  rw [steps, List.map_inits, hinits, List.mem_map]
  constructor
  · rintro ⟨cs, hcs, rfl⟩
    obtain ⟨d, hd, rfl⟩ := List.mem_map.1 (List.mem_reverse.1 hcs)
    exact ⟨d, hd, rfl⟩
  · rintro ⟨d, hd, rfl⟩
    exact ⟨_, List.mem_reverse.2 (List.mem_map_of_mem hd), rfl⟩

theorem isAbsolute_iff_of_mem_ancestors (h : d ∈ ancestors p) :
    isAbsolute d.toList ↔ isAbsolute p.toList :=
  (ascent_ancestors p).isAbsolute_iff _ (List.mem_map_of_mem h)

theorem isPrefix_of_mem_ancestors (h : d ∈ ancestors p) : d.toList <+: p.toList :=
  (ascent_ancestors p).isPrefix _ (List.mem_map_of_mem h)

/-! ## A name below a directory -/

/-- A name below a directory is the last piece, behind those of the directory. -/
theorem exists_pieces_join (d : String) (hname : '/' ∉ name.toList) :
    ∃ before, pieces (join d name) = before ++ [name] ∧
      before.filter isMove = (pieces d).filter isMove := by
  have hlast : (name.toList.splitOn '/').map String.ofList = [name] := by
    rw [List.splitOn_eq_singleton hname, List.map_singleton, String.ofList_toList]
  rw [join]
  split
  · rename_i hend
    rcases hend with rfl | hend
    · refine ⟨[], ?_, rfl⟩
      rw [pieces, String.empty_append, hlast, List.nil_append]
    · obtain ⟨front, hfront⟩ : ∃ front, d.toList = front ++ ['/'] :=
        List.getLast?_eq_some_iff.1 hend
      refine ⟨(front.splitOn '/').map String.ofList, ?_, ?_⟩
      · rw [pieces, String.toList_append, hfront, List.append_assoc, List.singleton_append,
          List.splitOn_append_cons_self, List.map_append, hlast]
      · rw [pieces, hfront, List.splitOn_append_cons_self, List.map_append, List.filter_append]
        exact (List.append_nil _).symm
  · refine ⟨pieces d, ?_, rfl⟩
    have htext : (d ++ "/" ++ name).toList = d.toList ++ '/' :: name.toList := by simp
    rw [pieces, htext, List.splitOn_append_cons_self, List.map_append, hlast, pieces]

theorem isAbsolute_join (d : String) (hname : '/' ∉ name.toList) :
    isAbsolute (join d name).toList ↔ isAbsolute d.toList := by
  have hnot : ¬ isAbsolute name.toList := by
    rw [isAbsolute_iff]
    rintro ⟨rest, hrest⟩
    rw [hrest] at hname
    exact hname List.mem_cons_self
  rw [join]
  by_cases hd : d = ""
  · subst hd
    simpa [isAbsolute_iff] using hnot
  · obtain ⟨c, rest, hrest⟩ := List.exists_cons_of_ne_nil (mt String.toList_eq_nil_iff.1 hd)
    split <;> simp [isAbsolute_iff, hrest]

theorem subset_toList_join (d name : String) :
    (join d name).toList ⊆ d.toList ++ '/' :: name.toList := by
  rw [join]
  split
  · rw [String.toList_append]
    exact List.append_subset.2 ⟨List.subset_append_left _ _,
      List.Subset.trans (List.subset_cons_self _ _) (List.subset_append_right _ _)⟩
  · simp

theorem utf8ByteSize_add_le_join (d name : String) :
    d.utf8ByteSize + name.utf8ByteSize ≤ (join d name).utf8ByteSize := by
  rw [join]
  split <;> simp only [String.utf8ByteSize_append] <;> omega

theorem utf8ByteSize_join_le (d name : String) :
    (join d name).utf8ByteSize ≤ d.utf8ByteSize + 1 + name.utf8ByteSize := by
  have hslash : "/".utf8ByteSize = 1 := by decide
  rw [join]
  split <;> simp only [String.utf8ByteSize_append] <;> omega

/-- A path above another one is not longer than it, also with a name below it. -/
theorem utf8ByteSize_join_le_of_mem_ancestors (h : d ∈ ancestors p) (name : String) :
    (join d name).utf8ByteSize ≤ (join p name).utf8ByteSize := by
  obtain ⟨more, hmore⟩ := isPrefix_of_mem_ancestors h
  have hcut : p = d ++ String.ofList more := by
    rw [← String.toList_inj, String.toList_append, String.toList_ofList, hmore]
  by_cases hempty : String.ofList more = ""
  · rw [hempty, String.append_empty] at hcut
    rw [hcut]
  · have hpos : (String.ofList more).utf8ByteSize ≠ 0 := by
      rwa [Ne, String.utf8ByteSize_eq_zero_iff]
    have hsize := congrArg String.utf8ByteSize hcut
    have hd := utf8ByteSize_join_le d name
    have hp := utf8ByteSize_add_le_join p name
    rw [String.utf8ByteSize_append] at hsize
    omega

end Path
end PrefixPattern
