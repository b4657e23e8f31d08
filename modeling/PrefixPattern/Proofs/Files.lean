import Mathlib.Data.List.Infix
import PrefixPattern.Files
import PrefixPattern.Proofs.Path.Route

/-!
# Following paths in a file system

A path is followed component by component, from the root or from the current directory.  Without
links, each component does to the names of a place what it does to the route of the path, so the
names of the place where a path leads can be told from its text.  The entries on the way have to be
there, though, and be directories.

## What is here

* `FileTree.IsPlace`, `FileTree.IsDirectory` — a place is in the tree, and is a directory of it;
  `FileTree.IsPlace.suffix_iff` — places are known by their names.
* `FileTree.follow_cases`, `FileTree.follow_eq_ok_iff` — what one step can do.
* `FileTree.names_followAll` — following some steps leads along their route.
* `FileTree.followAll_filter` — a slash more or a `.` makes no difference on the way to a directory.
* `FileSystem` — a tree in which every entry can be followed by its name, with a directory to start
  from; `FileSystem.locate_eq_ok_iff` — where it finds what is at a path.
* `FileSystem.LeadsTo`, `FileSystem.leadsTo_iff` — the directory at a path is the one to which its
  steps lead.
* `FileSystem.Passes`, `FileSystem.LeadsTo.exists_passes` — the directories on the way, at the paths
  above the path.
-/

set_option autoImplicit false

namespace PrefixPattern

namespace Files

variable {files : Files} {path : String}

theorem isFile_iff : files.isFile path = true ↔ ∃ content, files path = .ok (.file content) := by
  rw [isFile]
  split <;> simp_all

theorem exists_iff : files.exists path = true ↔ ∃ entry, files path = .ok entry := by
  rw [«exists»]
  split <;> simp_all

end Files

namespace FileTree

/-! ## Places -/

/-- The names on the way to a place, the last first. -/
def Place.names (place : Place) : List String :=
  place.map Prod.fst

/-- A place of the tree: each entry on the way is one of the directory above it. -/
def IsPlace (root : FileTree) : Place → Prop
  | [] => True
  | (name, t) :: above =>
    root.IsPlace above ∧
      ∃ entries, root.at above = .directory entries ∧ entries.lookup name = some t

/-- A directory lies at the place. -/
def IsDirectory (root : FileTree) (place : Place) : Prop :=
  ∃ entries, root.at place = .directory entries

variable {root : FileTree} {place next p q : Place} {name : String} {names rest : List String}

theorem IsPlace.isDirectory_root (h : root.IsPlace place) (hdirectory : root.IsDirectory place) :
    root.IsDirectory [] := by
  induction place with
  | nil => exact hdirectory
  | cons last above ih =>
    obtain ⟨habove, entries, hentries, -⟩ := h
    exact ih habove ⟨entries, hentries⟩

theorem IsPlace.of_suffix (h : root.IsPlace q) (hsuffix : p <:+ q) : root.IsPlace p := by
  induction q with
  | nil => rwa [List.suffix_nil.1 hsuffix]
  | cons last above ih =>
    rcases List.suffix_cons_iff.1 hsuffix with rfl | habove
    · exact h
    · exact ih h.1 habove

theorem IsPlace.eq_of_names (hp : root.IsPlace p) (hq : root.IsPlace q)
    (h : p.names = q.names) : p = q := by
  induction p generalizing q with
  | nil => exact (List.map_eq_nil_iff.1 h.symm).symm
  | cons last above ih =>
    obtain ⟨last', above', rfl⟩ : ∃ last' above', q = last' :: above' := by
      cases q with
      | nil => cases h
      | cons last' above' => exact ⟨last', above', rfl⟩
    obtain ⟨name, t⟩ := last
    obtain ⟨name', t'⟩ := last'
    obtain ⟨rfl, habove⟩ := List.cons.inj h
    obtain ⟨hp, entries, hentries, ht⟩ := hp
    obtain ⟨hq, entries', hentries', ht'⟩ := hq
    obtain rfl := ih hp hq habove
    rw [hentries] at hentries'
    cases hentries'
    rw [ht] at ht'
    cases ht'
    rfl

/-- **Places are known by their names.** -/
theorem IsPlace.suffix_iff (hp : root.IsPlace p) (hq : root.IsPlace q) :
    p <:+ q ↔ p.names <:+ q.names := by
  refine ⟨fun h => h.map Prod.fst, fun h => ?_⟩
  obtain ⟨above, habove, hnames⟩ := List.suffix_map_iff.1 h
  rwa [hp.eq_of_names (hq.of_suffix habove) hnames]

/-! ## One step -/

/-- A name that an entry of a directory can have. -/
structure IsEntryName (name : String) : Prop where
  ne_empty : name ≠ ""
  ne_dot : name ≠ "."
  ne_dotDot : name ≠ ".."
  noSlash : '/' ∉ name.toList
  noNul : '\x00' ∉ name.toList
  length_le : name.utf8ByteSize ≤ maxNameLength

instance (name : String) : Decidable (IsEntryName name) :=
  decidable_of_iff
    ((name ≠ "" ∧ name ≠ "." ∧ name ≠ "..") ∧ '/' ∉ name.toList ∧ '\x00' ∉ name.toList ∧
      name.utf8ByteSize ≤ maxNameLength)
    ⟨fun ⟨⟨hempty, hdot, hback⟩, hslash, hnul, hlength⟩ =>
      ⟨hempty, hdot, hback, hslash, hnul, hlength⟩,
    fun h => ⟨⟨h.ne_empty, h.ne_dot, h.ne_dotDot⟩, h.noSlash, h.noNul, h.length_le⟩⟩

/-- **What a step can do**, from a directory: nothing, go back, or go on to an entry. -/
theorem follow_cases (h : root.follow place name = .ok next) :
    root.IsDirectory place ∧
      ((name = "" ∨ name = ".") ∧ next = place ∨
        name = ".." ∧ next = place.tail ∨
        (name ≠ "" ∧ name ≠ "." ∧ name ≠ "..") ∧ ∃ entries t, root.at place = .directory entries ∧
          entries.lookup name = some t ∧ next = (name, t) :: place) := by
  rw [follow] at h
  split at h
  · cases h
  · rename_i entries hentries
    refine ⟨⟨entries, hentries⟩, ?_⟩
    split at h
    · rename_i hstay
      exact Or.inl ⟨hstay, (Except.ok.inj h).symm⟩
    · rename_i hmove
      rw [not_or] at hmove
      split at h
      · rename_i hback
        exact Or.inr (Or.inl ⟨hback, (Except.ok.inj h).symm⟩)
      · rename_i hback
        split at h
        · cases h
        · split at h
          · rename_i t ht
            exact Or.inr (Or.inr ⟨⟨hmove.1, hmove.2, hback⟩, entries, t, hentries, ht,
              (Except.ok.inj h).symm⟩)
          · cases h

/-- Going on to an entry, which has to be there. -/
theorem follow_eq_ok_iff {entries : List (String × FileTree)} (hname : IsEntryName name)
    (hentries : root.at place = .directory entries) :
    root.follow place name = .ok next ↔
      ∃ t, entries.lookup name = some t ∧ next = (name, t) :: place := by
  rw [follow, hentries]
  simp only [hname.ne_empty, hname.ne_dot, hname.ne_dotDot, or_self, if_false,
    if_neg (Nat.not_lt.2 hname.length_le)]
  cases entries.lookup name with
  | none => simp
  | some t => simp [eq_comm]

theorem follow_of_stays (h : root.IsDirectory place) (hname : name = "" ∨ name = ".") :
    root.follow place name = .ok place := by
  obtain ⟨entries, hentries⟩ := h
  rw [follow, hentries]
  exact if_pos hname

theorem follow_dotDot (h : root.IsDirectory place) : root.follow place ".." = .ok place.tail := by
  obtain ⟨entries, hentries⟩ := h
  rw [follow, hentries]
  rfl

theorem isDirectory_of_follow (h : root.follow place name = .ok next) : root.IsDirectory place :=
  (follow_cases h).1

theorem names_follow (h : root.follow place name = .ok next) :
    next.names = Path.move place.names name := by
  obtain ⟨-, ⟨hstay, rfl⟩ | ⟨rfl, rfl⟩ | ⟨⟨hempty, hdot, hback⟩, entries, t, -, -, rfl⟩⟩ :=
    follow_cases h
  · rw [Path.move, if_pos hstay]
  · rw [Path.move, if_neg (by decide), if_pos rfl, Place.names, Place.names, List.map_tail]
  · rw [Path.move, if_neg (not_or.2 ⟨hempty, hdot⟩), if_neg hback]
    rfl

theorem IsPlace.tail (h : root.IsPlace place) : root.IsPlace place.tail :=
  h.of_suffix (List.tail_suffix _)

theorem IsPlace.follow (hplace : root.IsPlace place) (h : root.follow place name = .ok next) :
    root.IsPlace next := by
  obtain ⟨-, ⟨-, rfl⟩ | ⟨-, rfl⟩ | ⟨-, entries, t, hentries, ht, rfl⟩⟩ := follow_cases h
  · exact hplace
  · exact hplace.tail
  · exact ⟨hplace, entries, hentries, ht⟩

/-! ## Step by step -/

theorem followAll_cons_eq_ok_iff :
    root.followAll place (name :: rest) = .ok q ↔
      ∃ next, root.follow place name = .ok next ∧ root.followAll next rest = .ok q := by
  rw [followAll]
  cases root.follow place name with
  | ok next => simp
  | error fault => simp

theorem followAll_append_eq_ok_iff :
    root.followAll place (names ++ rest) = .ok q ↔
      ∃ next, root.followAll place names = .ok next ∧ root.followAll next rest = .ok q := by
  induction names generalizing place with
  | nil => simp [followAll]
  | cons name names ih =>
    simp only [List.cons_append, followAll_cons_eq_ok_iff, ih]
    exact ⟨fun ⟨r, hr, next, hnext, hq⟩ => ⟨next, ⟨r, hr, hnext⟩, hq⟩,
      fun ⟨next, ⟨r, hr, hnext⟩, hq⟩ => ⟨r, hr, next, hnext, hq⟩⟩

/-- The last step decides, after the others. -/
theorem followAll_concat (h : root.followAll place names = .ok next) :
    root.followAll place (names ++ [name]) = root.follow next name := by
  induction names generalizing place with
  | nil =>
    cases h
    rw [List.nil_append, followAll]
    cases root.follow next name with
    | ok r => rfl
    | error fault => rfl
  | cons first names ih =>
    obtain ⟨r, hr, hnext⟩ := followAll_cons_eq_ok_iff.1 h
    rw [List.cons_append, followAll, hr]
    exact ih hnext

theorem isDirectory_of_followAll (h : root.followAll place names = .ok q)
    (hq : root.IsDirectory q) : root.IsDirectory place := by
  cases names with
  | nil =>
    cases h
    exact hq
  | cons name names =>
    obtain ⟨next, hnext, -⟩ := followAll_cons_eq_ok_iff.1 h
    exact isDirectory_of_follow hnext

theorem IsPlace.followAll (hplace : root.IsPlace place) (h : root.followAll place names = .ok q) :
    root.IsPlace q := by
  induction names generalizing place with
  | nil =>
    cases h
    exact hplace
  | cons name names ih =>
    obtain ⟨next, hnext, hq⟩ := followAll_cons_eq_ok_iff.1 h
    exact ih (hplace.follow hnext) hq

/-- **Steps lead along their route.** -/
theorem names_followAll (h : root.followAll place names = .ok q) :
    q.names = (Path.route names).behind place.names := by
  rw [← Path.foldl_move]
  induction names generalizing place with
  | nil =>
    cases h
    rfl
  | cons name names ih =>
    obtain ⟨next, hnext, hq⟩ := followAll_cons_eq_ok_iff.1 h
    rw [ih hq, names_follow hnext, List.foldl_cons]

/-- On the way to a directory, steps that stay where they are can be left out. -/
theorem followAll_filter (hq : root.IsDirectory q) :
    root.followAll place (names.filter Path.isMove) = .ok q ↔
      root.followAll place names = .ok q := by
  induction names generalizing place with
  | nil => rfl
  | cons name names ih =>
    by_cases hname : name = "" ∨ name = "."
    · rw [List.filter_cons_of_neg (by simpa [Path.isMove, or_iff_not_imp_left] using hname), ih,
        followAll_cons_eq_ok_iff]
      refine ⟨fun h => ⟨place, follow_of_stays (isDirectory_of_followAll h hq) hname, h⟩, ?_⟩
      rintro ⟨next, hnext, h⟩
      rw [follow_of_stays (isDirectory_of_follow hnext) hname] at hnext
      cases hnext
      exact h
    · rw [List.filter_cons_of_pos (by simpa [Path.isMove] using hname)]
      simp only [followAll_cons_eq_ok_iff, ih]

/-! ## Paths -/

/-- The entries of every directory have different names, by which they can be followed. -/
inductive IsProper : FileTree → Prop
  | file (content : ByteArray) : IsProper (.file content)
  | directory {entries : List (String × FileTree)} (nodup : (entries.map Prod.fst).Nodup)
      (isEntryName : ∀ e ∈ entries, IsEntryName e.1) (isProper : ∀ e ∈ entries, IsProper e.2) :
      IsProper (.directory entries)

end FileTree

open FileTree (Place maxNameLength maxPathLength IsEntryName)

/-- A text that is accepted as a path. -/
structure IsValidPath (path : String) : Prop where
  ne_empty : path ≠ ""
  noNul : '\x00' ∉ path.toList
  length_le : path.utf8ByteSize ≤ maxPathLength

/-- A file system with a current directory. -/
structure FileSystem where
  root : FileTree
  current : Place
  isProper : root.IsProper
  isPlace : root.IsPlace current
  isDirectory : root.IsDirectory current

namespace FileSystem

/-- What the file system has at a path. -/
def files (s : FileSystem) : Files :=
  s.root.files s.current

/-- Where a path leads. -/
def locate (s : FileSystem) (path : String) : Except ReadFault Place :=
  s.root.locate s.current path

/-- Where a path starts. -/
def origin (s : FileSystem) (path : String) : Place :=
  if Path.isAbsolute path.toList then [] else s.current

/-- The path leads to a directory. -/
structure LeadsTo (s : FileSystem) (path : String) (place : Place) : Prop where
  locate_eq : s.locate path = .ok place
  isDirectory : s.root.IsDirectory place

variable {s : FileSystem} {path d name : String} {place next : Place}

theorem isPlace_origin : s.root.IsPlace (s.origin path) := by
  rw [origin]
  split
  · trivial
  · exact s.isPlace

theorem isDirectory_root : s.root.IsDirectory [] :=
  s.isPlace.isDirectory_root s.isDirectory

theorem files_eq_ok_iff {entry : Entry} :
    s.files path = .ok entry ↔
      ∃ place, s.locate path = .ok place ∧ (s.root.at place).entry = entry := by
  rw [files, FileTree.files, locate]
  cases s.root.locate s.current path with
  | ok place => simp
  | error fault => simp

/-- **A path is followed piece by piece.** -/
theorem locate_eq (h : IsValidPath path) :
    s.locate path = s.root.followAll (s.origin path) (Path.pieces path) := by
  obtain ⟨c, rest, hrest⟩ := List.exists_cons_of_ne_nil (mt String.toList_eq_nil_iff.1 h.ne_empty)
  obtain ⟨first, more, hmore⟩ := List.exists_cons_of_ne_nil (List.splitOn_ne_nil '/' rest)
  rw [locate, FileTree.locate, if_neg h.noNul, if_neg (Nat.not_lt.2 h.length_le), origin,
    Path.pieces, hrest, List.splitOn_cons_eq_if_modifyHead, hmore]
  by_cases hc : c = '/'
  · subst hc
    have hroot : s.root.follow [] "" = .ok [] :=
      FileTree.follow_of_stays isDirectory_root (Or.inl rfl)
    rw [if_pos (beq_self_eq_true '/'), if_pos (Path.isAbsolute_iff.2 ⟨rest, rfl⟩)]
    simp [FileTree.followAll, hroot]
  · have hrelative : ¬ Path.isAbsolute (c :: rest) := by
      simpa [Path.isAbsolute_iff] using hc
    have hfirst : String.ofList (c :: first) ≠ "" := by simp
    rw [if_neg (by simpa using hc), if_neg hrelative, List.modifyHead_cons, List.map_cons]
    split
    · rename_i heq
      exact (hfirst (List.cons.inj heq).1).elim
    · rename_i heq
      exact (hfirst (List.cons.inj heq).1).elim
    · rfl

theorem locate_eq_ok_iff :
    s.locate path = .ok place ↔
      IsValidPath path ∧ s.root.followAll (s.origin path) (Path.pieces path) = .ok place := by
  refine ⟨fun h => ?_, fun ⟨hvalid, h⟩ => (locate_eq hvalid).trans h⟩
  have hnul : '\x00' ∉ path.toList := by
    intro hmem
    rw [locate, FileTree.locate, if_pos hmem] at h
    cases h
  have hlength : path.utf8ByteSize ≤ maxPathLength := by
    by_contra hlong
    rw [locate, FileTree.locate, if_neg hnul, if_pos (Nat.not_le.1 hlong)] at h
    cases h
  have hempty : path ≠ "" := by
    rintro rfl
    rw [locate, FileTree.locate, if_neg hnul, if_neg (Nat.not_lt.2 hlength)] at h
    cases h
  have hvalid : IsValidPath path := ⟨hempty, hnul, hlength⟩
  exact ⟨hvalid, (locate_eq hvalid).symm.trans h⟩

theorem isPlace_of_locate (h : s.locate path = .ok place) : s.root.IsPlace place :=
  isPlace_origin.followAll (locate_eq_ok_iff.1 h).2

/-- **The directory at a path is the one to which its steps lead.** -/
theorem leadsTo_iff :
    s.LeadsTo path place ↔ IsValidPath path ∧ s.root.IsDirectory place ∧
      s.root.followAll (s.origin path) (Path.steps path) = .ok place := by
  have hsteps (hplace : s.root.IsDirectory place) :
      s.root.followAll (s.origin path) (Path.steps path) = .ok place ↔
        s.root.followAll (s.origin path) (Path.pieces path) = .ok place := by
    rw [← FileTree.followAll_filter hplace, Path.filter_steps, FileTree.followAll_filter hplace]
  constructor
  · rintro ⟨h, hplace⟩
    obtain ⟨hvalid, h⟩ := locate_eq_ok_iff.1 h
    exact ⟨hvalid, hplace, (hsteps hplace).2 h⟩
  · rintro ⟨hvalid, hplace, h⟩
    exact ⟨locate_eq_ok_iff.2 ⟨hvalid, (hsteps hplace).1 h⟩, hplace⟩

/-! ## On the way -/

/-- An entry below a directory is looked for in the place to which the steps of its path lead. -/
theorem locate_join (hnul : '\x00' ∉ d.toList) (hplace : s.root.IsDirectory place)
    (h : s.root.followAll (s.origin d) (Path.steps d) = .ok place) (hname : IsEntryName name)
    (hlength : (Path.join d name).utf8ByteSize ≤ maxPathLength) :
    s.locate (Path.join d name) = s.root.follow place name := by
  have hvalid : IsValidPath (Path.join d name) := by
    refine ⟨?_, fun hmem => ?_, hlength⟩
    · rw [Path.join]
      split <;> simp [hname.ne_empty]
    · rcases List.mem_append.1 (Path.subset_toList_join d name hmem) with hmem | hmem
      · exact hnul hmem
      · rcases List.mem_cons.1 hmem with heq | hmem
        · exact absurd heq (by decide)
        · exact hname.noNul hmem
  have horigin : s.origin (Path.join d name) = s.origin d := by
    simp only [origin, Path.isAbsolute_join d hname.noSlash]
  obtain ⟨before, hpieces, hfilter⟩ := Path.exists_pieces_join d hname.noSlash
  have hbefore : s.root.followAll (s.origin d) before = .ok place := by
    rw [← FileTree.followAll_filter hplace, hfilter, ← Path.filter_steps,
      FileTree.followAll_filter hplace, h]
  rw [locate_eq hvalid, horigin, hpieces, FileTree.followAll_concat hbefore]

/-- Some steps of the path lead to one place, and the others from there to another. -/
structure Passes (s : FileSystem) (path : String) (way : List String) (passed place : Place) :
    Prop where
  followAll_eq : s.root.followAll (s.origin path) way = .ok passed
  exists_rest : ∃ rest, Path.steps path = way ++ rest ∧ s.root.followAll passed rest = .ok place

theorem Passes.mem_inits {way : List String} {passed : Place} (h : s.Passes path way passed place) :
    way ∈ (Path.steps path).inits := by
  obtain ⟨rest, hrest, -⟩ := h.exists_rest
  exact (List.mem_inits _ _).2 ⟨rest, hrest.symm⟩

/-- **The paths above a path lead to the directories that it passes**, where their entries are. -/
theorem LeadsTo.exists_passes (h : s.LeadsTo path place) (hd : d ∈ Path.ancestors path) :
    ∃ passed, s.Passes path (Path.steps d) passed place ∧ s.root.IsDirectory passed ∧
      ∀ name, IsEntryName name → (Path.join d name).utf8ByteSize ≤ maxPathLength →
        s.locate (Path.join d name) = s.root.follow passed name := by
  obtain ⟨hvalid, hplace, hsteps⟩ := leadsTo_iff.1 h
  obtain ⟨rest, hrest⟩ := (List.mem_inits _ _).1 (Path.mem_inits_steps_iff.2 ⟨d, hd, rfl⟩)
  rw [← hrest, FileTree.followAll_append_eq_ok_iff] at hsteps
  obtain ⟨passed, hpassed, hbehind⟩ := hsteps
  have horigin : s.origin d = s.origin path := by
    simp only [origin, Path.isAbsolute_iff_of_mem_ancestors hd]
  have hdirectory := FileTree.isDirectory_of_followAll hbehind hplace
  refine ⟨passed, ⟨hpassed, rest, hrest.symm, hbehind⟩, hdirectory, fun name hname hlength => ?_⟩
  exact locate_join (fun hmem => hvalid.noNul ((Path.isPrefix_of_mem_ancestors hd).subset hmem))
    hdirectory (horigin ▸ hpassed) hname hlength

end FileSystem
end PrefixPattern
