import Mathlib.Data.List.Infix
import Mathlib.Data.List.TakeWhile
import PrefixPattern.Path

/-!
# What lies above a path

A path is text, and its parent is found from the end of the text.  What the path says is a list of
components: the names between the slashes, `..` among them, and a `.` only where the path begins
with it.  Going to the parent takes the last component away, whatever slashes and dots stand around
it, and the paths above a path are those of all beginnings of its components.

## What is here

* `Path.names`, `Path.components`, `Path.isAbsolute` — what a path says.
* `Path.names_trimBack`, `Path.exists_names_eq_append` — trimming keeps the names, and what is in
  front of the last slash then has all but the last of them.
* `Path.LiesAbove` — one path is the parent of another, in terms of components;
  `Path.liesAbove_of_parentList?` and `Path.parentList?_eq_none_iff` have it of `Path.parentList?`.
* `Path.Ascent` — a path and everything above it; `Path.ascent_ancestors` has it of
  `Path.ancestors`.
-/

set_option autoImplicit false

namespace PrefixPattern
namespace Path

/-! ## What a path says -/

/-- What stands between the slashes of a path, apart from nothing and `.`. -/
def names (p : List Char) : List (List Char) :=
  (p.splitOn '/').filter fun name => name ≠ [] ∧ name ≠ ['.']

/-- The components of a path: its names, and a `.` that the path begins with. -/
def components (p : List Char) : List (List Char) :=
  if head p = ['.'] then ['.'] :: names p else names p

/-- The path starts from the root. -/
def isAbsolute (p : List Char) : Prop :=
  head p = ['/']

instance (p : List Char) : Decidable (isAbsolute p) :=
  inferInstanceAs (Decidable (_ = _))

theorem isAbsolute_iff {p : List Char} : isAbsolute p ↔ ∃ rest, p = '/' :: rest := by
  rw [isAbsolute]
  fun_cases head p with
  | case1 rest => simp
  | case2 => simp
  | case3 rest => simp
  | case4 p hslash _ _ => simpa using hslash

theorem names_nil : names [] = [] := rfl

theorem names_dot : names ['.'] = [] := rfl

theorem names_append_slash (p q : List Char) : names (p ++ '/' :: q) = names p ++ names q := by
  rw [names, List.splitOn_append_cons_self, List.filter_append]
  rfl

theorem names_slash (q : List Char) : names ('/' :: q) = names q :=
  names_append_slash [] q

/-- A text without slashes is one name, if it is one at all. -/
theorem names_of_notMem {name : List Char} (hslash : '/' ∉ name) (h : name ≠ [])
    (hdot : name ≠ ['.']) : names name = [name] := by
  rw [names, List.splitOn_eq_splitOnP, List.splitOnP_eq_singleton]
  · simp [h, hdot]
  · intro c hc
    simpa using fun heq : c = '/' => hslash (heq ▸ hc)

/-! ## From the end of the text -/

theorem names_trimBack (cs : List Char) : names (trimBack cs).reverse = names cs.reverse := by
  fun_induction trimBack cs with
  | case1 rest ih => rw [ih, List.reverse_cons, names_append_slash, names_nil, List.append_nil]
  | case2 => rfl
  | case3 rest ih =>
    rw [ih, List.reverse_cons, List.reverse_cons, List.append_assoc, List.singleton_append,
      names_append_slash, names_dot, List.append_nil]
  | case4 => rfl

theorem trimBack_suffix (cs : List Char) : trimBack cs <:+ cs := by
  fun_induction trimBack cs with
  | case1 rest ih => exact ih.trans (List.suffix_cons _ _)
  | case2 => exact List.nil_suffix
  | case3 rest ih => exact ih.trans ((List.suffix_cons _ _).trans (List.suffix_cons _ _))
  | case4 => exact List.suffix_rfl

/-- No slash and no `.` component is left at the end. -/
theorem trimBack_ne (cs rest : List Char) :
    trimBack cs ≠ '/' :: rest ∧ trimBack cs ≠ ['.'] ∧ trimBack cs ≠ '.' :: '/' :: rest := by
  fun_induction trimBack cs with
  | case1 more ih => exact ih
  | case2 => simp
  | case3 more ih => exact ih
  | case4 cs hslash hdot hdots => exact ⟨hslash rest, hdot, hdots rest⟩

theorem dropLast_suffix (cs : List Char) : dropLast cs <:+ cs :=
  (List.drop_suffix _ _).trans (List.dropWhile_suffix _)

/-- **Behind the last slash of a trimmed path is its last name.** -/
theorem exists_names_eq_append {cs : List Char} (h : trimBack cs ≠ []) :
    ∃ name, names (trimBack cs).reverse = names (dropLast (trimBack cs)).reverse ++ [name] := by
  have hne := trimBack_ne cs
  generalize trimBack cs = t at h hne ⊢
  obtain ⟨name, hname⟩ : ∃ name, t.takeWhile (· ≠ '/') = name := ⟨_, rfl⟩
  have hcut : t = name ++ t.dropWhile (· ≠ '/') := by
    rw [← hname, List.takeWhile_append_dropWhile]
  have hslash : '/' ∉ name.reverse := fun hmem => by
    rw [List.mem_reverse, ← hname] at hmem
    have hne := List.mem_takeWhile_imp hmem
    simp at hne
  refine ⟨name.reverse, ?_⟩
  cases hrest : t.dropWhile (· ≠ '/') with
  | nil =>
    rw [hrest, List.append_nil] at hcut
    subst hcut
    rw [dropLast, hrest, List.drop_nil, List.reverse_nil, names_nil, List.nil_append]
    exact names_of_notMem hslash (by simpa using h) (by simpa using (hne []).2.1)
  | cons c rest =>
    have hc := List.head?_dropWhile_not (· ≠ '/') t
    rw [hrest] at hc hcut
    obtain rfl : c = '/' := by simpa using hc
    rw [dropLast, hrest, List.drop_one, List.tail_cons, hcut, List.reverse_append,
      List.reverse_cons, List.append_assoc, List.singleton_append, names_append_slash,
      names_of_notMem hslash]
    · rintro hnil
      rw [List.reverse_eq_nil_iff.1 hnil] at hcut
      exact (hne rest).1 hcut
    · rintro hdot
      rw [List.reverse_eq_iff.1 hdot] at hcut
      exact (hne rest).2.2 hcut

/-! ## The parent -/

theorem names_drop_head (p : List Char) : names (p.drop (head p).length) = names p := by
  unfold head
  split
  · exact (names_slash _).symm
  · rfl
  · exact (names_slash _).trans (names_append_slash ['.'] _).symm
  · rfl

theorem head_append_drop (p : List Char) : head p ++ p.drop (head p).length = p := by
  unfold head
  split <;> rfl

/-- What a path starts with does not change where only names are taken away from its end. -/
theorem head_append {p q : List Char} (hq : q <+: p.drop (head p).length) (hdot : q ≠ ['.']) :
    head (head p ++ q) = head p := by
  fun_cases head p with
  | case1 r => rfl
  | case2 =>
    obtain rfl : q = [] := by simpa [head] using hq
    rfl
  | case3 r =>
    obtain rfl | ⟨t, rfl⟩ : q = [] ∨ ∃ t, q = '/' :: t := by
      cases q with
      | nil => exact Or.inl rfl
      | cons c t => exact Or.inr ⟨t, by simpa using (List.cons_prefix_cons.1 hq).1⟩
    · rfl
    · rfl
  | case4 p hslash hone hdots =>
    have hnil : head p = [] := by
      rw [head] <;> assumption
    rw [hnil] at hq
    obtain ⟨t, rfl⟩ : q <+: p := hq
    rw [List.nil_append]
    fun_cases head q with
    | case1 r => exact (hslash (r ++ t) rfl).elim
    | case2 => exact absurd rfl hdot
    | case3 r => exact (hdots (r ++ t) rfl).elim
    | case4 => rfl

theorem components_eq_nil_iff {p : List Char} :
    components p = [] ↔ head p ≠ ['.'] ∧ names p = [] := by
  rw [components]
  split
  · rename_i h
    simp [h]
  · rename_i h
    simp [h]

/-- The names of a path are those of its trimmed end. -/
theorem names_eq_trimBack (p : List Char) :
    names p = names (trimBack (p.drop (head p).length).reverse).reverse := by
  rw [names_trimBack, List.reverse_reverse, names_drop_head]

theorem parentList?_eq_none_iff {p : List Char} : parentList? p = none ↔ components p = [] := by
  rw [components_eq_nil_iff, names_eq_trimBack]
  simp only [parentList?]
  split
  · rename_i h
    rw [h]
    simp [names_nil]
  · rename_i h
    obtain ⟨name, hname⟩ := exists_names_eq_append h
    simp [hname]

/-- One path is the parent of another: it has one component less, starts from the same place, and is
the beginning of its text. -/
structure LiesAbove (q p : List Char) : Prop where
  exists_components : ∃ name, components p = components q ++ [name]
  isAbsolute_iff : isAbsolute q ↔ isAbsolute p
  isPrefix : q <+: p

/-- A path without its last name and what is around it. -/
theorem liesAbove_head_append {p q name : List Char} (hq : q <+: p.drop (head p).length)
    (hdot : q ≠ ['.']) (hname : names p = names q ++ [name]) : LiesAbove (head p ++ q) p := by
  have hhead : head (head p ++ q) = head p := head_append hq hdot
  have hnames : names (head p ++ q) = names q := by
    rw [← names_drop_head, hhead, List.drop_left]
  refine ⟨⟨name, ?_⟩, ?_, ?_⟩
  · rw [components, components, hhead, hnames, hname]
    split <;> rfl
  · rw [isAbsolute, isAbsolute, hhead]
  · have happend := (List.prefix_append_right_inj (head p)).2 hq
    rwa [head_append_drop] at happend

/-- **The parent of a path has one component less.** -/
theorem liesAbove_of_parentList? {p q : List Char} (h : parentList? p = some q) :
    LiesAbove q p := by
  have hnames := names_eq_trimBack p
  simp only [parentList?] at h
  split at h
  · rename_i hbody
    split at h
    · rename_i hdot
      cases h
      have hnil : head [] = [] := rfl
      rw [hbody] at hnames
      exact ⟨⟨['.'], by simp [components, hdot, hnames, hnil, names_nil]⟩,
        by simp [isAbsolute, hdot, hnil], List.nil_prefix⟩
    · cases h
  · rename_i hbody
    cases h
    obtain ⟨name, hname⟩ := exists_names_eq_append hbody
    rw [← names_trimBack (dropLast _), ← hnames] at hname
    refine liesAbove_head_append ?_ ?_ hname
    · rw [← List.reverse_suffix, List.reverse_reverse]
      exact (trimBack_suffix _).trans ((dropLast_suffix _).trans (trimBack_suffix _))
    · rw [Ne, List.reverse_eq_iff]
      exact (trimBack_ne _ []).2.1

/-! ## Everything above a path -/

/-- A path and everything above it: the directories of all beginnings of its components, all from
the same place and written like the path itself. -/
structure Ascent (p : List Char) (ds : List (List Char)) : Prop where
  components_eq : ds.map components = (components p).inits.reverse
  isAbsolute_iff : ∀ d ∈ ds, isAbsolute d ↔ isAbsolute p
  isPrefix : ∀ d ∈ ds, d <+: p

theorem ascent_ancestorsList (p : List Char) : Ascent p (ancestorsList p) := by
  fun_induction ancestorsList p with
  | case1 p h =>
    refine ⟨?_, by simp, by simp⟩
    rw [parentList?_eq_none_iff.1 h]
    simpa using parentList?_eq_none_iff.1 h
  | case2 p q h ih =>
    obtain ⟨⟨name, hname⟩, habsolute, hprefix⟩ := liesAbove_of_parentList? h
    refine ⟨?_, List.forall_mem_cons.2 ⟨Iff.rfl, fun d hd => ?_⟩,
      List.forall_mem_cons.2 ⟨List.prefix_rfl, fun d hd => ?_⟩⟩
    · rw [List.map_cons, ih.components_eq, hname]
      simp
    · exact (ih.isAbsolute_iff d hd).trans habsolute
    · exact (ih.isPrefix d hd).trans hprefix

/-- **Going up takes one component after the other.** -/
theorem ascent_ancestors (p : String) :
    Ascent p.toList ((ancestors p).map String.toList) := by
  have hlist : (ancestors p).map String.toList = ancestorsList p.toList := by
    rw [ancestors, List.map_map]
    exact (List.map_congr_left fun cs _ => String.toList_ofList).trans (List.map_id _)
  rw [hlist]
  exact ascent_ancestorsList p.toList

end Path
end PrefixPattern
