import Mathlib.Data.List.Nodup
import Mathlib.Data.String.Basic
import PrefixPattern.NameMap

/-!
# Maps whose names ascend

A map is a list of pairs and could hold its names in any order, and one of them twice.  The maps
that are built by insertion do not: their names ascend, so what stands for each name is all there is
to say of them.

## What is here

* `NameMap.Ascending` — the invariant; `NameMap.ascending_insert` keeps it and
  `NameMap.ascending_ofList` has it of the map of any pairs.
* `NameMap.mem_iff_find?`, `NameMap.ext` — an ascending map is determined by what its names stand
  for.
* `NameMap.find?_filter` — a part of a map that is chosen by name.
* `NameMap.ofList_eq` — a map that ascends already is left as it is.
* `NameMap.perm_ofList` — pairs whose names differ are all in their map.
* `NameMap.ofList_map` — what the names stand for has no part in where they stand.
-/

set_option autoImplicit false

namespace PrefixPattern
namespace NameMap

variable {α : Type}

/-- The names of the map ascend, so none of them comes twice. -/
def Ascending (m : NameMap α) : Prop :=
  m.names.Pairwise (· < ·)

instance (m : NameMap α) : Decidable m.Ascending :=
  inferInstanceAs (Decidable (m.names.Pairwise (· < ·)))

theorem ascending_nil : Ascending ([] : NameMap α) := List.Pairwise.nil

theorem ascending_cons {name : String} {a : α} {m : NameMap α} :
    Ascending ((name, a) :: m) ↔ (∀ other ∈ m.names, name < other) ∧ m.Ascending :=
  List.pairwise_cons

theorem Ascending.nodup {m : NameMap α} (h : m.Ascending) : m.names.Nodup :=
  h.imp fun hlt => ne_of_lt hlt

theorem Ascending.filter {m : NameMap α} (h : m.Ascending) (p : String × α → Bool) :
    Ascending (m.filter p) :=
  h.sublist (List.filter_sublist.map _)

/-- The names may come to stand for something else. -/
theorem Ascending.map {β : Type} {m : NameMap α} (h : m.Ascending) {f : String × α → String × β}
    (hf : ∀ p, (f p).1 = p.1) : Ascending (m.map f) := by
  have hnames : names (m.map f) = m.names := by
    rw [names, names, List.map_map]
    exact List.map_congr_left fun p _ => hf p
  rw [Ascending, hnames]
  exact h

/-! ## Insertion -/

theorem mem_names_insert {name other : String} {a : α} {m : NameMap α} :
    other ∈ (insert name a m).names ↔ other = name ∨ other ∈ m.names := by
  induction m with
  | nil => simp [insert, names]
  | cons p m ih =>
    obtain ⟨first, b⟩ := p
    rw [insert]
    split
    · simp [names]
    · split
      · rename_i heq
        simp [names, heq]
      · have hnames : ∀ m' : NameMap α, names ((first, b) :: m') = first :: names m' :=
          fun _ => rfl
        rw [hnames, hnames, List.mem_cons, ih, List.mem_cons]
        tauto

/-- **Insertion keeps the names in ascending order.** -/
theorem ascending_insert {m : NameMap α} (h : m.Ascending) (name : String) (a : α) :
    Ascending (insert name a m) := by
  induction m with
  | nil => exact List.pairwise_singleton _ _
  | cons p m ih =>
    obtain ⟨first, b⟩ := p
    obtain ⟨hfirst, hm⟩ := ascending_cons.1 h
    rw [insert]
    split
    · rename_i hlt
      refine ascending_cons.2 ⟨fun other hother => ?_, h⟩
      rcases List.mem_cons.1 hother with rfl | hother
      · exact hlt
      · exact lt_trans hlt (hfirst other hother)
    · rename_i hge
      split
      · rename_i heq
        exact ascending_cons.2 ⟨heq ▸ hfirst, hm⟩
      · rename_i hne
        refine ascending_cons.2 ⟨fun other hother => ?_, ih hm⟩
        rcases mem_names_insert.1 hother with rfl | hother
        · exact lt_of_le_of_ne (not_lt.1 hge) (Ne.symm hne)
        · exact hfirst other hother

theorem ascending_foldl {m : NameMap α} (h : m.Ascending) (l : List (String × α)) :
    Ascending (l.foldl (fun m p => insert p.1 p.2 m) m) := by
  induction l generalizing m with
  | nil => exact h
  | cons p l ih => exact ih (ascending_insert h p.1 p.2)

theorem ascending_ofList (l : List (String × α)) : Ascending (ofList l) :=
  ascending_foldl ascending_nil l

/-- Inserting a name behind all others puts it at the end. -/
theorem insert_eq_append {name : String} {a : α} {m : NameMap α}
    (h : ∀ other ∈ m.names, other < name) : insert name a m = m ++ [(name, a)] := by
  induction m with
  | nil => rfl
  | cons p m ih =>
    obtain ⟨first, b⟩ := p
    have hfirst : first < name := h first List.mem_cons_self
    rw [insert, if_neg (lt_asymm hfirst), if_neg (ne_of_gt hfirst),
      ih fun other hother => h other (List.mem_cons_of_mem _ hother)]
    rfl

/-- **A map that ascends already is left as it is.** -/
theorem ofList_eq {m : NameMap α} (h : m.Ascending) : ofList m = m := by
  have hfold : ∀ before : NameMap α, Ascending (before ++ m) →
      m.foldl (fun m p => insert p.1 p.2 m) before = before ++ m := by
    induction m with
    | nil => simp
    | cons p m ih =>
      intro before hall
      have hlast : ∀ other ∈ before.names, other < p.1 := by
        intro other hother
        rw [Ascending, names, List.map_append, List.pairwise_append] at hall
        exact hall.2.2 other hother p.1 List.mem_cons_self
      rw [List.foldl_cons, insert_eq_append hlast]
      have hnext := ih (ascending_cons.1 h).2 (before ++ [p])
      rw [List.append_assoc, List.singleton_append] at hnext
      exact hnext hall
  exact hfold [] h

/-- A new name goes somewhere between the others. -/
theorem perm_insert {name : String} {a : α} {m : NameMap α} (h : name ∉ m.names) :
    (insert name a m).Perm ((name, a) :: m) := by
  induction m with
  | nil => exact List.Perm.refl _
  | cons p m ih =>
    obtain ⟨first, b⟩ := p
    obtain ⟨hne, hm⟩ : ¬name = first ∧ name ∉ names m := not_or.1 (mt List.mem_cons.2 h)
    rw [insert, if_neg hne]
    split
    · exact List.Perm.refl _
    · exact ((ih hm).cons _).trans (.swap _ _ _)

/-- **The pairs are all in the map where no name comes twice.** -/
theorem perm_ofList {l : List (String × α)} (h : (l.map Prod.fst).Nodup) : (ofList l).Perm l := by
  have hfold : ∀ before : NameMap α, (before.names ++ l.map Prod.fst).Nodup →
      (l.foldl (fun m p => insert p.1 p.2 m) before).Perm (before ++ l) := by
    clear h
    induction l with
    | nil => simp
    | cons p l ih =>
      intro before hall
      have hnew : p.1 ∉ before.names := fun hmem =>
        List.disjoint_of_nodup_append hall hmem List.mem_cons_self
      have hmoved : (before ++ p :: l).Perm (insert p.1 p.2 before ++ l) :=
        List.perm_middle.trans ((perm_insert hnew).symm.append_right l)
      refine (ih (insert p.1 p.2 before) ?_).trans hmoved.symm
      have hnames := hmoved.map Prod.fst
      rw [List.map_append, List.map_append] at hnames
      exact hnames.nodup_iff.1 hall
  exact hfold [] h

/-- What the names stand for may be changed before or after. -/
theorem insert_map {β : Type} (f : α → β) (name : String) (a : α) (m : NameMap α) :
    insert name (f a) (m.map fun p => (p.1, f p.2)) =
      (insert name a m).map fun p => (p.1, f p.2) := by
  induction m with
  | nil => rfl
  | cons p m ih =>
    rw [List.map_cons, insert, insert, ih]
    split
    · rfl
    · split <;> rfl

theorem ofList_map {β : Type} (f : α → β) (l : List (String × α)) :
    ofList (l.map fun p => (p.1, f p.2)) = (ofList l).map fun p => (p.1, f p.2) := by
  have hfold : ∀ m : NameMap α,
      (l.map fun p => (p.1, f p.2)).foldl (fun m p => insert p.1 p.2 m)
          (m.map fun p => (p.1, f p.2)) =
        (l.foldl (fun m p => insert p.1 p.2 m) m).map fun p => (p.1, f p.2) := by
    induction l with
    | nil => exact fun _ => rfl
    | cons p l ih =>
      intro m
      rw [List.map_cons, List.foldl_cons, List.foldl_cons, ← ih, ← insert_map]
  exact hfold []

/-! ## Names and what they stand for -/

/-- In an ascending map the pairs and the answers are the same thing. -/
theorem mem_iff_find? {m : NameMap α} (h : m.Ascending) {name : String} {a : α} :
    (name, a) ∈ m ↔ m.find? name = some a := by
  induction m with
  | nil => simp [find?]
  | cons p m ih =>
    obtain ⟨first, b⟩ := p
    obtain ⟨hfirst, hm⟩ := ascending_cons.1 h
    rw [List.mem_cons, find?, List.lookup_cons]
    by_cases heq : name = first
    · subst heq
      have hnot : (name, a) ∉ m := fun hmem =>
        lt_irrefl name (hfirst name (List.mem_map_of_mem hmem))
      simp [hnot, eq_comm]
    · have hbeq : (name == first) = false := by simpa using heq
      rw [hbeq, Prod.mk.injEq, ih hm]
      simp [heq, find?]

/-- A name is in the map just where it stands for something. -/
theorem mem_names_iff {m : NameMap α} (h : m.Ascending) {name : String} :
    name ∈ m.names ↔ ∃ a, m.find? name = some a := by
  rw [names, List.mem_map]
  refine ⟨?_, ?_⟩
  · rintro ⟨⟨_, a⟩, hmem, rfl⟩
    exact ⟨a, (mem_iff_find? h).1 hmem⟩
  · rintro ⟨a, ha⟩
    exact ⟨(name, a), (mem_iff_find? h).2 ha, rfl⟩

/-- The order of the pairs is the only one that ascends. -/
theorem eq_of_perm {m m' : NameMap α} (h : m.Ascending) (h' : m'.Ascending) (hperm : m.Perm m') :
    m = m' := by
  have hpairs : m.Pairwise fun p q => p.1 < q.1 := List.pairwise_map.1 h
  refine hperm.eq_of_pairwise ?_ hpairs (List.pairwise_map.1 h')
  intro p q _ _ hpq hqp
  exact absurd hpq (lt_asymm hqp)

/-- **Ascending maps in which every name stands for the same are equal.** -/
theorem ext {m m' : NameMap α} (h : m.Ascending) (h' : m'.Ascending)
    (hfind : ∀ name, m.find? name = m'.find? name) : m = m' := by
  refine eq_of_perm h h' ((List.perm_ext_iff_of_nodup (List.Nodup.of_map _ h.nodup)
    (List.Nodup.of_map _ h'.nodup)).2 ?_)
  rintro ⟨name, a⟩
  rw [mem_iff_find? h, mem_iff_find? h', hfind]

/-- A part of a map that is chosen by name. -/
theorem find?_filter {m : NameMap α} (h : m.Ascending) (p : String → Bool) (name : String) :
    find? (m.filter fun q => p q.1) name = if p name then m.find? name else none := by
  have hmem : ∀ a, find? (m.filter fun q => p q.1) name = some a ↔
      p name = true ∧ m.find? name = some a := by
    intro a
    rw [← mem_iff_find? (h.filter _), ← mem_iff_find? h, List.mem_filter, and_comm]
  split
  · rename_i hp
    refine Option.ext fun a => ?_
    rw [hmem]
    simp [hp]
  · rename_i hp
    rw [Option.eq_none_iff_forall_ne_some]
    intro a ha
    exact hp ((hmem a).1 ha).1

end NameMap
end PrefixPattern
