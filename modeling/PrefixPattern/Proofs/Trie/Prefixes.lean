import PrefixPattern.Proofs.Trie.Shape

/-!
# Nodes and the prefixes they stand for

A node of the trie of a list stands for a prefix: it holds what is left of the strings behind that
prefix.  What can be seen at the node, whether it is terminal and how its row begins, can then be
said of the list alone.

## What is here

* `Node.children` — the children of a node, each with its character.
* `Node.child_induction` — a property of all trees, from the children of a node to the node.
* `continuations`, `IsGroupingPoint` — what follows a prefix among the strings of a list, and
  whether a group is written there.
* `Node.StandsFor n l p` — the node `n` is the one of the prefix `p` in the trie of the list `l`;
  `Trie.standsFor_root` and `Node.StandsFor.child` have it of every node on the way down.
* `Node.StandsFor.card_continuations`, `Node.StandsFor.isGroupingPoint_iff` — the same questions,
  asked at the node.
-/

set_option autoImplicit false

namespace PrefixPattern

/-! ## Rows as maps -/

namespace Branches

theorem mem_chars_iff_find? {row : Branches} {c : Char} :
    c ∈ row.chars ↔ ∃ m, row.find? c = some m := by
  induction row with
  | nil => simp [chars, find?]
  | cons d t below next _ ih =>
    rw [chars, List.mem_cons, find?]
    by_cases hcd : c = d
    · rw [if_pos hcd]
      exact iff_of_true (Or.inl hcd) ⟨_, rfl⟩
    · rw [if_neg hcd, ← ih]
      exact or_iff_right hcd

theorem live_of_find? {row : Branches} (h : row.Sound) {c : Char} {m : Node}
    (hm : row.find? c = some m) : m.terminal = true ∨ m.branches ≠ nil := by
  induction row with
  | nil => cases hm
  | cons e t below next _ ih =>
    rw [find?] at hm
    split at hm
    · cases hm
      exact h.1
    · exact ih h.2.2.2 hm

/-- The characters of a row ascend. -/
theorem pairwise_chars {row : Branches} (h : row.Sound) : row.chars.Pairwise (· < ·) := by
  induction row with
  | nil => exact List.Pairwise.nil
  | cons c t below next _ ih => exact List.pairwise_cons.2 ⟨h.2.1, ih h.2.2.2⟩

theorem nodup_chars {row : Branches} (h : row.Sound) : row.chars.Nodup :=
  (pairwise_chars h).imp fun hlt => ne_of_lt hlt

end Branches

/-! ## Children -/

/-- The branches of a row, each with the node that it leads to. -/
def Branches.toList : Branches → List (Char × Node)
  | nil => []
  | cons c t below next => (c, ⟨t, below⟩) :: toList next

/-- The children of a node, each with its character. -/
def Node.children (n : Node) : List (Char × Node) :=
  n.branches.toList

namespace Branches

theorem map_fst_toList (row : Branches) : row.toList.map Prod.fst = row.chars := by
  induction row with
  | nil => rfl
  | cons c t below next _ ih => rw [toList, List.map_cons, ih, chars]

theorem nodeCount_lt_of_mem {row : Branches} {child : Char × Node} (h : child ∈ row.toList) :
    child.2.branches.nodeCount < row.nodeCount := by
  induction row with
  | nil => cases h
  | cons c t below next _ ih =>
    rw [nodeCount]
    rcases List.mem_cons.1 h with rfl | h
    · exact (Nat.lt_one_add_iff.2 (le_refl _)).trans_le (Nat.le_add_right _ _)
    · exact (ih h).trans_le (Nat.le_add_left _ _)

end Branches

namespace Node

theorem at?_cons (n : Node) (c : Char) (w : List Char) :
    n.at? (c :: w) = (n.branches.find? c).bind (·.at? w) := by
  rw [at?]
  cases n.branches.find? c <;> rfl

/-- A word leads as far as its beginning does, and on from there. -/
theorem at?_append (n : Node) (v w : List Char) : n.at? (v ++ w) = (n.at? v).bind (·.at? w) := by
  induction v generalizing n with
  | nil => rfl
  | cons c v ih =>
    rw [List.cons_append, at?_cons, at?_cons]
    cases n.branches.find? c with
    | none => rfl
    | some m => exact ih m

theorem sound_of_at? {n m : Node} (h : n.Sound) {w : List Char} (hm : n.at? w = some m) :
    m.Sound := by
  induction w generalizing n with
  | nil =>
    cases hm
    exact h
  | cons c w ih =>
    rw [at?_cons, Option.bind_eq_some_iff] at hm
    obtain ⟨next, hnext, hm⟩ := hm
    exact ih (Branches.sound_of_find? h hnext) hm

/-- What holds of a node as soon as it holds of all its children holds of every node. -/
theorem child_induction {P : Node → Prop}
    (step : ∀ n : Node, (∀ c m, n.branches.find? c = some m → P m) → P n) (n : Node) : P n := by
  refine step n ?_
  obtain ⟨t, row⟩ := n
  induction row with
  | nil => intro c m hm; cases hm
  | cons d u below next ihb ihn =>
    intro c m hm
    simp only [Branches.find?] at hm
    split at hm
    · cases hm
      exact step _ ihb
    · exact ihn c m hm

theorem child_of_find? {n m : Node} {c : Char} (h : n.branches.find? c = some m) :
    n.child c = m := by
  rw [child, h, Option.getD_some]

theorem contains_cons_iff {n : Node} {c : Char} {w : List Char} :
    n.contains (c :: w) = true ↔ ∃ m, n.branches.find? c = some m ∧ m.contains w = true := by
  rw [contains_cons, child]
  cases n.branches.find? c with
  | none => simp
  | some m => simp

theorem isLeaf_iff {n : Node} : n.isLeaf = true ↔ n.branches = .nil := by
  rw [isLeaf]
  cases n.branches <;> simp

/-- A leaf holds at most the empty word. -/
theorem eq_nil_of_leaf {n : Node} (h : n.branches = .nil) {w : List Char}
    (hw : n.contains w = true) : w = [] := by
  cases w with
  | nil => rfl
  | cons c w =>
    obtain ⟨m, hm, -⟩ := contains_cons_iff.1 hw
    rw [h] at hm
    cases hm

/-- A sound node that goes on holds a word that does. -/
theorem exists_contains_cons {n : Node} (h : n.Sound) (hne : n.branches ≠ .nil) :
    ∃ c w, n.contains (c :: w) = true := by
  obtain ⟨t, row⟩ := n
  cases row with
  | nil => exact absurd rfl hne
  | cons c u below next =>
    obtain ⟨v, hv⟩ := Branches.exists_spells_of_mem h List.mem_cons_self
    exact ⟨c, v, (contains_iff h _).2 (Or.inr hv)⟩

/-- A sound node that is terminal or goes on holds a word. -/
theorem exists_contains {n : Node} (h : n.Sound) (hlive : n.terminal = true ∨ n.branches ≠ .nil) :
    ∃ w, n.contains w = true := by
  rcases hlive with ht | hne
  · exact ⟨[], ht⟩
  · obtain ⟨c, w, hw⟩ := exists_contains_cons h hne
    exact ⟨c :: w, hw⟩

end Node

/-! ## Prefixes of the strings of a list -/

/-- The characters that the strings of a list go on with behind a prefix. -/
def continuations (l : List String) (p : List Char) : Finset Char :=
  (l.filterMap fun s => if p <+: s.toList then s.toList[p.length]? else none).toFinset

theorem mem_continuations {l : List String} {p : List Char} {c : Char} :
    c ∈ continuations l p ↔ ∃ v, String.ofList (p ++ c :: v) ∈ l := by
  simp only [continuations, List.mem_toFinset, List.mem_filterMap]
  refine ⟨?_, ?_⟩
  · rintro ⟨s, hs, h⟩
    split at h
    · rename_i hp
      obtain ⟨u, hu⟩ := hp
      rw [← hu, List.getElem?_append_right (le_refl _), Nat.sub_self] at h
      cases u with
      | nil => cases h
      | cons d v =>
        cases h
        exact ⟨v, by rwa [hu, String.ofList_toList]⟩
    · cases h
  · rintro ⟨v, hv⟩
    refine ⟨_, hv, ?_⟩
    rw [String.toList_ofList, if_pos (List.prefix_append _ _),
      List.getElem?_append_right (le_refl _), Nat.sub_self]
    rfl

/-- The prefix is a string of the list itself, or the strings go on from it in several ways, or it
is the empty one and a group is forced. -/
def IsGroupingPoint (l : List String) (force : Bool) (p : List Char) : Prop :=
  String.ofList p ∈ l ∨ 1 < (continuations l p).card ∨ p = [] ∧ force = true

instance (l : List String) (force : Bool) (p : List Char) : Decidable (IsGroupingPoint l force p) :=
  inferInstanceAs (Decidable (_ ∨ _ ∨ _ ∧ _))

namespace Node

/-- The node is the one of a prefix: it holds what is left of the strings behind it. -/
structure StandsFor (n : Node) (l : List String) (p : List Char) : Prop where
  sound : n.Sound
  contains_iff : ∀ w, n.contains w = true ↔ String.ofList (p ++ w) ∈ l

namespace StandsFor

variable {n m : Node} {l : List String} {p : List Char} {c : Char}

theorem child (h : n.StandsFor l p) (c : Char) : (n.child c).StandsFor l (p ++ [c]) where
  sound := sound_child h.sound c
  contains_iff w := by
    rw [← contains_cons, h.contains_iff, List.append_assoc, List.singleton_append]

theorem of_find? (h : n.StandsFor l p) (hm : n.branches.find? c = some m) :
    m.StandsFor l (p ++ [c]) := by
  rw [← child_of_find? hm]
  exact h.child c

theorem of_at? (h : n.StandsFor l p) {w : List Char} (hm : n.at? w = some m) :
    m.StandsFor l (p ++ w) where
  sound := sound_of_at? h.sound hm
  contains_iff v := by
    rw [List.append_assoc, ← h.contains_iff, Node.contains, Node.contains, at?_append, hm]
    rfl

theorem terminal_iff (h : n.StandsFor l p) : n.terminal = true ↔ String.ofList p ∈ l := by
  rw [← contains_nil, h.contains_iff, List.append_nil]

theorem mem_chars (h : n.StandsFor l p) : c ∈ n.branches.chars ↔ c ∈ continuations l p := by
  rw [mem_continuations, Branches.mem_chars_iff_find?]
  refine ⟨?_, ?_⟩
  · rintro ⟨m, hm⟩
    obtain ⟨v, hv⟩ := exists_contains (Branches.sound_of_find? h.sound hm)
      (Branches.live_of_find? h.sound hm)
    exact ⟨v, (h.contains_iff _).1 (contains_cons_iff.2 ⟨m, hm, hv⟩)⟩
  · rintro ⟨v, hv⟩
    obtain ⟨m, hm, -⟩ := contains_cons_iff.1 ((h.contains_iff _).2 hv)
    exact ⟨m, hm⟩

/-- As many branches leave the node as the strings have ways to go on. -/
theorem card_continuations (h : n.StandsFor l p) :
    (continuations l p).card = n.branches.chars.length := by
  rw [← List.toFinset_card_of_nodup (Branches.nodup_chars h.sound)]
  congr 1
  ext c
  rw [List.mem_toFinset, h.mem_chars]

theorem isGroupingPoint_iff (h : n.StandsFor l p) (force : Bool) :
    IsGroupingPoint l force p ↔
      n.terminal = true ∨ 1 < n.branches.chars.length ∨ p = [] ∧ force = true := by
  rw [IsGroupingPoint, h.terminal_iff, h.card_continuations]

end StandsFor
end Node

theorem Trie.standsFor_root (l : List String) : (Trie.ofList l).root.StandsFor l [] where
  sound := sound_ofList l
  contains_iff := root_contains_ofList l

end PrefixPattern
