import PrefixPattern.Proofs.Trie.Prefixes

/-!
# Tries with rows in any order

Where the branches of a node are kept in a hash table, a row has no order of its own: it may come in
any order, and in another one after every insertion.  This file follows such trees through
insertions.  Putting every row in order gives, at every time, the one tree that keeps its rows in
ascending order anyway.

## What is here

* `Branches.Scattered` — rows without repetitions, in any order; `Branches.scattered_iff` says it of
  a row as a map.
* `Branches.sorted`, `Node.sorted` — the same tree with every row in ascending order.
* `Node.Inserts n w m` — inserting the word `w` into `n` can lead to `m`, whatever becomes of the
  order of the rows on the way.
* `Trie.Resembles t u` — the trie `t` is `u` up to the order of its rows; `Trie.Resembles.insert`
  keeps it.
-/

set_option autoImplicit false

namespace PrefixPattern

namespace Branches

/-- No character is repeated in the row, no branch ends in front of a member, and the same holds
below. -/
def Scattered : Branches → Prop
  | nil => True
  | cons c t below next =>
    (t = true ∨ below ≠ nil) ∧ c ∉ next.chars ∧ Scattered below ∧ Scattered next

/-- The row and all rows below it in ascending order. -/
def sorted : Branches → Branches
  | nil => nil
  | cons c t below next => (sorted next).put c ⟨t, sorted below⟩

/-- A row as a map: every character leads to one node, and these are live and scattered. -/
theorem scattered_iff {row : Branches} :
    row.Scattered ↔ row.chars.Nodup ∧ ∀ c m, row.find? c = some m →
      (m.terminal = true ∨ m.branches ≠ nil) ∧ m.branches.Scattered := by
  induction row with
  | nil => simp [Scattered, chars, find?]
  | cons d t below next _ ih =>
    rw [Scattered, ih, chars, List.nodup_cons]
    refine ⟨?_, ?_⟩
    · rintro ⟨hlive, hd, hb, hnodup, hall⟩
      refine ⟨⟨hd, hnodup⟩, fun c m hm => ?_⟩
      rw [find?] at hm
      split at hm
      · cases hm
        exact ⟨hlive, hb⟩
      · exact hall c m hm
    · rintro ⟨⟨hd, hnodup⟩, hall⟩
      obtain ⟨hlive, hb⟩ := hall d ⟨t, below⟩ (by rw [find?, if_pos rfl])
      refine ⟨hlive, hd, hb, hnodup, fun c m hm => hall c m ?_⟩
      have hcd : c ≠ d := by
        rintro rfl
        exact hd (mem_chars_iff_find?.2 ⟨m, hm⟩)
      rw [find?, if_neg hcd]
      exact hm

end Branches

namespace Node

/-- The node with all rows below it in ascending order. -/
def sorted (n : Node) : Node := ⟨n.terminal, n.branches.sorted⟩

end Node

namespace Branches

theorem sorted_eq_nil {row : Branches} : row.sorted = nil ↔ row = nil := by
  cases row with
  | nil => exact iff_of_true rfl rfl
  | cons c t below next => exact iff_of_false (put_ne_nil _ _ _) (by simp)

theorem find?_sorted (row : Branches) (c : Char) :
    row.sorted.find? c = (row.find? c).map Node.sorted := by
  induction row with
  | nil => rfl
  | cons d t below next _ ih =>
    rw [sorted, find?_put, find?, ih]
    split <;> rfl

theorem mem_chars_sorted {row : Branches} {c : Char} : c ∈ row.sorted.chars ↔ c ∈ row.chars := by
  rw [mem_chars_iff_find?, mem_chars_iff_find?, find?_sorted]
  simp [Option.map_eq_some_iff]

theorem sound_sorted {row : Branches} (h : row.Scattered) : row.sorted.Sound := by
  induction row with
  | nil => exact trivial
  | cons c t below next ihb ihn =>
    obtain ⟨hlive, -, hb, hn⟩ := h
    refine sound_put (ihn hn) (ihb hb) ?_
    rwa [Ne, sorted_eq_nil]

/-- An order of its own does not give a row more nodes. -/
theorem nodeCount_sorted {row : Branches} (h : row.Scattered) :
    row.sorted.nodeCount = row.nodeCount := by
  have hput : ∀ (c : Char) (n : Node) (row : Branches), c ∉ row.chars →
      (row.put c n).nodeCount = 1 + n.branches.nodeCount + row.nodeCount := by
    intro c n row hc
    induction row with
    | nil => rfl
    | cons d u below next _ ih =>
      obtain ⟨hcd, hnext⟩ := not_or.1 (mt List.mem_cons.2 hc)
      rw [put, if_neg hcd]
      split
      · simp [nodeCount]
      · rw [nodeCount, ih hnext, nodeCount]
        omega
  induction row with
  | nil => rfl
  | cons c t below next ihb ihn =>
    obtain ⟨-, hc, hb, hn⟩ := h
    have hmem : c ∉ next.sorted.chars := by rwa [mem_chars_sorted]
    rw [sorted, hput _ _ _ hmem, ihb hb, ihn hn, nodeCount]

end Branches

namespace Node

/-- A node holds the same words in any order of its rows. -/
theorem contains_sorted (n : Node) (w : List Char) : n.sorted.contains w = n.contains w := by
  induction w generalizing n with
  | nil => rfl
  | cons c w ih =>
    rw [contains_cons, contains_cons, child, child, sorted, Branches.find?_sorted]
    cases n.branches.find? c with
    | none => rfl
    | some m => exact ih m

/-! ## Insertion -/

/-- Insertion where only the map of each row is known.  The row of a node on the way has one branch
set, and may be in any order afterwards. -/
inductive Inserts : Node → List Char → Node → Prop
  | here {n : Node} : Inserts n [] ⟨true, n.branches⟩
  | along {n m : Node} {c : Char} {w : List Char} {row : Branches} :
      Inserts (n.child c) w m → row.chars.Nodup →
      (∀ d, row.find? d = if d = c then some m else n.branches.find? d) →
      Inserts n (c :: w) ⟨n.terminal, row⟩

/-- Insertion into ascending rows is one way to do it. -/
theorem inserts_insert {n : Node} (h : n.Sound) (w : List Char) : n.Inserts w (n.insert w) := by
  induction w generalizing n with
  | nil => exact .here
  | cons c w ih =>
    rw [insert_cons]
    refine .along (ih (sound_child h c)) ?_ fun d => Branches.find?_put c _ n.branches d
    refine Branches.nodup_chars ?_
    have hs := sound_insert (sound_child h c) w
    exact Branches.sound_put h hs.1 hs.2

namespace Inserts

variable {n m : Node} {w : List Char}

/-- However the rows are ordered, the one word is added. -/
theorem contains_iff (h : n.Inserts w m) (v : List Char) :
    m.contains v = true ↔ v = w ∨ n.contains v = true := by
  induction h generalizing v with
  | here =>
    cases v with
    | nil => simp
    | cons d v => simp [contains_cons, child]
  | @along n m c w row _ _ hfind ih =>
    cases v with
    | nil => simp
    | cons d v =>
      rw [contains_cons, contains_cons, child, hfind]
      by_cases hdc : d = c
      · subst hdc
        rw [if_pos rfl, Option.getD_some, ih]
        simp
      · rw [if_neg hdc]
        simp [hdc, child]

/-- However the rows are ordered, none of them repeats a character. -/
theorem scattered (h : n.Inserts w m) (hn : n.branches.Scattered) :
    m.branches.Scattered ∧ (m.terminal = true ∨ m.branches ≠ .nil) := by
  induction h with
  | here => exact ⟨hn, Or.inl rfl⟩
  | @along n m c w row _ hnodup hfind ih =>
    have hchild : (n.child c).branches.Scattered := by
      rw [child]
      cases hm : n.branches.find? c with
      | none => exact trivial
      | some m' => exact ((Branches.scattered_iff.1 hn).2 c m' hm).2
    obtain ⟨hm, hlive⟩ := ih hchild
    refine ⟨Branches.scattered_iff.2 ⟨hnodup, fun d m' hm' => ?_⟩, Or.inr fun hnil => ?_⟩
    · rw [hfind] at hm'
      split at hm'
      · cases hm'
        exact ⟨hlive, hm⟩
      · exact (Branches.scattered_iff.1 hn).2 d m' hm'
    · have hc := hfind c
      rw [if_pos rfl, show row = .nil from hnil] at hc
      cases hc

end Inserts
end Node

namespace Trie

/-- Adding a string where only the map of each row is known. -/
structure Inserts (t : Trie) (s : String) (u : Trie) : Prop where
  root : t.root.Inserts s.toList u.root
  size : u.size = if t.contains s then t.size else t.size + 1

/-- The trie is another one up to the order of its rows. -/
structure Resembles (t u : Trie) : Prop where
  scattered : t.root.branches.Scattered
  root : t.root.sorted = u.root
  size : t.size = u.size

namespace Resembles

variable {t t' u : Trie}

theorem sound (h : t.Resembles u) : u.root.Sound := by
  rw [← h.root]
  exact Branches.sound_sorted h.scattered

theorem contains_eq (h : t.Resembles u) (s : String) : t.contains s = u.contains s := by
  rw [contains, contains, ← h.root, Node.contains_sorted]

theorem nodeCount_eq (h : t.Resembles u) : t.nodeCount = u.nodeCount := by
  rw [nodeCount, nodeCount, Node.nodeCount_eq, Node.nodeCount_eq, ← h.root, Node.sorted,
    Branches.nodeCount_sorted h.scattered]

/-- **Insertion in any order is insertion in ascending order**, up to the order. -/
theorem insert (h : t.Resembles u) {s : String} (hs : t.Inserts s t') :
    t'.Resembles (u.insert s) := by
  obtain ⟨hscat, -⟩ := hs.root.scattered h.scattered
  have hsound : (u.insert s).root.Sound := sound_foldl h.sound [s]
  refine ⟨hscat, ?_, ?_⟩
  -- two sound trees are equal as soon as they hold the same words
  · refine Node.eq_of_contains (Branches.sound_sorted hscat) hsound fun w => ?_
    have hw := contains_insert u s (String.ofList w)
    rw [contains, contains, String.toList_ofList] at hw
    rw [Node.contains_sorted, hs.root.contains_iff, hw, ← h.root, Node.contains_sorted,
      ← String.toList_inj, String.toList_ofList]
  · rw [hs.size, h.contains_eq, h.size, Trie.insert, insertNew_eq]
    split <;> rfl

end Resembles

theorem resembles_empty : empty.Resembles empty where
  scattered := trivial
  root := rfl
  size := rfl

/-- Adding a string to ascending rows is one way to do it. -/
theorem inserts_insert {t : Trie} (h : t.root.Sound) (s : String) : t.Inserts s (t.insert s) := by
  rw [insert, insertNew_eq]
  by_cases hs : t.contains s = true
  · rw [if_pos hs]
    have hsame : t.root.insert s.toList = t.root := by
      refine Node.eq_of_contains (Node.sound_insert h _).1 h fun w => ?_
      rw [Node.contains_insert]
      exact or_iff_right_of_imp fun hw => hw ▸ hs
    have hroot := Node.inserts_insert h s.toList
    rw [hsame] at hroot
    exact ⟨hroot, (if_pos hs).symm⟩
  · rw [if_neg hs]
    exact ⟨Node.inserts_insert h _, (if_neg hs).symm⟩

end Trie
end PrefixPattern
