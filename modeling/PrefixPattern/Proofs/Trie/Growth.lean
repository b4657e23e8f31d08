import Mathlib.Data.Set.Card
import Mathlib.Logic.Function.Iterate
import PrefixPattern.Proofs.Trie.Places

/-!
# How a trie grows

A trie begins as a single node.  Each string that is added makes the nodes on its way that are not
there yet, and marks the last one.  So the nodes of a trie are the prefixes of its strings, whatever
the rows look like in which the branches are kept.

## What is here

* `Trie.Grown l t` — the trie `t` has come from the empty one by adding the strings of `l` in turn,
  with rows in any order, and in another one after every insertion.
* `Node.Inserts.exists_at?_iff` — what one insertion does to the nodes.
* `Trie.Grown.exists_at?_iff`, `Trie.Grown.terminal_iff` — so a node is where a string goes by, and
  it is terminal where one ends.
* `Node.countRound` — one round of the loop that counts nodes; `Node.iterate_countRound` says that
  the loop ends after one round for each node.
* `Trie.IsTreeOf`, `Trie.isTreeOf_of_grown` — the shape of a trie and its two numbers.
-/

set_option autoImplicit false

namespace PrefixPattern

/-! ## Insertions one after the other -/

/-- **An insertion makes the nodes on its way** and no others. -/
theorem Node.Inserts.exists_at?_iff {n m : Node} {w : List Char} (h : n.Inserts w m)
    (p : List Char) : (∃ k, m.at? p = some k) ↔ p <+: w ∨ ∃ k, n.at? p = some k := by
  induction h generalizing p with
  | here =>
    cases p with
    | nil => simp [at?]
    | cons d p => simp [at?_cons]
  | @along n m c w row _ _ hfind ih =>
    cases p with
    | nil => simp [at?]
    | cons d p =>
      rw [at?_cons, at?_cons, show row.find? d = _ from hfind d]
      by_cases hdc : d = c
      · subst hdc
        rw [if_pos rfl, Option.bind_some, ih, List.prefix_cons_inj, child]
        cases n.branches.find? d with
        | some k => rfl
        | none =>
          -- an empty node has no place but its own, which is on every way
          cases p with
          | nil => simp
          | cons e p => simp [at?_cons, empty, Branches.find?]
      · rw [if_neg hdc, List.cons_prefix_cons]
        simp [hdc]

namespace Trie

/-- The trie has come from the empty one by adding the strings of the list in turn, where only the
map of each row is known. -/
inductive Grown : List String → Trie → Prop
  | empty : Grown [] empty
  | insert {l : List String} {s : String} {t u : Trie} :
      Grown l t → t.Inserts s u → Grown (l ++ [s]) u

/-- Rows in ascending order are one way to grow. -/
theorem grown_ofList (l : List String) : Grown l (ofList l) := by
  induction l using List.reverseRecOn with
  | nil => exact .empty
  | append_singleton l s ih =>
    have hins := inserts_insert (sound_ofList l) s
    rw [ofList, List.foldl_append]
    exact .insert ih hins

namespace Grown

variable {l : List String} {t : Trie}

/-- Every order leads to the same trie, up to the order. -/
theorem resembles (h : Grown l t) : t.Resembles (ofList l) := by
  induction h with
  | empty => exact resembles_empty
  | insert _ hins ih =>
    rw [ofList, List.foldl_append]
    exact ih.insert hins

theorem contains_iff (h : Grown l t) (s : String) : t.contains s = true ↔ s ∈ l := by
  rw [h.resembles.contains_eq, contains_ofList]

theorem isEmpty_iff (h : Grown l t) : t.isEmpty = true ↔ l = [] := by
  rw [← isEmpty_ofList, isEmpty, isEmpty, h.resembles.size]

/-- **A node is at the root, and wherever a string goes by.** -/
theorem exists_at?_iff (h : Grown l t) (p : List Char) :
    (∃ n, t.root.at? p = some n) ↔ p = [] ∨ ∃ s ∈ l, p <+: s.toList := by
  induction h with
  | empty => cases p <;> simp [Node.at?, Trie.empty, Node.empty, Branches.find?]
  | @insert l s t u _ hins ih =>
    rw [hins.root.exists_at?_iff, ih]
    simp only [List.mem_append, List.mem_singleton, or_and_right, exists_or, exists_eq_left]
    exact or_left_comm.trans (or_congr_right or_comm)

/-- **A node is terminal where a string ends.** -/
theorem terminal_iff (h : Grown l t) {p : List Char} {n : Node} (hn : t.root.at? p = some n) :
    n.terminal = true ↔ String.ofList p ∈ l := by
  rw [← h.contains_iff, contains, String.toList_ofList, Node.contains, hn]

/-- **Every node leads to a terminal one**, if there are any strings at all. -/
theorem exists_terminal (h : Grown l t) {p : List Char} {n : Node} (hn : t.root.at? p = some n)
    (hl : p ≠ [] ∨ l ≠ []) : ∃ w m, n.at? w = some m ∧ m.terminal = true := by
  obtain ⟨s, hs, w, hw⟩ : ∃ s ∈ l, p <+: s.toList := by
    rcases (h.exists_at?_iff p).1 ⟨n, hn⟩ with rfl | hp
    · obtain ⟨s, hs⟩ := List.exists_mem_of_ne_nil l (hl.resolve_left fun hne => hne rfl)
      exact ⟨s, hs, List.nil_prefix⟩
    · exact hp
  obtain ⟨m, hm⟩ := (h.exists_at?_iff s.toList).2 (Or.inr ⟨s, hs, List.prefix_rfl⟩)
  refine ⟨w, m, ?_, ?_⟩
  · rw [← hw, Node.at?_append, hn] at hm
    exact hm
  · rwa [h.terminal_iff hm, String.ofList_toList]

theorem live_of_at? (h : Grown l t) {p : List Char} {n : Node} (hn : t.root.at? p = some n)
    (hl : p ≠ [] ∨ l ≠ []) : n.terminal = true ∨ n.branches ≠ .nil := by
  obtain ⟨w, m, hm, hterminal⟩ := h.exists_terminal hn hl
  refine Node.live_of_contains (w := w) ?_
  rw [Node.contains, hm]
  exact hterminal

end Grown
end Trie

/-! ## Counting nodes -/

namespace Node

/-- One round of the loop that counts nodes: the first of the nodes still to be counted is taken
away and counted, and its children are put in its place. -/
def countRound : List Node × Nat → List Node × Nat
  | ([], count) => ([], count)
  | (n :: rest, count) => (n.children.map Prod.snd ++ rest, count + 1)

/-- The nodes at and below the ones that are still to be counted. -/
def uncounted (pending : List Node) : Nat :=
  (pending.map nodeCount).sum

theorem uncounted_cons (n : Node) (rest : List Node) :
    uncounted (n :: rest) = uncounted (n.children.map Prod.snd ++ rest) + 1 := by
  have hrow : ∀ row : Branches, ((row.toList.map Prod.snd).map nodeCount).sum = row.nodeCount := by
    intro row
    induction row with
    | nil => rfl
    | cons c t below next _ ih =>
      simp only [Branches.toList, List.map_cons, List.sum_cons, ih, nodeCount_eq,
        Branches.nodeCount]
  rw [uncounted, uncounted, List.map_append, List.sum_append, children, hrow, List.map_cons,
    List.sum_cons, nodeCount_eq]
  omega

/-- **The loop ends**, after one round for each node. -/
theorem iterate_countRound {pending : List Node} {k : Nat} (h : uncounted pending = k)
    (count : Nat) : countRound^[k] (pending, count) = ([], count + k) := by
  induction k generalizing pending count with
  | zero =>
    cases pending with
    | nil => rfl
    | cons n rest => rw [uncounted_cons] at h; cases h
  | succ k ih =>
    cases pending with
    | nil => cases h
    | cons n rest =>
      rw [uncounted_cons, Nat.succ_inj] at h
      rw [Function.iterate_succ_apply, countRound, ih h, Nat.add_right_comm, Nat.add_assoc]

end Node

/-! ## The shape of a trie -/

namespace Trie

/-- The nodes of a trie are the prefixes of the strings of a list, and its numbers are right. -/
structure IsTreeOf (t : Trie) (l : List String) : Prop where
  /-- a node is at the root, and wherever a string goes by -/
  exists_at?_iff : ∀ p, (∃ n, t.root.at? p = some n) ↔ p = [] ∨ ∃ s ∈ l, p <+: s.toList
  /-- it is terminal where a string ends -/
  terminal_iff : ∀ p n, t.root.at? p = some n → (n.terminal = true ↔ String.ofList p ∈ l)
  /-- it leads to a terminal one, unless it is the root of an empty trie -/
  exists_terminal : ∀ p n, t.root.at? p = some n → ¬ (p = [] ∧ t.isEmpty = true) →
    ∃ w m, n.at? w = some m ∧ m.terminal = true
  /-- no way ends but at a terminal node -/
  terminal_of_isLeaf : t.isEmpty = false → ∀ p n, t.root.at? p = some n → n.isLeaf = true →
    n.terminal = true
  /-- the size is the number of the terminal nodes -/
  encard_terminal : {p | ∃ n, t.root.at? p = some n ∧ n.terminal = true}.encard = t.size
  /-- the number of nodes is that of the prefixes, with the empty one in any case -/
  encard_prefixes : {p | p = [] ∨ ∃ s ∈ l, p <+: s.toList}.encard = t.nodeCount
  /-- and the loop that counts them ends with that number -/
  iterate_countRound : Node.countRound^[t.nodeCount] ([t.root], 0) = ([], t.nodeCount)

namespace Grown

variable {l : List String} {t : Trie}

theorem encard_terminal (h : Grown l t) :
    {p | ∃ n, t.root.at? p = some n ∧ n.terminal = true}.encard = t.size := by
  have hset : {p | ∃ n, t.root.at? p = some n ∧ n.terminal = true} =
      String.toList '' (l.toFinset : Set String) := by
    ext p
    simp only [Set.mem_ofPred_eq, Set.mem_image, List.coe_toFinset]
    refine ⟨?_, ?_⟩
    · rintro ⟨n, hn, ht⟩
      exact ⟨String.ofList p, (h.terminal_iff hn).1 ht, String.toList_ofList⟩
    · rintro ⟨s, hs, rfl⟩
      obtain ⟨n, hn⟩ := (h.exists_at?_iff s.toList).2 (Or.inr ⟨s, hs, List.prefix_rfl⟩)
      exact ⟨n, hn, by rwa [h.terminal_iff hn, String.ofList_toList]⟩
  have hinj : Function.Injective String.toList := fun _ _ => String.toList_inj.1
  rw [hset, hinj.encard_image, Set.encard_coe_eq_coe_finsetCard, h.resembles.size,
    (represents_ofList l).size_eq]

theorem encard_prefixes (h : Grown l t) :
    {p | p = [] ∨ ∃ s ∈ l, p <+: s.toList}.encard = t.nodeCount := by
  have hplace : ∀ p, p ∈ (t.root.places.map Prod.fst).toFinset ↔ ∃ n, t.root.at? p = some n := by
    intro p
    rw [List.mem_toFinset, List.mem_map]
    simp [Node.mem_places_iff h.resembles.scattered]
  have hset : {p | p = [] ∨ ∃ s ∈ l, p <+: s.toList} =
      ((t.root.places.map Prod.fst).toFinset : Set (List Char)) := by
    ext p
    rw [Finset.mem_coe, hplace, h.exists_at?_iff]
    rfl
  rw [hset, Set.encard_coe_eq_coe_finsetCard,
    List.toFinset_card_of_nodup (Node.nodup_places h.resembles.scattered), List.length_map,
    Node.length_places, nodeCount]

theorem isTreeOf (h : Grown l t) : t.IsTreeOf l where
  exists_at?_iff := h.exists_at?_iff
  terminal_iff _ _ := h.terminal_iff
  exists_terminal p n hn hroot := by
    rw [h.isEmpty_iff] at hroot
    exact h.exists_terminal hn (not_and_or.1 hroot)
  terminal_of_isLeaf hne p n hn hleaf := by
    have hl : l ≠ [] := fun hnil => by simp [h.isEmpty_iff.2 hnil] at hne
    exact (h.live_of_at? hn (Or.inr hl)).resolve_right (not_not.2 (Node.isLeaf_iff.1 hleaf))
  encard_terminal := h.encard_terminal
  encard_prefixes := h.encard_prefixes
  iterate_countRound := by
    have hroot : Node.uncounted [t.root] = t.nodeCount := List.sum_singleton
    rw [Node.iterate_countRound hroot, Nat.zero_add]

end Grown

/-- **A trie is the tree of the prefixes of its strings**, however it has grown.  A node is where a
string goes by, it is terminal where one ends, and no way ends anywhere else.  The size of the trie
is the number of its terminal nodes, and its number of nodes is that of the prefixes. -/
theorem isTreeOf_of_grown (l : List String) :
    Grown l (ofList l) ∧ ∀ t, Grown l t → t.IsTreeOf l :=
  ⟨grown_ofList l, fun _ h => h.isTreeOf⟩

/-- A trie whose first row descends, which is another one than `ofList` makes of the same strings. -/
theorem isTreeOf_of_grown_descending :
    let t : Trie :=
      ⟨⟨false, .cons 'b' true .nil (.cons 'a' false (.cons 'b' true .nil .nil) .nil)⟩, 2⟩
    Grown ["b", "ab"] t ∧ t ≠ ofList ["b", "ab"] ∧ t.IsTreeOf ["b", "ab"] ∧ t.nodeCount = 4 := by
  intro t
  have hfirst : (ofList ["b"]).root = ⟨false, .cons 'b' true .nil .nil⟩ := by decide +kernel
  have hroot : (ofList ["b"]).root.Inserts ['a', 'b'] t.root := by
    have hbelow : Node.empty.Inserts ['b'] ⟨false, .cons 'b' true .nil .nil⟩ :=
      Node.inserts_insert (n := Node.empty) trivial ['b']
    rw [hfirst]
    refine .along hbelow (by decide) fun d => ?_
    by_cases ha : d = 'a'
    · subst ha
      rfl
    · simp [Branches.find?, ha]
  have hgrown : Grown ["b", "ab"] t := .insert (grown_ofList ["b"]) ⟨hroot, by decide +kernel⟩
  exact ⟨hgrown, by decide +kernel, (isTreeOf_of_grown _).2 t hgrown, by decide +kernel⟩

end Trie
end PrefixPattern
