import Mathlib.Logic.Function.Iterate
import PrefixPattern.Proofs.Fragment.Order

/-!
# Writing by recursion, and with a list of pieces still to do

The fragment of a node is most easily said by recursion on its children: nothing for a leaf, a chain
for one child, a group for several.  What runs keeps a list of pieces instead.  It writes the
opening of a branch at once and puts off its closing, what separates it from the next branch, and
that branch itself.

## What is here

* `Node.recursive` — the fragment of a node by recursion on its children.
* `Branches.round` — one round of the loop over the pieces; `Branches.writeAll_round` says that
  `Branches.writeAll` does nothing else.
* `Branches.pending_round`, `Branches.weight_round` — what a round keeps, the text written so far
  with all that is still to be written, and what it takes away.
* `Branches.iterate_round` — so the loop ends, after at most as many rounds as the pieces weigh.
* `Node.fragment_eq_recursive` — it ends with the text of the recursion.
-/

set_option autoImplicit false

namespace PrefixPattern

/-! ## The recursion -/

/-- The fragment of a node by recursion on its children. -/
def Node.recursive (n : Node) (force : Bool) : List Char :=
  assemble n.terminal force <|
    n.children.attach.map fun p => Literal.ofChar p.1.1 ++ p.1.2.recursive false
termination_by n.branches.nodeCount
decreasing_by exact Branches.nodeCount_lt_of_mem p.2

theorem Node.recursive_eq (n : Node) (force : Bool) :
    n.recursive force = assemble n.terminal force
      (n.children.map fun p => Literal.ofChar p.1 ++ p.2.recursive false) := by
  rw [recursive]
  exact congrArg _ (List.attach_map_val (f := fun p : Char × Node =>
    Literal.ofChar p.1 ++ p.2.recursive false))

/-- The text of a row is that of its branches, separated by `|`. -/
theorem Branches.text_eq_intercalate_toList (row : Branches) :
    row.text = ['|'].intercalate
      (row.toList.map fun p => Literal.ofChar p.1 ++ p.2.text false) := by
  induction row with
  | nil => rfl
  | cons c t below next _ ih =>
    rw [text, ih, toList, List.map_cons]
    cases next with
    | nil => simp [separator, toList, Node.text, Node.grouping]
    | cons d u low more =>
      simp [separator, toList, List.intercalate_cons_cons, Node.text, Node.grouping]

/-- **The text of a node is the one of the recursion.** -/
theorem Node.text_eq_recursive (n : Node) (force : Bool) : n.text force = n.recursive force := by
  have hlength : (n.children.map fun p => Literal.ofChar p.1 ++ p.2.text false).length =
      n.branches.chars.length := by
    rw [List.length_map, ← Branches.map_fst_toList, List.length_map, children]
  have htext : n.text force = assemble n.terminal force
      (n.children.map fun p => Literal.ofChar p.1 ++ p.2.text false) :=
    Branches.enclose_eq_assemble _ _ hlength (Branches.text_eq_intercalate_toList _)
  have hchildren : ∀ p ∈ n.children,
      Literal.ofChar p.1 ++ p.2.text false = Literal.ofChar p.1 ++ p.2.recursive false :=
    fun p _ => congrArg _ (text_eq_recursive p.2 false)
  rw [htext, recursive_eq, List.map_congr_left hchildren]
termination_by n.branches.nodeCount
decreasing_by exact Branches.nodeCount_lt_of_mem ‹_›

/-! ## The loop -/

namespace Branches

/-- One round of the loop that writes the pieces: the first one is taken away, and if it is a branch
with the rest of its row, then what is put off is put in its place. -/
def round : List Piece × String → List Piece × String
  | ([], out) => ([], out)
  | (.chars w :: rest, out) => (rest, out ++ String.ofList w)
  | (.row .nil :: rest, out) => (rest, out)
  | (.row (.cons c t below next) :: rest, out) =>
    let g := below.grouping t false
    (.row below :: .chars (g.closing ++ next.separator) :: .row next :: rest,
      out ++ String.ofList (Literal.ofChar c ++ g.opening))

/-- The text that is written when the loop has come this far, with the text that is not. -/
def pending (s : List Piece × String) : List Char :=
  s.2.toList ++ s.1.flatMap Piece.text

/-- An upper bound for the rounds that are left. -/
def weight : List Piece → Nat
  | [] => 0
  | p :: rest => p.weight + weight rest

/-- The loop goes on from one round to the next. -/
theorem writeAll_round (s : List Piece × String) :
    writeAll (round s).1 (round s).2 = writeAll s.1 s.2 := by
  fun_cases round s with
  | case1 => rfl
  | case2 => rw [writeAll]
  | case3 => rw [writeAll]
  | case4 c t below next rest out g => rw [writeAll]

/-- **A round leaves the whole text as it is**, written or still to be written. -/
theorem pending_round (s : List Piece × String) : pending (round s) = pending s := by
  fun_cases round s with
  | case1 => rfl
  | case2 => simp [pending, Piece.text]
  | case3 => simp [pending, Piece.text, text]
  | case4 c t below next rest out g =>
    simp [pending, Piece.text, text, Grouping.enclose, g]

/-- **A round makes the pieces lighter**, also where it puts three in the place of one. -/
theorem weight_round {s : List Piece × String} (h : s.1 ≠ []) :
    weight (round s).1 < weight s.1 := by
  fun_cases round s with
  | case1 => exact absurd rfl h
  | case2 => simp [weight, Piece.weight]
  | case3 => simp [weight, Piece.weight, nodeCount]
  | case4 c t below next rest out g =>
    simp only [weight, Piece.weight, nodeCount]
    omega

/-- **The loop ends.**  After as many rounds as the pieces weigh, nothing is left to do, and what is
written is the whole text. -/
theorem iterate_round {s : List Piece × String} {k : Nat} (h : weight s.1 ≤ k) :
    round^[k] s = ([], String.ofList (pending s)) := by
  induction k generalizing s with
  | zero =>
    obtain ⟨pieces, out⟩ := s
    cases pieces with
    | nil => simp [pending]
    | cons p rest =>
      have hpos : 0 < p.weight := by
        cases p <;> rw [Piece.weight] <;> omega
      rw [weight] at h
      omega
  | succ k ih =>
    have hround : weight (round s).1 ≤ k := by
      by_cases hs : s.1 = []
      · obtain ⟨pieces, out⟩ := s
        obtain rfl : pieces = [] := hs
        exact Nat.zero_le k
      · exact Nat.le_of_lt_succ ((weight_round hs).trans_le h)
    rw [Function.iterate_succ_apply, ih hround, pending_round]

theorem writeAll_iterate_round (s : List Piece × String) (k : Nat) :
    writeAll (round^[k] s).1 (round^[k] s).2 = writeAll s.1 s.2 := by
  induction k generalizing s with
  | zero => rfl
  | succ k ih => rw [Function.iterate_succ_apply, ih, writeAll_round]

end Branches

namespace Node

/-- The pieces that the loop starts with. -/
def pieces (n : Node) (force : Bool) : List Piece :=
  [.chars (n.grouping force).opening, .row n.branches, .chars (n.grouping force).closing]

theorem weight_pieces (n : Node) (force : Bool) :
    Branches.weight (n.pieces force) = 4 * n.nodeCount := by
  simp only [Branches.weight, pieces, Piece.weight, nodeCount_eq]
  omega

theorem pending_pieces (n : Node) (force : Bool) :
    Branches.pending (n.pieces force, "") = n.recursive force := by
  rw [← text_eq_recursive]
  simp [Branches.pending, pieces, Piece.text, text, Grouping.enclose]

/-- Until the loop ends, the fragment is what it has written with what it has put off. -/
theorem fragment_eq_ofList (n : Node) (force : Bool) :
    n.fragment force = String.ofList (n.recursive force) := by
  let start := (n.pieces force, "")
  have hend : Branches.round^[4 * n.nodeCount] start =
      ([], String.ofList (Branches.pending start)) :=
    Branches.iterate_round (weight_pieces n force).le
  calc n.fragment force = Branches.writeAll start.1 start.2 := rfl
    _ = Branches.writeAll [] (String.ofList (Branches.pending start)) := by
      rw [← Branches.writeAll_iterate_round start (4 * n.nodeCount), hend]
    _ = String.ofList (n.recursive force) := by rw [Branches.writeAll, pending_pieces]

/-- **The loop writes what the recursion says.**  It comes to an end for every node, after at most
four rounds for every node below, and has then written the fragment as it is by recursion on the
children; and the children of a node of a trie ascend. -/
theorem fragment_eq_recursive (n : Node) (force : Bool) :
    (n.fragment force).toList = n.recursive force ∧
      Branches.round^[4 * n.nodeCount] (n.pieces force, "") = ([], n.fragment force) ∧
      ∀ l p, (Trie.ofList l).root.at? p = some n →
        (n.children.map Prod.fst).Pairwise (· < ·) := by
  refine ⟨?_, ?_, fun l p hp => ?_⟩
  · rw [fragment_eq_ofList, String.toList_ofList]
  · rw [Branches.iterate_round (weight_pieces n force).le, pending_pieces, fragment_eq_ofList]
  · rw [children, Branches.map_fst_toList]
    exact Branches.pairwise_chars (sound_of_at? (Trie.sound_ofList l) hp)

/-- A node inside a trie whose words come in no order; it is terminal, and one of its two branches
goes on with an operator. -/
theorem fragment_eq_recursive_inside :
    let n : Node := ⟨true, .cons 'b' false (.cons '(' true .nil .nil) (.cons 'c' true .nil .nil)⟩
    (Trie.ofList ["ac", "b", "ab(", "a"]).root.at? ['a'] = some n ∧
      n.recursive false = "(b\\(|c)?".toList ∧
      Branches.round^[4 * n.nodeCount] (n.pieces false, "") = ([], "(b\\(|c)?") ∧
      (n.children.map Prod.fst).Pairwise (· < ·) := by
  intro n
  have hplace : (Trie.ofList ["ac", "b", "ab(", "a"]).root.at? ['a'] = some n := by decide +kernel
  have hwritten : n.fragment false = "(b\\(|c)?" := by decide +kernel
  obtain ⟨htext, hend, hascending⟩ := fragment_eq_recursive n false
  rw [hwritten] at htext hend
  exact ⟨hplace, htext.symm, hend, hascending _ _ hplace⟩

end Node
end PrefixPattern
