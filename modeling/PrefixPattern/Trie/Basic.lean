/-!
# Tries: string sets with shared prefixes

A *trie* holds a finite set of strings as a tree.  Every node stands for a prefix of members, the
root for the empty prefix; a node is *terminal* when its prefix is itself a member.

## What is here

* `Branches`, `Node`, `Trie` — the tree.  The branches that leave a node are a row in ascending
  order of their characters, each with what lies below it and the rest of the row after it, so a
  whole tree is one plain inductive value.
* `Node.at?`, `Node.contains` — following a word down from a node; `Node.contains` is the set of
  words that the node stands for.
* `Node.insert` — adding a word below a node, and its two equations `Node.insert_nil` and
  `Node.insert_cons`.
* `Trie.insertNew`, `Trie.contains`, `Trie.size`, `Trie.nodeCount`, `Trie.ofList` — the set itself.
* `Node.same` — comparing two subtrees; `Node.same_iff` says that it decides equality.

A member can be very long.  So whatever walks the depth of a tree (insertion, the count of nodes,
the comparison) keeps what is still to do in a list of its own.
-/

set_option autoImplicit false

namespace PrefixPattern

/-- The branches that leave a node: the least character, whether the prefix that ends with it is a
member, the branches below it, and the branches after it. -/
inductive Branches where
  | nil
  | cons (c : Char) (terminal : Bool) (below next : Branches)
  deriving Inhabited

/-- One prefix of a string set: whether it is a member, and how members go on after it. -/
structure Node where
  terminal : Bool
  branches : Branches
  deriving Inhabited

/-- The node of a prefix that no member has. -/
def Node.empty : Node := ⟨false, .nil⟩

namespace Branches

/-- The characters of a row, in ascending order. -/
def chars : Branches → List Char
  | nil => []
  | cons c _ _ next => c :: chars next

/-- The node that the branch of `c` leads to. -/
def find? : Branches → Char → Option Node
  | nil, _ => none
  | cons d t below next, c => if c = d then some ⟨t, below⟩ else find? next c

/-- Let the branch of `c` lead to the node `n`; the row stays in ascending order. -/
def put (c : Char) (n : Node) : Branches → Branches
  | nil => cons c n.terminal n.branches nil
  | cons d t below next =>
    if c < d then cons c n.terminal n.branches (cons d t below next)
    else if c = d then cons c n.terminal n.branches next
    else cons d t below (put c n next)

/-- The number of nodes that the branches lead to, at any depth. -/
def nodeCount : Branches → Nat
  | nil => 0
  | cons _ _ below next => 1 + nodeCount below + nodeCount next

/-- The number of terminal nodes that the branches lead to, at any depth. -/
def terminalCount : Branches → Nat
  | nil => 0
  | cons _ t below next => t.toNat + terminalCount below + terminalCount next

/-! ## Counting nodes with a list of rows still to do -/

/-- The nodes of all rows in the list, added to `count`. -/
def countNodes : List Branches → Nat → Nat
  | [], count => count
  | nil :: rest, count => countNodes rest count
  | cons _ _ below next :: rest, count => countNodes (below :: next :: rest) (count + 1)
termination_by rows => sizeOf rows

theorem countNodes_eq (rows : List Branches) (count : Nat) :
    countNodes rows count = rows.foldl (fun n row => n + row.nodeCount) count := by
  fun_induction countNodes rows count with
  | case1 => simp
  | case2 rest count ih => simp [ih, nodeCount]
  | case3 c t below next rest count ih => simp [ih, nodeCount, Nat.add_assoc]

/-! ## Comparing rows with a list of pairs still to do -/

/-- Whether the two rows of every pair are equal. -/
def sameAll : List (Branches × Branches) → Bool
  | [] => true
  | (nil, nil) :: rest => sameAll rest
  | (cons c t below next, cons d u below' next') :: rest =>
    if c = d ∧ t = u then sameAll ((below, below') :: (next, next') :: rest) else false
  | _ => false
termination_by pairs => sizeOf (pairs.map Prod.fst)

theorem sameAll_iff (pairs : List (Branches × Branches)) :
    sameAll pairs = true ↔ ∀ p ∈ pairs, p.1 = p.2 := by
  fun_induction sameAll pairs with
  | case1 => simp
  | case2 rest ih => simp [ih]
  | case3 c t below next d u below' next' rest h ih =>
    obtain ⟨rfl, rfl⟩ := h
    simp [ih, and_assoc]
  | case4 c t below next d u below' next' rest h =>
    simp only [List.mem_cons, Bool.false_eq_true, false_iff]
    intro hall
    have heq : cons c t below next = cons d u below' next' := hall _ (Or.inl rfl)
    rw [cons.injEq] at heq
    exact h ⟨heq.1, heq.2.1⟩
  | case5 pairs h₁ h₂ h₃ =>
    simp only [Bool.false_eq_true, false_iff]
    intro hall
    rcases pairs with _ | ⟨⟨a, b⟩, rest⟩
    · exact h₁ rfl
    · have hab : a = b := hall (a, b) (by simp)
      subst hab
      cases a with
      | nil => exact h₂ rest rfl
      | cons c t below next => exact h₃ c t below next c t below next rest rfl

/-- Two rows are equal. -/
def same (a b : Branches) : Bool :=
  sameAll [(a, b)]

theorem same_iff {a b : Branches} : same a b = true ↔ a = b := by
  simp [same, sameAll_iff]

instance : DecidableEq Branches := fun _ _ => decidable_of_iff _ same_iff

end Branches

namespace Node

/-- No member goes on after this prefix. -/
def isLeaf (n : Node) : Bool :=
  match n.branches with
  | .nil => true
  | .cons .. => false

/-- The node one character further, empty where no member goes on with that character. -/
def child (n : Node) (c : Char) : Node :=
  (n.branches.find? c).getD empty

/-- The node at the end of a word, if a member goes that way. -/
def at? : Node → List Char → Option Node
  | n, [] => some n
  | n, c :: w =>
    match n.branches.find? c with
    | some next => next.at? w
    | none => none

/-- Whether the word leads from this node to a terminal one. -/
def contains (n : Node) (w : List Char) : Bool :=
  match n.at? w with
  | some last => last.terminal
  | none => false

/-- Two subtrees are equal. -/
def same (a b : Node) : Bool :=
  a.terminal == b.terminal && a.branches.same b.branches

theorem same_iff {a b : Node} : same a b = true ↔ a = b := by
  cases a; cases b; simp [same, Branches.same_iff]

instance : DecidableEq Node := fun _ _ => decidable_of_iff _ same_iff

/-- The number of nodes at and below this one. -/
def nodeCount (n : Node) : Nat :=
  Branches.countNodes [n.branches] 1

theorem nodeCount_eq (n : Node) : n.nodeCount = 1 + n.branches.nodeCount := by
  simp [nodeCount, Branches.countNodes_eq]

/-! ## Insertion: down along the word and back up -/

/-- Follow the word down to its last node, remembering every node passed and the character taken
there, the deepest first. -/
def descend : Node → List Char → List (Node × Char) → List (Node × Char) × Node
  | n, [], passed => (passed, n)
  | n, c :: w, passed => (n.child c).descend w ((n, c) :: passed)

/-- Put a node back below the nodes passed on the way to it. -/
def rebuild : List (Node × Char) → Node → Node
  | [], n => n
  | (p, c) :: passed, n => rebuild passed ⟨p.terminal, p.branches.put c n⟩

/-- The tree with the node at the end of the word made terminal. -/
def insert (n : Node) (w : List Char) : Node :=
  let (passed, last) := n.descend w []
  rebuild passed { last with terminal := true }

theorem insert_nil (n : Node) : n.insert [] = ⟨true, n.branches⟩ := rfl

theorem rebuild_descend (n : Node) (w : List Char) (passed : List (Node × Char)) :
    rebuild (n.descend w passed).1 { (n.descend w passed).2 with terminal := true } =
      rebuild passed (n.insert w) := by
  induction w generalizing n passed with
  | nil => rfl
  | cons c w ih => simp only [descend, insert]; rw [ih, ih]; rfl

theorem insert_cons (n : Node) (c : Char) (w : List Char) :
    n.insert (c :: w) = ⟨n.terminal, n.branches.put c ((n.child c).insert w)⟩ := by
  simp only [insert, descend]; rw [rebuild_descend]; rfl

end Node

/-- A finite set of strings and the number of its members. -/
structure Trie where
  root : Node
  size : Nat
  deriving Inhabited, DecidableEq

namespace Trie

/-- The empty set. -/
def empty : Trie := ⟨Node.empty, 0⟩

/-- The string is a member. -/
def contains (t : Trie) (s : String) : Bool :=
  t.root.contains s.toList

/-- Add a string; the flag says whether it is new, which shows at the end of the way along it. -/
def insertNew (t : Trie) (s : String) : Bool × Trie :=
  let (passed, last) := t.root.descend s.toList []
  if last.terminal then (false, t)
  else (true, ⟨Node.rebuild passed { last with terminal := true }, t.size + 1⟩)

/-- Add a string. -/
def insert (t : Trie) (s : String) : Trie :=
  (t.insertNew s).2

/-- The set of the strings in a list. -/
def ofList (l : List String) : Trie :=
  l.foldl insert empty

/-- No string is a member. -/
def isEmpty (t : Trie) : Bool :=
  t.size == 0

/-- The number of prefixes that members have, the empty one always counted. -/
def nodeCount (t : Trie) : Nat :=
  t.root.nodeCount

end Trie
end PrefixPattern
