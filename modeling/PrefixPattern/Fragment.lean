import PrefixPattern.Literal
import PrefixPattern.Trie.Basic

/-!
# Fragments: the pattern text of a trie node

The *fragment* of a node is a piece of pattern text for the words that lead from the node to a
terminal one.  Shared prefixes are written once, the branches of a row are separated by `|` in
ascending order of their characters, and what may be left out altogether is followed by `?`.

## What is here

* `Grouping` — what stands around a row of branches: nothing, `(…)` or `(…)?`.
* `Branches.text`, `Node.text` — the fragment by recursion on the tree.
* `Branches.writeAll`, `Node.fragment` — the same text from a list of pieces still to write, which
  does not go deeper for a longer member; `Node.toList_fragment` says that it is the same.

A fragment can be forced to be one group, so that it can be put next to other pattern text; this
concerns its own outermost row alone and no row further down.
-/

set_option autoImplicit false

namespace PrefixPattern

/-- What stands around a row of branches. -/
inductive Grouping where
  /-- nothing: the row is a single chain -/
  | bare
  /-- a group -/
  | group
  /-- a group that may be left out -/
  | optional
  deriving DecidableEq, Repr, Inhabited

namespace Grouping

/-- The text in front of the row. -/
def opening : Grouping → List Char
  | bare => []
  | group | optional => ['(']

/-- The text behind the row. -/
def closing : Grouping → List Char
  | bare => []
  | group => [')']
  | optional => [')', '?']

/-- A text with the grouping around it. -/
def enclose (g : Grouping) (row : List Char) : List Char :=
  g.opening ++ row ++ g.closing

end Grouping

/-- How the row below a node is grouped: optional below a terminal node, a plain group around
several branches, and bare around a single chain unless a group is forced.  A leaf has no row, and
only a forced group is written for it. -/
def Branches.grouping (row : Branches) (terminal force : Bool) : Grouping :=
  match row with
  | .nil => if force then .group else .bare
  | .cons _ _ _ .nil => if terminal then .optional else if force then .group else .bare
  | .cons _ _ _ (.cons ..) => if terminal then .optional else .group

/-- What separates a branch from the rest of its row. -/
def Branches.separator : Branches → List Char
  | .nil => []
  | .cons .. => ['|']

/-- The branches of a row, separated by `|`. -/
def Branches.text : Branches → List Char
  | .nil => []
  | .cons c t below next =>
    Literal.ofChar c ++ (below.grouping t false).enclose below.text ++ next.separator ++ next.text

namespace Node

/-- How the row of this node is grouped. -/
def grouping (n : Node) (force : Bool) : Grouping :=
  n.branches.grouping n.terminal force

/-- The fragment of a node. -/
def text (n : Node) (force : Bool) : List Char :=
  (n.grouping force).enclose n.branches.text

end Node

/-! ## Writing with a list of pieces still to do -/

/-- A piece of a fragment that is still to be written. -/
inductive Piece where
  | row (r : Branches)
  | chars (w : List Char)

namespace Piece

/-- The text of a piece. -/
def text : Piece → List Char
  | row r => r.text
  | chars w => w

/-- An upper bound for the work that a piece still makes. -/
def weight : Piece → Nat
  | row r => 2 + 4 * r.nodeCount
  | chars _ => 1

end Piece

/-- Append the text of all pieces to `out`. -/
def Branches.writeAll : List Piece → String → String
  | [], out => out
  | .chars w :: rest, out => writeAll rest (out ++ String.ofList w)
  | .row .nil :: rest, out => writeAll rest out
  | .row (.cons c t below next) :: rest, out =>
    let g := below.grouping t false
    writeAll (.row below :: .chars (g.closing ++ next.separator) :: .row next :: rest)
      (out ++ String.ofList (Literal.ofChar c ++ g.opening))
termination_by pieces => pieces.foldr (fun p n => p.weight + n) 0
decreasing_by all_goals simp [Piece.weight, Branches.nodeCount]; try omega

theorem Branches.toList_writeAll (pieces : List Piece) (out : String) :
    (writeAll pieces out).toList = out.toList ++ pieces.flatMap Piece.text := by
  fun_induction writeAll pieces out with
  | case1 => simp
  | case2 w rest out ih => simp [ih, Piece.text]
  | case3 rest out ih => simp [ih, Piece.text, Branches.text]
  | case4 c t below next rest out g ih =>
    rw [ih]; simp [Piece.text, Branches.text, Grouping.enclose, g]

namespace Node

/-- The fragment of a node, written without going deeper for a longer member. -/
def fragment (n : Node) (force : Bool) : String :=
  let g := n.grouping force
  Branches.writeAll [.chars g.opening, .row n.branches, .chars g.closing] ""

theorem toList_fragment (n : Node) (force : Bool) :
    (n.fragment force).toList = n.text force := by
  simp [fragment, Branches.toList_writeAll, Piece.text, text, Grouping.enclose]

end Node
end PrefixPattern
