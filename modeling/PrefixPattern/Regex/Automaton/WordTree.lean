/-!
# A tree of words for an automaton

Where all branches of a choice are words, the automaton reads them by a tree.  Earlier words have to be
preferred to later ones, so when a word ends at a node, what is added to the node afterwards is kept
apart from what was added before: a node has its bytes in *chunks*, and a word ends between any two of
them.

## What is here

* `Node` — a node of the tree, by the rests of the words that pass it.
* `Node.size` — the memory of one node, and `size`, that of the whole tree.
-/

set_option autoImplicit false

namespace PrefixPattern
namespace WordTree

/-- The bytes of a chunk, in the order in which they came up, each with the rests of the words behind
it, the last rest first. -/
abbrev Chunk := List (UInt8 × List (List UInt8))

/-- A word with this byte and this rest passes the chunk. -/
def Chunk.add (b : UInt8) (rest : List UInt8) : Chunk → Chunk
  | [] => [(b, [rest])]
  | (c, rests) :: more => if c = b then (c, rest :: rests) :: more else (c, rests) :: add b rest more

/-- A node: the chunk that can still grow, and those before it, the last first. -/
structure Node where
  active : Chunk := []
  before : List Chunk := []

namespace Node

/-- The chunks of a node. -/
def chunks (n : Node) : List Chunk :=
  n.active :: n.before

/-- No word goes on from here. -/
def isLeaf (n : Node) : Bool :=
  n.chunks.all List.isEmpty

/-- A word passes the node, with this rest, or ends here.  That words end at a leaf is noted once. -/
def add (n : Node) : List UInt8 → Node
  | b :: rest => { n with active := n.active.add b rest }
  | [] => if n.isLeaf && !n.before.isEmpty then n else ⟨[], n.chunks⟩

/-- The node that words with these rests pass. -/
def ofRests (rests : List (List UInt8)) : Node :=
  rests.foldl add {}

/-- The rests of the words behind each byte, chunk by chunk. -/
def below (n : Node) : List (List (List UInt8)) :=
  n.chunks.flatMap fun chunk => chunk.map fun (_, rests) => rests.reverse

end Node

/-- What the states of an automaton take: a state, an alternative of a state that only branches, and a
byte range of a state that reads one of several. -/
structure Costs where
  state : Nat
  alternative : Nat
  byteRange : Nat
  deriving DecidableEq, Repr

/-- The memory of a chunk: a state, which has a list of its bytes if there are several. -/
def Chunk.size (cost : Costs) : Chunk → Nat
  | [] => 0
  | [_] => cost.state
  | chunk => cost.state + cost.byteRange * chunk.length

/-- The memory of a node: its chunks, and a state to choose between them and the ends between them,
if there is more than one.  A leaf needs no state. -/
def Node.size (cost : Costs) (n : Node) : Nat :=
  if n.isLeaf then 0
  else
    let parts := (n.chunks.filter fun chunk => !chunk.isEmpty).length + n.before.length
    (n.chunks.map (Chunk.size cost)).foldl (· + ·) 0 +
      if parts = 1 then 0 else cost.state + cost.alternative * parts

/-- The memory of the nodes that words with these rests pass and of those below them, down to a
depth, and `total` more. -/
def sizeBelow (cost : Costs) : Nat → List (List (List UInt8)) → Nat → Nat
  | 0, _, total => total
  | _, [], total => total
  | depth + 1, now, total =>
    let nodes := now.map Node.ofRests
    sizeBelow cost depth (nodes.flatMap Node.below)
      ((nodes.map (Node.size cost)).foldl (· + ·) total)

/-- The memory of the tree of some words: its nodes, and a state at which all words end. -/
def size (cost : Costs) (words : List (List UInt8)) : Nat :=
  let longest := words.foldl (fun n w => max n w.length) 0
  sizeBelow cost longest [words] cost.state

end WordTree
end PrefixPattern
