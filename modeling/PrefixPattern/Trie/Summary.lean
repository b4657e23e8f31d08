import PrefixPattern.Trie.Basic
import PrefixPattern.Text.Quoted

/-!
# Tries in one line

A summary shows one node, or the root and the size of a whole trie.  It does not go further down, so
it stays short for any trie.
-/

set_option autoImplicit false

namespace PrefixPattern

/-- One node: whether it is terminal, and the characters that go on from it. -/
def Node.summary (n : Node) : String :=
  "TrieNode \x7b terminal: " ++ (if n.terminal then "true" else "false") ++ ", children: [" ++
    ", ".intercalate (n.branches.chars.map quoteChar) ++ "] \x7d"

/-- The root and the number of members. -/
def Trie.summary (t : Trie) : String :=
  "Trie \x7b root: " ++ t.root.summary ++ ", members: " ++ toString t.size ++ " \x7d"

end PrefixPattern
