import PrefixPattern.Fragment

/-!
# Patterns: string sets compiled to one fragment

A *pattern* is the fragment of the trie of a string set, together with what is known about the set:
whether the empty string is a member, and how many members there are.

## What is here

* `CompileOptions` — whether the fragment is forced to be one group, and what becomes of an empty
  string among the members.
* `Pattern.compile` — from strings to a pattern, or the reason why there is none.
* `anchor` — a fragment made to match whole texts only.

An empty string is looked for while the strings are read, so it is reported before anything else;
whether there are any strings at all is known only at the end.
-/

set_option autoImplicit false

namespace PrefixPattern

/-- What becomes of an empty string among the members. -/
inductive EmptyMember where
  /-- it is an error -/
  | reject
  /-- it makes the whole pattern optional -/
  | optional
  deriving DecidableEq, Repr, Inhabited

/-- The treatment that a switch "allow empty strings" selects. -/
def EmptyMember.ofAllow (allow : Bool) : EmptyMember :=
  if allow then .optional else .reject

/-- How a string set is compiled. -/
structure CompileOptions where
  /-- the fragment is one group even where it would be a single chain -/
  forceWrap : Bool := false
  emptyMember : EmptyMember := .reject
  deriving DecidableEq, Repr, Inhabited

/-- The default options, with the group forced. -/
def CompileOptions.wrapped : CompileOptions := { forceWrap := true }

/-- Why a list of strings has no pattern. -/
inductive CompileError where
  | emptySet
  | emptyMember
  deriving DecidableEq, Repr

/-- The wording of a compile error. -/
def CompileError.message : CompileError → String
  | emptySet => "cannot compile an empty string set"
  | emptyMember =>
    "string set contains the empty string (allow it to make the whole pattern optional)"

/-- The fragment of a string set, with what is known about the set. -/
structure Pattern where
  fragment : String
  /-- the empty string is a member -/
  matchesEmpty : Bool
  /-- the number of different members -/
  members : Nat
  /-- the number of different prefixes of members -/
  nodes : Nat
  deriving DecidableEq, Repr, Inhabited

/-- The fragment as a pattern for whole texts. -/
def anchor (fragment : String) : String :=
  "^(?:" ++ fragment ++ ")$"

/-- Add the strings to the set, up to the first empty one if those are rejected. -/
def Trie.gather (policy : EmptyMember) : List String → Trie → Except CompileError Trie
  | [], t => .ok t
  | s :: rest, t =>
    if s = "" ∧ policy = .reject then .error .emptyMember else gather policy rest (t.insert s)

namespace Pattern

/-- The pattern of a string set. -/
def ofTrie (t : Trie) (forceWrap : Bool) : Pattern where
  fragment := t.root.fragment forceWrap
  matchesEmpty := t.root.terminal
  members := t.size
  nodes := t.nodeCount

/-- Compile a list of strings. -/
def compile (strings : List String) (options : CompileOptions) : Except CompileError Pattern :=
  match Trie.gather options.emptyMember strings .empty with
  | .error e => .error e
  | .ok t => if t.isEmpty then .error .emptySet else .ok (ofTrie t options.forceWrap)

/-- The pattern as one for whole texts. -/
def anchored (p : Pattern) : String :=
  anchor p.fragment

end Pattern
end PrefixPattern
