/-!
# Suggestions for unknown keys of a set

A key that a set does not know is often a known one by another name, or a part of it.
-/

set_option autoImplicit false

namespace PrefixPattern

/-- The keys of a set. -/
def knownSetKeys : List String := ["members", "wrap", "allow_empty"]

/-- The key that another name is likely to mean. -/
def synonym? (key : String) : Option String :=
  if key ∈ ["member", "strings", "values", "items"] then some "members"
  else if key ∈ ["force_wrap", "wrapped", "group"] then some "wrap"
  else if key ∈ ["empty", "optional", "allow-empty", "allow_empty_string"] then some "allow_empty"
  else none

/-- One of the two texts begins with the other. -/
def beginAlike (s t : String) : Bool :=
  s.startsWith t || t.startsWith s

/-- The known key that an unknown one is likely to mean: the one it is another name of, or else the
first that begins like it, if it has at least three bytes. -/
def suggestSetKey? (key : String) : Option String :=
  match synonym? key with
  | some known => some known
  | none =>
    if 3 ≤ key.utf8ByteSize then knownSetKeys.find? (beginAlike · key) else none

end PrefixPattern
