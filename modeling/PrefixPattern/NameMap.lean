/-!
# Maps from names, in the order of the names

A `NameMap` is a list of names with what they stand for, in ascending order of the names and with
every name once.  Names are compared character by character, which is also the order of their bytes
in UTF-8.

## What is here

* `NameMap.insert`, `NameMap.find?`, `NameMap.names` — the map itself; inserting a name again
  replaces what it stood for.
* `NameMap.ofList` — all pairs of a list, the last one of a name winning.
-/

set_option autoImplicit false

namespace PrefixPattern

/-- Names with what they stand for, in ascending order. -/
abbrev NameMap (α : Type) := List (String × α)

namespace NameMap

variable {α : Type}

/-- Let a name stand for a value. -/
def insert (name : String) (a : α) : NameMap α → NameMap α
  | [] => [(name, a)]
  | (other, b) :: rest =>
    if name < other then (name, a) :: (other, b) :: rest
    else if name = other then (name, a) :: rest
    else (other, b) :: insert name a rest

/-- What a name stands for. -/
def find? (m : NameMap α) (name : String) : Option α :=
  m.lookup name

/-- The names in ascending order. -/
def names (m : NameMap α) : List String :=
  m.map Prod.fst

/-- The pairs of a list, the last one of each name. -/
def ofList (l : List (String × α)) : NameMap α :=
  l.foldl (fun m p => insert p.1 p.2 m) []

end NameMap
end PrefixPattern
