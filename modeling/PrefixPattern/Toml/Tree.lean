import PrefixPattern.Toml.Value

/-!
# Tables under construction

A table of a document need not be written in one place: dotted keys and headers may add to it later.
Which of them may is decided by how the table came about, so a table is kept as an `Entry` until the
document is complete.

## What is here

* `Entry`, `Fields` — tables under construction, with their `TableKind`.
* `Fields.add?` — one value under a dotted key.
* `Header`, `Section` — the values between a header and the next one.
* `Fields.addSection?` — a whole section.
* `Fields.toTable` — the complete table, and `inlineTable?` for a table that is written in one piece.
-/

set_option autoImplicit false

namespace PrefixPattern
namespace Toml

/-- How a table came about. -/
inductive TableKind where
  /-- a header of its own; dotted keys cannot add to it -/
  | header
  /-- it lies on the way to another header, and may still get one of its own -/
  | passed
  /-- dotted keys; only dotted keys can add to it -/
  | dotted
  deriving DecidableEq, Repr

/-- What a key stands for while the document is read. -/
inductive Entry where
  /-- a value that is complete -/
  | value (v : Value)
  | table (kind : TableKind) (fields : List (String × Entry))
  /-- an array of tables, each with a header of its own; only the last can still change -/
  | items (before : List Value) (last : List (String × Entry))

/-- The fields of a table under construction. -/
abbrev Fields := List (String × Entry)

/-! ## Completion -/

mutual

/-- The value of an entry. -/
def Entry.toValue : Entry → Value
  | .value v => v
  | .table _ fields => .table (Fields.toTable fields)
  | .items before last => .array (before ++ [.table (Fields.toTable last)])

/-- The complete table. -/
def Fields.toTable : List (String × Entry) → Table
  | [] => []
  | (key, e) :: rest => (key, e.toValue) :: Fields.toTable rest

end

namespace Fields

/-- Let a key stand for an entry. -/
def put (key : String) (e : Entry) : Fields → Fields
  | [] => [(key, e)]
  | (k, old) :: rest => if k = key then (key, e) :: rest else (k, old) :: put key e rest

/-- Let a key stand for an entry, as the last of all keys. -/
def putLast (key : String) (e : Entry) (fields : Fields) : Fields :=
  fields.filter (fun p => p.1 ≠ key) ++ [(key, e)]

/-! ## Dotted keys -/

/-- Add a value under a dotted key.  The table that the key leads to must be `open`: it is the one
that the key is written in, or it was made by dotted keys. -/
def add? (isOpen : Bool) : List String → Value → Fields → Option Fields
  | [], _, _ => none
  | [key], v, fields =>
    if isOpen && (fields.lookup key).isNone then some (put key (.value v) fields) else none
  | key :: path, v, fields =>
    match fields.lookup key with
    | none => (add? true path v []).map fun sub => put key (.table .dotted sub) fields
    | some (.value _) => none
    | some (.table .header _) => none
    | some (.table .passed sub) =>
      (add? false path v sub).map fun sub => put key (.table .passed sub) fields
    | some (.table .dotted sub) =>
      (add? true path v sub).map fun sub => put key (.table .dotted sub) fields
    | some (.items before last) =>
      (add? false path v last).map fun last => put key (.items before last) fields

/-- Add the values of a section to a table. -/
def addAll? (fields : Fields) (pairs : List (List String × Value)) : Option Fields :=
  pairs.foldlM (fun fields p => add? true p.1 p.2 fields) fields

/-! ## Headers -/

/-- Change the fields of the table in which the last key of a path belongs.  The way leads through
any tables, and through the last item of an array of tables; what is missing on the way is made. -/
def change? (f : String → Fields → Option Fields) : List String → Fields → Option Fields
  | [], _ => none
  | [key], fields => f key fields
  | key :: path, fields =>
    match fields.lookup key with
    | none => (change? f path []).map fun sub => put key (.table .passed sub) fields
    | some (.value _) => none
    | some (.table kind sub) =>
      (change? f path sub).map fun sub => put key (.table kind sub) fields
    | some (.items before last) =>
      (change? f path last).map fun last => put key (.items before last) fields

end Fields

/-- Where the values of a section belong. -/
inductive Header where
  /-- in front of the first header -/
  | top
  /-- the table at a path -/
  | table (path : List String)
  /-- a new item of the array of tables at a path -/
  | item (path : List String)
  deriving DecidableEq, Repr

/-- The values between a header and the next one. -/
structure Section where
  header : Header
  pairs : List (List String × Value)

/-- Give a table its header.  It becomes the last key, wherever it was before. -/
def Section.addTable? (s : Section) (key : String) (fields : Fields) : Option Fields :=
  match fields.lookup key with
  | none => (Fields.addAll? [] s.pairs).map fun sub => fields.putLast key (.table .header sub)
  | some (.table .passed sub) =>
    (Fields.addAll? sub s.pairs).map fun sub => fields.putLast key (.table .header sub)
  | some _ => none

/-- Add an item to an array of tables. -/
def Section.addItem? (s : Section) (key : String) (fields : Fields) : Option Fields :=
  match fields.lookup key with
  | none => (Fields.addAll? [] s.pairs).map fun item => fields.put key (.items [] item)
  | some (.items before last) =>
    (Fields.addAll? [] s.pairs).map fun item =>
      fields.put key (.items (before ++ [.table (Fields.toTable last)]) item)
  | some _ => none

/-- Add a section to the document. -/
def Fields.addSection? (fields : Fields) (s : Section) : Option Fields :=
  match s.header with
  | .top => addAll? fields s.pairs
  | .table path => change? s.addTable? path fields
  | .item path => change? s.addItem? path fields

/-- The table of all sections. -/
def tableOf? (sections : List Section) : Option Table :=
  (sections.foldlM Fields.addSection? []).map Fields.toTable

/-- A table that is written in one piece. -/
def inlineTable? (pairs : List (List String × Value)) : Option Value :=
  (Fields.addAll? [] pairs).map fun fields => .table (Fields.toTable fields)

end Toml
end PrefixPattern
