import PrefixPattern.Toml.DateTime
import PrefixPattern.Toml.Tree

/-!
# Reading TOML documents

## What is here

* `keys?` — a dotted key.
* `scalar?`, `value?` — a value; arrays and inline tables are at most `maxDepth` deep, and a dotted
  key has at most as many parts.
* `sections?` — the lines of a document, from header to header.
* `parse?` — the table of a document.

The first argument of the readers for values and lines counts their steps.  Of two steps at least one
takes a character, so starting from twice the length of the text it is never used up.
-/

set_option autoImplicit false

namespace PrefixPattern
namespace Toml

/-- How deep values are nested, and how many parts a dotted key has. -/
def maxDepth : Nat := 79

/-! ## Keys -/

/-- A character of a key that is written without quotes. -/
def isBareKeyChar (c : Char) : Bool :=
  c.isAlphanum || c == '_' || c == '-'

/-- One part of a key. -/
def keyPart? (cs : List Char) : Option (String × List Char) :=
  match cs.takeWhile isBareKeyChar with
  | [] => lineString? cs
  | part => some (String.ofList part, cs.drop part.length)

/-- A key of at most the given number of parts, with blanks around every part. -/
def keys? : Nat → List Char → Option (List String × List Char)
  | 0, _ => none
  | n + 1, cs =>
    match keyPart? (skipBlank cs) with
    | none => none
    | some (key, rest) =>
      match skipBlank rest with
      | '.' :: more => (keys? n more).map fun (path, rest) => (key :: path, rest)
      | rest => some ([key], rest)

/-! ## Values -/

/-- A number, a date or a time. -/
def number? (cs : List Char) : Option (Value × List Char) :=
  match dateTime? cs with
  | some rest => some (.dateTime, rest)
  | none =>
    match float? cs <|> special? cs with
    | some rest => some (.float, rest)
    | none => (integer? cs).map fun (n, rest) => (.integer n, rest)

/-- A value that holds no other values. -/
def scalar? : List Char → Option (Value × List Char)
  | 't' :: 'r' :: 'u' :: 'e' :: rest => some (.boolean true, rest)
  | 'f' :: 'a' :: 'l' :: 's' :: 'e' :: rest => some (.boolean false, rest)
  | cs =>
    match string? cs with
    | some (s, rest) => some (.string s, rest)
    | none => number? cs

mutual

/-- A value that may be nested `depth` deep. -/
def value? : Nat → Nat → List Char → Option (Value × List Char)
  | 0, _, _ => none
  | steps + 1, depth, cs =>
    match cs, depth with
    | '[' :: rest, depth + 1 => items? steps depth rest []
    | '\x7b' :: rest, depth + 1 =>
      match skipBlank rest with
      | '\x7d' :: rest => some (.table [], rest)
      | rest => pairs? steps depth rest []
    | cs, _ => scalar? cs

/-- The items of an array up to its end, behind the items in `done`, of which the last comes
first. -/
def items? : Nat → Nat → List Char → List Value → Option (Value × List Char)
  | 0, _, _, _ => none
  | steps + 1, depth, cs, done =>
    match skipSpace? false cs with
    | none => none
    | some (']' :: rest) => some (.array done.reverse, rest)
    | some cs =>
      match value? steps depth cs with
      | none => none
      | some (v, rest) =>
        match skipSpace? false rest with
        | some (',' :: more) => items? steps depth more (v :: done)
        | some (']' :: rest) => some (.array (v :: done).reverse, rest)
        | _ => none

/-- The fields of an inline table up to its end, behind the fields in `done`, of which the last
comes first. -/
def pairs? : Nat → Nat → List Char → List (List String × Value) → Option (Value × List Char)
  | 0, _, _, _ => none
  | steps + 1, depth, cs, done =>
    match keys? maxDepth cs with
    | some (path, '=' :: rest) =>
      match value? steps depth (skipBlank rest) with
      | none => none
      | some (v, rest) =>
        match skipBlank rest with
        | ',' :: more => pairs? steps depth more ((path, v) :: done)
        | '\x7d' :: rest => (inlineTable? ((path, v) :: done).reverse).map fun t => (t, rest)
        | _ => none
    | _ => none

end

/-! ## Lines -/

/-- The section with the pairs in the order of the text. -/
def Section.close (s : Section) : Section :=
  { s with pairs := s.pairs.reverse }

/-- The path of a header, behind its opening bracket, and what follows on the next line. -/
def headerPath? (brackets : Nat) (cs : List Char) : Option (List String × List Char) :=
  match keys? maxDepth cs with
  | none => none
  | some (path, rest) =>
    if rest.take brackets = List.replicate brackets ']' then
      (endLine? (rest.drop brackets)).map fun rest => (path, rest)
    else none

/-- A key with its value, and what follows on the next line. -/
def pair? (steps : Nat) (cs : List Char) : Option ((List String × Value) × List Char) :=
  match keys? maxDepth cs with
  | some (path, '=' :: rest) =>
    match value? steps maxDepth (skipBlank rest) with
    | none => none
    | some (v, rest) => (endLine? rest).map fun rest => ((path, v), rest)
  | _ => none

/-- The sections of a document, behind those in `done` and the one that is being read; the last
section and the last pair of a section come first until they are closed. -/
def sections? : Nat → List Char → Section → List Section → Option (List Section)
  | 0, _, _, _ => none
  | steps + 1, cs, current, done =>
    match skipBlank cs with
    | [] => some (current.close :: done).reverse
    | '[' :: '[' :: rest =>
      match headerPath? 2 rest with
      | some (path, rest) => sections? steps rest ⟨.item path, []⟩ (current.close :: done)
      | none => none
    | '[' :: rest =>
      match headerPath? 1 rest with
      | some (path, rest) => sections? steps rest ⟨.table path, []⟩ (current.close :: done)
      | none => none
    | c :: rest =>
      if c = '#' ∨ c = '\n' ∨ c = '\r' then
        match endLine? (c :: rest) with
        | some rest => sections? steps rest current done
        | none => none
      else
        match pair? steps (c :: rest) with
        | some (p, rest) => sections? steps rest { current with pairs := p :: current.pairs } done
        | none => none

/-- The text without a byte order mark in front. -/
def skipMark : List Char → List Char
  | '\uFEFF' :: cs => cs
  | cs => cs

/-- The table of a document. -/
def parse? (text : String) : Option Table :=
  let cs := skipMark text.toList
  (sections? (2 * cs.length + 2) cs ⟨.top, []⟩ []).bind tableOf?

end Toml
end PrefixPattern
