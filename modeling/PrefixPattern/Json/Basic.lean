/-!
# JSON values and their text

## What is here

* `Json` — the values; numbers are integers.
* `Json.quote` — a string with its quotes and escapes.  A quote, a backslash and the control
  characters are escaped, five of these by a letter and the others by four hexadecimal digits; all
  other characters are written as they are.
* `Json.pretty` — the text of a value, every item on a line of its own and indented by two spaces
  for each container around it; an empty container is written in one piece.
-/

set_option autoImplicit false

namespace PrefixPattern

/-- A JSON value. -/
inductive Json where
  | null
  | bool (b : Bool)
  | num (n : Int)
  | str (s : String)
  | arr (items : List Json)
  | obj (fields : List (String × Json))
  deriving Inhabited

namespace Json

/-! ## Strings -/

/-- A hexadecimal digit, with small letters. -/
def hexDigit (n : Nat) : Char :=
  Nat.digitChar n

/-- The spelling of one character inside quotes. -/
def escapeChar (c : Char) : List Char :=
  if c = '"' then ['\\', '"']
  else if c = '\\' then ['\\', '\\']
  else if c = '\x08' then ['\\', 'b']
  else if c = '\x0c' then ['\\', 'f']
  else if c = '\n' then ['\\', 'n']
  else if c = '\r' then ['\\', 'r']
  else if c = '\t' then ['\\', 't']
  else if c.toNat < 32 then ['\\', 'u', '0', '0', hexDigit (c.toNat / 16), hexDigit (c.toNat % 16)]
  else [c]

/-- A string between quotes. -/
def quote (s : String) : List Char :=
  '"' :: s.toList.flatMap escapeChar ++ ['"']

/-! ## Values -/

/-- A new line, indented for `depth` containers. -/
def newline (depth : Nat) : List Char :=
  '\n' :: List.replicate (2 * depth) ' '

mutual

/-- The text of a value inside `depth` containers. -/
def render (depth : Nat) : Json → List Char
  | null => "null".toList
  | bool b => (if b then "true" else "false").toList
  | num n => (toString n).toList
  | str s => quote s
  | arr [] => ['[', ']']
  | arr (v :: rest) =>
    '[' :: newline (depth + 1) ++ render (depth + 1) v ++ renderItems (depth + 1) rest ++
      newline depth ++ [']']
  | obj [] => ['\x7b', '\x7d']
  | obj ((k, v) :: rest) =>
    '\x7b' :: newline (depth + 1) ++ quote k ++ [':', ' '] ++ render (depth + 1) v ++
      renderFields (depth + 1) rest ++ newline depth ++ ['\x7d']

/-- The items of an array behind its first one. -/
def renderItems (depth : Nat) : List Json → List Char
  | [] => []
  | v :: rest => ',' :: newline depth ++ render depth v ++ renderItems depth rest

/-- The fields of an object behind its first one. -/
def renderFields (depth : Nat) : List (String × Json) → List Char
  | [] => []
  | (k, v) :: rest =>
    ',' :: newline depth ++ quote k ++ [':', ' '] ++ render depth v ++ renderFields depth rest

end

/-- The text of a value. -/
def pretty (v : Json) : String :=
  String.ofList (render 0 v)

end Json
end PrefixPattern
