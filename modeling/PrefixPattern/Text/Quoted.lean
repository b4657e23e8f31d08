import PrefixPattern.Text.Invisible

/-!
# Quoted characters

One character between single quotes, so that it can be seen what it is: the quote and the backslash
are written after a backslash, the common controls by their letters, and every other character that
does not show on its own by its number in braces.
-/

set_option autoImplicit false

namespace PrefixPattern

/-- The number of a character in hexadecimal, without leading zeros. -/
def hexOfChar (c : Char) : String :=
  String.ofList (Nat.toDigits 16 c.toNat)

/-- What stands between the quotes. -/
def quotedBody (c : Char) : String :=
  if c = '\x00' then "\\0"
  else if c = '\t' then "\\t"
  else if c = '\n' then "\\n"
  else if c = '\r' then "\\r"
  else if c = '\'' then "\\'"
  else if c = '\\' then "\\\\"
  else if isInvisible c then "\\u\x7b" ++ hexOfChar c ++ "\x7d"
  else c.toString

/-- A character between single quotes. -/
def quoteChar (c : Char) : String :=
  "'" ++ quotedBody c ++ "'"

end PrefixPattern
