/-!
# Space between the parts of a TOML document

Blanks, line ends and comments.  A line ends with a line feed, which may have one carriage return
in front of it; a carriage return anywhere else is no part of any space.

## What is here

* `isTextChar` — the characters that comments and strings may hold as they are.
* `skipBlank` — blanks on the same line.
* `endLine?` — the rest of a line that holds nothing more.
* `skipSpace?` — any space, over several lines.
-/

set_option autoImplicit false

namespace PrefixPattern
namespace Toml

/-- A space or a tab. -/
def isBlank (c : Char) : Bool :=
  c == ' ' || c == '\t'

/-- A tab, or any character that is not an ASCII control character. -/
def isTextChar (c : Char) : Bool :=
  c == '\t' || (' ' ≤ c && c != '\x7f')

/-- Drop blanks. -/
def skipBlank (cs : List Char) : List Char :=
  cs.dropWhile isBlank

/-- What follows the end of a line. -/
def newline? : List Char → Option (List Char)
  | '\n' :: cs => some cs
  | '\r' :: '\n' :: cs => some cs
  | _ => none

/-- Drop a comment, up to the end of its line. -/
def skipComment : List Char → List Char
  | '#' :: cs => cs.dropWhile isTextChar
  | cs => cs

/-- What follows this line, of which only blanks and a comment may be left. -/
def endLine? (cs : List Char) : Option (List Char) :=
  match skipComment (skipBlank cs) with
  | [] => some []
  | cs => newline? cs

/-- Drop blanks, line ends and comments; a comment must be ended by its line. -/
def skipSpace? (inComment : Bool) : List Char → Option (List Char)
  | [] => if inComment then none else some []
  | '\n' :: cs => skipSpace? false cs
  | '\r' :: '\n' :: cs => skipSpace? false cs
  | c :: cs =>
    if inComment then (if isTextChar c then skipSpace? true cs else none)
    else if isBlank c then skipSpace? false cs
    else if c = '#' then skipSpace? true cs
    else some (c :: cs)

end Toml
end PrefixPattern
