import PrefixPattern.Toml.Space

/-!
# TOML strings

There are four forms of strings: with escapes or without, on one line or on several.

## What is here

* `basicBody?`, `literalBody?` — the two forms on one line, behind the opening quote.
* `basicLines?`, `literalLines?` — the two forms on several lines, behind the three opening quotes.
  A line end counts as a line feed, and one directly behind the opening quotes does not count.  Up
  to two quotes may stand anywhere, also directly in front of the three closing ones.
* `string?`, `lineString?` — a string in any form, and one on a single line.

With escapes, a backslash at the end of a line drops all blanks and line ends up to the next other
character.
-/

set_option autoImplicit false

namespace PrefixPattern
namespace Toml

/-! ## Escapes -/

/-- The value of a hexadecimal digit. -/
def hexValue? (c : Char) : Option Nat :=
  if '0' ≤ c ∧ c ≤ '9' then some (c.toNat - 48)
  else if 'a' ≤ c ∧ c ≤ 'f' then some (c.toNat - 87)
  else if 'A' ≤ c ∧ c ≤ 'F' then some (c.toNat - 55)
  else none

/-- The number that hexadecimal digits stand for. -/
def hexNumber? (digits : List Char) : Option Nat :=
  digits.foldlM (fun n c => (hexValue? c).map (16 * n + ·)) 0

/-- The character with a number; surrogates and numbers beyond the last character have none. -/
def charOf? (n : Nat) : Option Char :=
  if n < 0xd800 ∨ (0xdfff < n ∧ n < 0x110000) then some (Char.ofNat n) else none

/-- The character that an escape of hexadecimal digits stands for. -/
def unicodeEscape? (digits : List Char) : Option Char :=
  (hexNumber? digits).bind charOf?

/-- The character that an escape of one letter stands for. -/
def letterEscape? (c : Char) : Option Char :=
  if c = 'b' then some '\x08'
  else if c = 't' then some '\t'
  else if c = 'n' then some '\n'
  else if c = 'f' then some '\x0c'
  else if c = 'r' then some '\r'
  else if c = '"' then some '"'
  else if c = '\\' then some '\\'
  else none

/-! ## Strings on one line -/

/-- A string with escapes up to its closing quote, and what follows; `done` holds the characters
read before, the last first. -/
def basicBody? : List Char → List Char → Option (String × List Char)
  | [], _ => none
  | '"' :: cs, done => some (String.ofList done.reverse, cs)
  | '\\' :: 'u' :: a :: b :: c :: d :: cs, done =>
    match unicodeEscape? [a, b, c, d] with
    | some x => basicBody? cs (x :: done)
    | none => none
  | '\\' :: 'U' :: a :: b :: c :: d :: e :: f :: g :: h :: cs, done =>
    match unicodeEscape? [a, b, c, d, e, f, g, h] with
    | some x => basicBody? cs (x :: done)
    | none => none
  | '\\' :: c :: cs, done =>
    match letterEscape? c with
    | some x => basicBody? cs (x :: done)
    | none => none
  | c :: cs, done => if isTextChar c && c != '\\' then basicBody? cs (c :: done) else none

/-- A string without escapes up to its closing quote, and what follows. -/
def literalBody? (cs : List Char) : Option (String × List Char) :=
  let body := cs.takeWhile fun c => isTextChar c && c != '\''
  match cs.drop body.length with
  | '\'' :: rest => some (String.ofList body, rest)
  | _ => none

/-! ## Strings on several lines -/

/-- Drop one line end. -/
def skipNewline (cs : List Char) : List Char :=
  (newline? cs).getD cs

/-- Only blanks are left on this line. -/
def isLineEnd (cs : List Char) : Bool :=
  (newline? (skipBlank cs)).isSome

/-- A string with escapes up to its three closing quotes, and what follows.  While `folding`, blanks
and line ends are dropped. -/
def basicLines? (folding : Bool) : List Char → List Char → Option (String × List Char)
  | [], _ => none
  | '"' :: '"' :: '"' :: '"' :: '"' :: cs, done =>
    some (String.ofList ('"' :: '"' :: done).reverse, cs)
  | '"' :: '"' :: '"' :: '"' :: cs, done => some (String.ofList ('"' :: done).reverse, cs)
  | '"' :: '"' :: '"' :: cs, done => some (String.ofList done.reverse, cs)
  | '\\' :: 'u' :: a :: b :: c :: d :: cs, done =>
    match unicodeEscape? [a, b, c, d] with
    | some x => basicLines? false cs (x :: done)
    | none => none
  | '\\' :: 'U' :: a :: b :: c :: d :: e :: f :: g :: h :: cs, done =>
    match unicodeEscape? [a, b, c, d, e, f, g, h] with
    | some x => basicLines? false cs (x :: done)
    | none => none
  | '\\' :: c :: cs, done =>
    match letterEscape? c with
    | some x => basicLines? false cs (x :: done)
    | none => if isLineEnd (c :: cs) then basicLines? true cs done else none
  | '\r' :: '\n' :: cs, done => basicLines? folding cs (if folding then done else '\n' :: done)
  | '\n' :: cs, done => basicLines? folding cs (if folding then done else '\n' :: done)
  | c :: cs, done =>
    if folding && isBlank c then basicLines? true cs done
    else if isTextChar c && c != '\\' then basicLines? false cs (c :: done)
    else none

/-- A string without escapes up to its three closing quotes, and what follows. -/
def literalLines? : List Char → List Char → Option (String × List Char)
  | [], _ => none
  | '\'' :: '\'' :: '\'' :: '\'' :: '\'' :: cs, done =>
    some (String.ofList ('\'' :: '\'' :: done).reverse, cs)
  | '\'' :: '\'' :: '\'' :: '\'' :: cs, done => some (String.ofList ('\'' :: done).reverse, cs)
  | '\'' :: '\'' :: '\'' :: cs, done => some (String.ofList done.reverse, cs)
  | '\r' :: '\n' :: cs, done => literalLines? cs ('\n' :: done)
  | c :: cs, done => if isTextChar c || c == '\n' then literalLines? cs (c :: done) else none

/-! ## Strings in any form -/

/-- A string on a single line. -/
def lineString? : List Char → Option (String × List Char)
  | '"' :: cs => basicBody? cs []
  | '\'' :: cs => literalBody? cs
  | _ => none

/-- A string in any of the four forms. -/
def string? : List Char → Option (String × List Char)
  | '"' :: '"' :: '"' :: cs => basicLines? false (skipNewline cs) []
  | '\'' :: '\'' :: '\'' :: cs => literalLines? (skipNewline cs) []
  | cs => lineString? cs

end Toml
end PrefixPattern
