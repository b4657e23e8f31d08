/-!
# Literals: one character of a pattern that stands for itself

A member of a string set may hold any character, and a pattern gives a meaning of its own to many
of them.  A *literal* is the spelling of one character that a pattern reads back as exactly that
character: the character on its own where it means nothing else, and the character after a
backslash otherwise.

## What is here

* `Literal.isBare` — the characters that are written on their own.
* `Literal.ofChar`, `Literal.ofList` — the spelling of one character and of a word.
* `Literal.escape` — the same for a `String`.

A backslash is put in front of every ASCII character that is not bare, although many of them would
do without; in front of an ASCII letter or digit, in front of `<` or `>`, and in front of any
character outside ASCII it would change the meaning or be refused, so those are always bare.
-/

set_option autoImplicit false

namespace PrefixPattern
namespace Literal

/-- ASCII letters and digits, `_`, `-`, `/`, `<`, `>`, and everything outside ASCII. -/
def isBare (c : Char) : Bool :=
  c.isAlphanum || c == '_' || c == '-' || c == '/' || c == '<' || c == '>' || 128 ≤ c.val

/-- The spelling of one character. -/
def ofChar (c : Char) : List Char :=
  if isBare c then [c] else ['\\', c]

/-- The spelling of a word, character by character. -/
def ofList (w : List Char) : List Char :=
  w.flatMap ofChar

/-- The literal spelling of a text. -/
def escape (s : String) : String :=
  String.ofList (ofList s.toList)

/-! ## Spellings one character at a time -/

@[simp] theorem ofList_nil : ofList [] = [] := rfl

@[simp] theorem ofList_cons (c : Char) (w : List Char) :
    ofList (c :: w) = ofChar c ++ ofList w := by
  simp [ofList]

@[simp] theorem ofList_append (v w : List Char) :
    ofList (v ++ w) = ofList v ++ ofList w := by
  simp [ofList]

@[simp] theorem toList_escape (s : String) : (escape s).toList = ofList s.toList := by
  simp [escape]

end Literal
end PrefixPattern
