import PrefixPattern.Json.Basic
import PrefixPattern.Toml.Quoted

/-!
# Reading JSON

The program writes JSON and never reads any.  To say what can be read from its output there has to
be a reader, and this is one for the whole of JSON with the exception of numbers that are no
integers.  It was not made for the texts that are written here: blanks may stand between any two
tokens, every escape is known, and two escapes may stand for the two halves of one character.

## What is here

* `Json.Token` — what a text is cut into.
* `Json.string?`, `Json.natural?` — strings behind their opening quote, and numbers without a sign.
* `Json.token?`, `Json.tokens?` — the first token and all tokens of a text.
* `Json.value?` — the value that tokens stand for, with the containers around it kept in a list of
  `Json.Frame`s.
* `Json.read?` — the value of a whole text.
-/

set_option autoImplicit false

namespace PrefixPattern
namespace Json

open Toml (hexNumber? charOf?)

/-! ## Tokens -/

/-- The smallest pieces of a text that mean something: brackets, separators, and values that have
no others in them. -/
inductive Token where
  | openArr
  | closeArr
  | openObj
  | closeObj
  | comma
  | colon
  | value (v : Json)
  deriving Inhabited

/-- The characters that may stand between tokens. -/
def isBlank (c : Char) : Bool :=
  c == ' ' || c == '\t' || c == '\n' || c == '\r'

/-- The character that an escape of one letter stands for. -/
def letterEscape? (c : Char) : Option Char :=
  if c = '"' ∨ c = '\\' ∨ c = '/' then some c
  else if c = 'b' then some '\x08'
  else if c = 'f' then some '\x0c'
  else if c = 'n' then some '\n'
  else if c = 'r' then some '\r'
  else if c = 't' then some '\t'
  else none

/-- The character of two halves, of which the first is a high and the second a low surrogate. -/
def joinHalves? (high low : Nat) : Option Char :=
  if 0xdc00 ≤ low ∧ low < 0xe000 then charOf? (0x10000 + 0x400 * (high - 0xd800) + (low - 0xdc00))
  else none

/-- A string up to its closing quote, and what follows.  `done` holds the characters read before,
the last first, and `half?` the first half of a character whose second half must come next. -/
def string? : Option Nat → List Char → List Char → Option (String × List Char)
  | half?, done, '\\' :: 'u' :: a :: b :: c :: d :: cs =>
    match half?, hexNumber? [a, b, c, d] with
    | none, some n =>
      if 0xd800 ≤ n ∧ n < 0xdc00 then string? (some n) done cs
      else
        match charOf? n with
        | some x => string? none (x :: done) cs
        | none => none
    | some high, some low =>
      match joinHalves? high low with
      | some x => string? none (x :: done) cs
      | none => none
    | _, none => none
  | none, done, '\\' :: c :: cs =>
    match letterEscape? c with
    | some x => string? none (x :: done) cs
    | none => none
  | none, done, '"' :: cs => some (String.ofList done.reverse, cs)
  | none, done, c :: cs => if c.toNat < 32 ∨ c = '\\' then none else string? none (c :: done) cs
  | _, _, _ => none

/-- A number without a sign, and what follows.  There are no zeros in front of other digits. -/
def natural? (cs : List Char) : Option (Nat × List Char) :=
  let digits := cs.takeWhile Char.isDigit
  if digits = [] ∨ (digits.head? = some '0' ∧ digits ≠ ['0']) then none
  else some (Nat.ofDigitChars 10 digits 0, cs.dropWhile Char.isDigit)

/-- The token at the beginning of a text, and what follows. -/
def token? : List Char → Option (Token × List Char)
  | '[' :: cs => some (.openArr, cs)
  | ']' :: cs => some (.closeArr, cs)
  | '\x7b' :: cs => some (.openObj, cs)
  | '\x7d' :: cs => some (.closeObj, cs)
  | ',' :: cs => some (.comma, cs)
  | ':' :: cs => some (.colon, cs)
  | 'n' :: 'u' :: 'l' :: 'l' :: cs => some (.value null, cs)
  | 't' :: 'r' :: 'u' :: 'e' :: cs => some (.value (bool true), cs)
  | 'f' :: 'a' :: 'l' :: 's' :: 'e' :: cs => some (.value (bool false), cs)
  | '"' :: cs => (string? none [] cs).map fun p => (.value (str p.1), p.2)
  | '-' :: cs => (natural? cs).map fun p => (.value (num (-p.1)), p.2)
  | cs => (natural? cs).map fun p => (.value (num p.1), p.2)

theorem length_lt_of_string? {half? : Option Nat} {done cs : List Char} {p : String × List Char}
    (h : string? half? done cs = some p) : p.2.length < cs.length := by
  fun_induction string? half? done cs
  all_goals grind

theorem length_lt_of_natural? {cs : List Char} {p : Nat × List Char} (h : natural? cs = some p) :
    p.2.length < cs.length := by
  rw [natural?] at h
  split at h
  · simp at h
  · rename_i hdigits
    obtain rfl := Option.some.inj h
    have hpos := List.length_pos_iff.2 fun hnil => hdigits (.inl hnil)
    have hsplit := congrArg List.length
      (List.takeWhile_append_dropWhile (p := Char.isDigit) (l := cs))
    rw [List.length_append] at hsplit
    show (cs.dropWhile Char.isDigit).length < cs.length
    omega

theorem length_lt_of_token? {cs : List Char} {p : Token × List Char} (h : token? cs = some p) :
    p.2.length < cs.length := by
  rw [token?.eq_def] at h
  split at h
  case h_10 =>
    obtain ⟨q, hq, rfl⟩ := Option.map_eq_some_iff.1 h
    exact Nat.lt_succ_of_lt (length_lt_of_string? hq)
  case h_11 =>
    obtain ⟨q, hq, rfl⟩ := Option.map_eq_some_iff.1 h
    exact Nat.lt_succ_of_lt (length_lt_of_natural? hq)
  case h_12 =>
    obtain ⟨q, hq, rfl⟩ := Option.map_eq_some_iff.1 h
    exact length_lt_of_natural? hq
  all_goals
    obtain rfl := Option.some.inj h
    simp only [List.length_cons]
    omega

/-- The tokens of a text, whatever blanks are between them. -/
def tokens? : List Char → Option (List Token)
  | [] => some []
  | c :: cs =>
    if isBlank c then tokens? cs
    else
      match _h : token? (c :: cs) with
      | some (t, rest) => (tokens? rest).map (t :: ·)
      | none => none
termination_by cs => cs.length
decreasing_by
  · simp
  · exact length_lt_of_token? _h

/-! ## Values -/

/-- A container that is not closed yet: what was read of it, the last first, and for an object the
name of the field whose value is read now. -/
inductive Frame where
  | arr (done : List Json)
  | obj (done : List (String × Json)) (name : String)

mutual

/-- The value of a text from a place on where a value must come next. -/
def value? (frames : List Frame) : List Token → Option Json
  | .openArr :: .closeArr :: ts => behind? (arr []) frames ts
  | .openArr :: ts => value? (.arr [] :: frames) ts
  | .openObj :: .closeObj :: ts => behind? (obj []) frames ts
  | .openObj :: .value (str name) :: .colon :: ts => value? (.obj [] name :: frames) ts
  | .value v :: ts => behind? v frames ts
  | _ => none

/-- The value of a text from a place on where the value `v` has just been read. -/
def behind? (v : Json) : List Frame → List Token → Option Json
  | [], [] => some v
  | .arr done :: frames, .comma :: ts => value? (.arr (v :: done) :: frames) ts
  | .arr done :: frames, .closeArr :: ts => behind? (arr (v :: done).reverse) frames ts
  | .obj done name :: frames, .comma :: .value (str next) :: .colon :: ts =>
    value? (.obj ((name, v) :: done) next :: frames) ts
  | .obj done name :: frames, .closeObj :: ts =>
    behind? (obj ((name, v) :: done).reverse) frames ts
  | _, _ => none

end

/-- The value that a text stands for; the names of an object stay in their order, and one that
comes twice is there twice. -/
def read? (text : String) : Option Json :=
  (tokens? text.toList).bind (value? [])

example : read? "[ null,-120 ,\"\\/\\u00E9\\ud83d\\ude00\\\\\",[[] ,true]]" =
    some (arr [null, num (-120), str "/é😀\\", arr [arr [], bool true]]) := by
  cbv

end Json
end PrefixPattern
