import PrefixPattern.Toml.Quoted

/-!
# TOML numbers

## What is here

* `digitRun?` — digits, with single underscores between them.
* `integer?` — a decimal number with an optional sign, or a number in base 16, 8 or 2 without one.
  It must have a place among the 64 bit integers.
* `float?` — a number with a fraction or an exponent, an infinity, or no number at all.

A decimal number has no leading zeros.  A positive float must not round to infinity; a negative one
may.
-/

set_option autoImplicit false

namespace PrefixPattern
namespace Toml

/-- A decimal digit. -/
def isDigit (c : Char) : Bool :=
  '0' ≤ c && c ≤ '9'

/-- Characters of a class with single underscores between them, and what follows.  The characters
come without the underscores, behind those in `done`, of which the last comes first. -/
def moreDigits? (isOne : Char → Bool) : List Char → List Char → Option (List Char × List Char)
  | '_' :: c :: cs, done => if isOne c then moreDigits? isOne cs (c :: done) else none
  | ['_'], _ => none
  | c :: cs, done =>
    if isOne c then moreDigits? isOne cs (c :: done) else some (done.reverse, c :: cs)
  | [], done => some (done.reverse, [])

/-- At least one character of a class, with single underscores between them. -/
def digitRun? (isOne : Char → Bool) : List Char → Option (List Char × List Char)
  | c :: cs => if isOne c then moreDigits? isOne cs [c] else none
  | [] => none

/-- The number that digits stand for in a base up to sixteen. -/
def numberOf (base : Nat) (digits : List Char) : Nat :=
  digits.foldl (fun n c => base * n + (hexValue? c).getD 0) 0

/-- An optional sign: whether it is a minus, and what follows. -/
def sign : List Char → Bool × List Char
  | '+' :: cs => (false, cs)
  | '-' :: cs => (true, cs)
  | cs => (false, cs)

/-- The digits of a decimal number without leading zeros, and what follows. -/
def decimal? : List Char → Option (List Char × List Char)
  | '0' :: cs => some (['0'], cs)
  | cs => digitRun? isDigit cs

/-! ## Integers -/

/-- The integer is one of 64 bits. -/
def is64Bit (n : Int) : Bool :=
  -9223372036854775808 ≤ n && n ≤ 9223372036854775807

/-- An integer of 64 bits with the characters behind it. -/
def checked? (n : Int) (rest : List Char) : Option (Int × List Char) :=
  if is64Bit n then some (n, rest) else none

/-- An integer in a base other than ten, behind the letter of the base. -/
def based? (base : Nat) (isOne : Char → Bool) (cs : List Char) : Option (Int × List Char) :=
  match digitRun? isOne cs with
  | some (digits, rest) => checked? (numberOf base digits) rest
  | none => none

/-- An integer and what follows. -/
def integer? : List Char → Option (Int × List Char)
  | '0' :: 'x' :: cs => based? 16 (fun c => (hexValue? c).isSome) cs
  | '0' :: 'o' :: cs => based? 8 (fun c => '0' ≤ c && c ≤ '7') cs
  | '0' :: 'b' :: cs => based? 2 (fun c => c == '0' || c == '1') cs
  | cs =>
    let (negative, digits) := sign cs
    match decimal? digits with
    | some (ds, rest) =>
      let n : Int := numberOf 10 ds
      checked? (if negative then -n else n) rest
    | none => none

/-! ## Floats -/

/-- The fraction of a number, if there is one: its digits and what follows. -/
def fraction? : List Char → Option (List Char × List Char)
  | '.' :: cs => digitRun? isDigit cs
  | cs => some ([], cs)

/-- The exponent of a number, if there is one, and what follows. -/
def exponent? : List Char → Option (Int × List Char)
  | [] => some (0, [])
  | c :: cs =>
    if c = 'e' ∨ c = 'E' then
      let (negative, digits) := sign cs
      (digitRun? isDigit digits).map fun (ds, rest) =>
        let n : Int := numberOf 10 ds
        (if negative then -n else n, rest)
    else some (0, c :: cs)

/-- The least number that a float of 64 bits rounds to infinity. -/
def overflowBound : Nat := Nat.pow 2 1024 - Nat.pow 2 970

/-- The digits, times ten to the power `exponent`, round to infinity.  A power that decides alone is
not computed. -/
def overflows (digits : List Char) (exponent : Int) : Bool :=
  let significant := digits.dropWhile (· == '0')
  let magnitude := significant.length + exponent
  if significant.isEmpty || magnitude < 309 then false
  else if 309 < magnitude then true
  else
    overflowBound * Nat.pow 10 (-exponent).toNat ≤
      numberOf 10 significant * Nat.pow 10 exponent.toNat

/-- What follows one of the words for an infinity or no number. -/
def special? (cs : List Char) : Option (List Char) :=
  match (sign cs).2 with
  | 'i' :: 'n' :: 'f' :: rest => some rest
  | 'n' :: 'a' :: 'n' :: rest => some rest
  | _ => none

/-- What follows a number with a fraction or an exponent. -/
def float? (cs : List Char) : Option (List Char) := do
  let (negative, start) := sign cs
  let (whole, afterWhole) ← decimal? start
  let (fraction, afterFraction) ← fraction? afterWhole
  let (exponent, rest) ← exponent? afterFraction
  if rest.length = afterWhole.length then none
  else if !negative && overflows (whole ++ fraction) (exponent - fraction.length) then none
  else some rest

end Toml
end PrefixPattern
