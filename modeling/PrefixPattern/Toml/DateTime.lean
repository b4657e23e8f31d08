import PrefixPattern.Toml.Number

/-!
# TOML dates and times

A date, a time, or a date with a time and perhaps an offset.  A date must be one of the calendar;
a time has seconds, up to a leap second, and may have a fraction of any length.

## What is here

* `dateTime?` — a date or time in a document, where other things may follow.
* `isDateTime` — whether a whole text is one.  Here an hour can be the 24th, and an offset is any
  number of hours and minutes up to a day.
-/

set_option autoImplicit false

namespace PrefixPattern
namespace Toml

/-- Exactly `n` decimal digits as a number, and what follows. -/
def fixed? (n : Nat) (cs : List Char) : Option (Nat × List Char) :=
  let digits := cs.take n
  if digits.length = n ∧ digits.all isDigit then some (numberOf 10 digits, cs.drop n) else none

/-- What follows a character. -/
def expect? (c : Char) : List Char → Option (List Char)
  | d :: cs => if d = c then some cs else none
  | [] => none

/-- The days of a month. -/
def daysIn (year month : Nat) : Nat :=
  if month = 2 then
    if year % 4 = 0 ∧ (year % 100 ≠ 0 ∨ year % 400 = 0) then 29 else 28
  else if month = 4 ∨ month = 6 ∨ month = 9 ∨ month = 11 then 30
  else 31

/-- What follows a date. -/
def date? (cs : List Char) : Option (List Char) := do
  let (year, cs) ← fixed? 4 cs
  let cs ← expect? '-' cs
  let (month, cs) ← fixed? 2 cs
  let cs ← expect? '-' cs
  let (day, cs) ← fixed? 2 cs
  if 1 ≤ month ∧ month ≤ 12 ∧ 1 ≤ day ∧ day ≤ daysIn year month then some cs else none

/-- What follows the fraction of a second, if there is one. -/
def secondFraction (cs : List Char) : List Char :=
  match cs with
  | '.' :: d :: rest => if isDigit d then rest.dropWhile isDigit else cs
  | _ => cs

/-- What follows a time of the day, the hour being at most `lastHour`. -/
def time? (lastHour : Nat) (cs : List Char) : Option (List Char) := do
  let (hour, cs) ← fixed? 2 cs
  let cs ← expect? ':' cs
  let (minute, cs) ← fixed? 2 cs
  let cs ← expect? ':' cs
  let (second, cs) ← fixed? 2 cs
  if hour ≤ lastHour ∧ minute ≤ 59 ∧ second ≤ 60 then some (secondFraction cs) else none

/-- What follows an offset of hours and minutes, behind its sign. -/
def offset? (cs : List Char) : Option (List Char) := do
  let (hour, cs) ← fixed? 2 cs
  let cs ← expect? ':' cs
  let (minute, cs) ← fixed? 2 cs
  if hour ≤ 23 ∧ minute ≤ 59 then some cs else none

/-- What follows an offset, if there is one. -/
def skipOffset (cs : List Char) : List Char :=
  match cs with
  | 'Z' :: rest => rest
  | 'z' :: rest => rest
  | '+' :: rest => (offset? rest).getD cs
  | '-' :: rest => (offset? rest).getD cs
  | _ => cs

/-- What follows a date, a time, or both. -/
def dateTime? (cs : List Char) : Option (List Char) :=
  match date? cs with
  | none => time? 23 cs
  | some afterDate =>
    match afterDate with
    | [] => some []
    | c :: rest =>
      if c = 'T' ∨ c = 't' ∨ c = ' ' then
        match time? 23 rest with
        | some afterTime => some (skipOffset afterTime)
        | none => some afterDate
      else some afterDate

/-! ## A text of its own -/

/-- The text is an offset, or there is none. -/
def isOffset (cs : List Char) : Bool :=
  match cs with
  | [] | ['Z'] | ['z'] => true
  | c :: rest =>
    match fixed? 2 rest with
    | some (hours, ':' :: rest) =>
      match fixed? 2 rest with
      | some (minutes, []) => (c = '+' ∨ c = '-') ∧ 60 * hours + minutes ≤ 1440
      | _ => false
    | _ => false

/-- The text is a date, a time, or both. -/
def isDateTime (cs : List Char) : Bool :=
  match date? cs with
  | none => time? 24 cs = some []
  | some [] => true
  | some (c :: rest) => (c = 'T' ∨ c = 't' ∨ c = ' ') ∧ ((time? 24 rest).any isOffset : Bool)

end Toml
end PrefixPattern
