import PrefixPattern.Regex.Normal

/-!
# Sets of characters as bytes

An automaton reads the bytes of a text, so a set of characters becomes a set of byte sequences: lists
of byte ranges, each of which stands for all sequences with one byte from every range.

## What is here

* `ByteRange` — a range of bytes.
* `CodeRange.byteSequences` — the byte sequences of a range of characters.
* `ByteRange.places` — the places at which a reader of such sequences can be.
-/

set_option autoImplicit false

namespace PrefixPattern

/-- A range of bytes. -/
structure ByteRange where
  first : Nat
  last : Nat
  deriving DecidableEq, Repr, Inhabited

namespace ByteRange

/-- The numbers from `first` to `last`, written with one leading digit and `n` digits in base 64
behind it.  Each digit gets a mark that is added to it, the leading one its own. -/
def digits (mark : Nat) : Nat → Nat → Nat → List (List ByteRange)
  | 0, first, last => [[⟨mark + first, mark + last⟩]]
  | n + 1, first, last =>
    let unit := 64 ^ (n + 1)
    let a := first / unit
    let b := last / unit
    let below (d first last : Nat) := (digits 0x80 n first last).map (⟨mark + d, mark + d⟩ :: ·)
    if a = b then below a (first % unit) (last % unit)
    else
      let lowIsWhole := first % unit = 0
      let highIsWhole := last % unit = unit - 1
      let start := if lowIsWhole then a else a + 1
      let stop := if highIsWhole then b + 1 else b
      (if lowIsWhole then [] else below a (first % unit) (unit - 1)) ++
        (if start < stop then
          [⟨mark + start, mark + stop - 1⟩ :: List.replicate (n + 1) ⟨0x80, 0xbf⟩]
        else []) ++
        (if highIsWhole then [] else below b 0 (last % unit))

/-- The lists behind each of the ranges that the lists begin with, range by range. -/
def branches (sequences : List (List ByteRange)) : List (ByteRange × List (List ByteRange)) :=
  sequences.foldr (fun s done =>
    match s with
    | [] => done
    | r :: rest =>
      match done with
      | (q, tails) :: more => if q = r then (q, rest :: tails) :: more else (r, [rest]) :: done
      | [] => [(r, [rest])]) []

/-- The places that a reader of the sequences can be at, each with what can follow there, up to a
number of bytes.  Places with nothing behind them do not count. -/
def places : Nat → List (List (List ByteRange)) → List (List (List ByteRange))
  | 0, _ => []
  | n + 1, now =>
    let now := now.filter fun sequences => sequences.any fun s => !s.isEmpty
    now ++ places n (now.flatMap fun sequences => (branches sequences).map Prod.snd)

end ByteRange

namespace CodeRange

/-- The part of the range between two code points. -/
def clip (first last : Nat) (r : CodeRange) : List CodeRange :=
  let low := max first r.first
  let high := min last r.last
  if low ≤ high then [⟨low, high⟩] else []

/-- The byte sequences of a range of characters, which are of one to four bytes. -/
def byteSequences (r : CodeRange) : List (List ByteRange) :=
  let part (first last mark n : Nat) :=
    (r.clip first last).flatMap fun q => ByteRange.digits mark n q.first q.last
  part 0 0x7f 0 0 ++ part 0x80 0x7ff 0xc0 1 ++ part 0x800 0xd7ff 0xe0 2 ++
    part 0xe000 0xffff 0xe0 2 ++ part 0x10000 0x10ffff 0xf0 3

end CodeRange
end PrefixPattern
