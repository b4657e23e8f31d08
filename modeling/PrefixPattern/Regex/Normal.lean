import PrefixPattern.Regex.Basic

/-!
# The normal form of a regular expression

An automaton is not built from an expression as it is written, but from a simpler one that matches
the same texts: neighbouring characters are joined to one text, a choice between single characters
is a set of characters, and what all branches of a choice begin with is taken in front of it.

## What is here

* `CodeRange`, `CodeRange.join` — sets of characters, as ranges in ascending order with gaps between
  them.
* `NormalForm` — the simpler expressions.
* `NormalForm.sequence`, `NormalForm.choice`, `NormalForm.repetition` — putting them together.
* `Regex.normalForm` — the normal form of an expression.
-/

set_option autoImplicit false

namespace PrefixPattern

/-! ## Sets of characters -/

/-- A range of characters, by their code points. -/
structure CodeRange where
  first : Nat
  last : Nat
  deriving DecidableEq, Repr, Inhabited

namespace CodeRange

/-- Every character but the line feed. -/
def allButLineFeed : List CodeRange := [⟨0, 0x9⟩, ⟨0xb, 0x10ffff⟩]

/-- Ranges in ascending order, with those that touch or overlap made one, in front of the ranges in
`done`, of which the last comes first. -/
def merge : List CodeRange → List CodeRange → List CodeRange
  | [], done => done.reverse
  | r :: rs, [] => merge rs [r]
  | r :: rs, d :: done =>
    if r.first ≤ d.last + 1 then merge rs (⟨d.first, max d.last r.last⟩ :: done)
    else merge rs (r :: d :: done)

/-- The set that ranges in any order make up. -/
def join (ranges : List CodeRange) : List CodeRange :=
  merge (ranges.mergeSort fun r s => r.first ≤ s.first) []

end CodeRange

/-! ## Normal forms -/

/-- A regular expression as an automaton is built from it. -/
inductive NormalForm where
  | empty
  /-- these characters one after the other, at least one -/
  | text (cs : List Char)
  /-- one character of a set -/
  | oneOf (ranges : List CodeRange)
  /-- the start of the text -/
  | start
  /-- the end of the text -/
  | stop
  | capture (body : NormalForm)
  | rep (k : Repetition) (body : NormalForm)
  | seq (items : List NormalForm)
  | alt (branches : List NormalForm)
  deriving Inhabited

namespace NormalForm

mutual

/-- The expression takes no characters. -/
def takesNone : NormalForm → Bool
  | empty | start | stop => true
  | text _ | oneOf _ => false
  | capture body => takesNone body
  | rep k body => !k.allowsMore && takesNone body
  | seq items => allTakeNone items
  | alt branches => allTakeNone branches

/-- The same of every expression in a list. -/
def allTakeNone : List NormalForm → Bool
  | [] => true
  | x :: xs => takesNone x && allTakeNone xs

end

mutual

/-- Two expressions are the same.  Two that capture never are, since each has a place of its own for
what it remembers. -/
def same : NormalForm → NormalForm → Bool
  | empty, empty | start, start | stop, stop => true
  | text cs, text ds => cs == ds
  | oneOf rs, oneOf ss => rs == ss
  | rep k x, rep l y => k = l && same x y
  | seq xs, seq ys => allSame xs ys
  | alt xs, alt ys => allSame xs ys
  | _, _ => false

/-- The same of two lists, place by place. -/
def allSame : List NormalForm → List NormalForm → Bool
  | [], [] => true
  | x :: xs, y :: ys => same x y && allSame xs ys
  | _, _ => false

end

/-! ## Sequences -/

/-- The items of a sequence; any other expression is its only item. -/
def items : NormalForm → List NormalForm
  | seq xs => xs
  | x => [x]

/-- Put the characters of a text that is complete, the last first, in front of other items. -/
def closeText (pending : List Char) (done : List NormalForm) : List NormalForm :=
  match pending with
  | [] => done
  | pending => text pending.reverse :: done

/-- The items of a list with neighbouring texts joined and without empty items, behind a text that is
not complete and the items in `done`; of both the last comes first. -/
def joinTexts : List NormalForm → List Char → List NormalForm → List NormalForm
  | [], pending, done => (closeText pending done).reverse
  | empty :: xs, pending, done => joinTexts xs pending done
  | text cs :: xs, pending, done => joinTexts xs (cs.reverseAux pending) done
  | x :: xs, pending, done => joinTexts xs [] (x :: closeText pending done)

/-- The expressions of a list one after the other. -/
def sequence (xs : List NormalForm) : NormalForm :=
  match joinTexts (xs.flatMap items) [] [] with
  | [] => empty
  | [x] => x
  | xs => seq xs

/-! ## Choices -/

/-- The branches of a choice; any other expression is its only branch. -/
def branches : NormalForm → List NormalForm
  | alt xs => xs
  | x => [x]

/-- The character of a text of length one. -/
def singleChar? : NormalForm → Option CodeRange
  | text [c] => some ⟨c.toNat, c.toNat⟩
  | _ => none

/-- The ranges of a set of characters. -/
def ranges? : NormalForm → Option (List CodeRange)
  | oneOf ranges => some ranges
  | _ => none

/-- The choice between the characters of a set. -/
def ofRanges (ranges : List CodeRange) : NormalForm :=
  match ranges with
  | [r] => if r.first = r.last then text [Char.ofNat r.first] else oneOf [r]
  | ranges => oneOf ranges

/-- The choice between branches that have nothing in front in common. -/
def plainChoice (xs : List NormalForm) : NormalForm :=
  match xs.flatMap branches with
  | [x] => x
  | xs =>
    match xs.mapM singleChar?, xs.mapM ranges? with
    | some ranges, _ => ofRanges (CodeRange.join ranges)
    | none, some sets => ofRanges (CodeRange.join sets.flatten)
    | none, none => alt xs

/-- The items that a branch begins with.  Only a sequence has several, and nothing else is taken
apart. -/
def front : NormalForm → List NormalForm
  | seq xs => xs
  | _ => []

/-- How many expressions two lists have in common at the front, and `n` more. -/
def sharedLength : List NormalForm → List NormalForm → Nat → Nat
  | x :: xs, y :: ys, n => if same x y then sharedLength xs ys (n + 1) else n
  | _, _, n => n

/-- How many items all branches have in common at the front. -/
def frontLength : List NormalForm → Nat
  | [] => 0
  | x :: xs => xs.foldl (fun n y => min n (sharedLength x.front y.front 0)) x.front.length

/-- The choice between branches. -/
def choice (xs : List NormalForm) : NormalForm :=
  match plainChoice xs with
  | alt xs =>
    match frontLength xs with
    | 0 => alt xs
    | n =>
      let shared := (xs.headD empty).front.take n
      sequence (shared ++ [plainChoice (xs.map fun x => sequence (x.front.drop n))])
  | x => x

/-! ## Repetitions -/

/-- The repetition of an expression.  To repeat what takes no characters is idle. -/
def repetition (k : Repetition) (x : NormalForm) : NormalForm :=
  if takesNone x then
    if k.allowsNone then rep .optional x else x
  else rep k x

end NormalForm

/-! ## The normal form of an expression -/

/-- Where an expression stands: by itself, or at the end of a sequence or of a list of
alternatives. -/
inductive Spine where
  | alone
  | ofSeq
  | ofAlt
  deriving DecidableEq, Repr

namespace Regex

/-- Put the normal form of an expression in front of those in `done`.  What ends a sequence gives the
normal form of each of its items, the last first, and the same for alternatives. -/
def collect : Regex → Spine → List NormalForm → List NormalForm
  | empty, _, done => .empty :: done
  | lit c, _, done => .text [c] :: done
  | any, _, done => .oneOf CodeRange.allButLineFeed :: done
  | start, _, done => .start :: done
  | stop, _, done => .stop :: done
  | group true r, _, done => (collect r .alone []).map .capture ++ done
  | group false r, _, done => collect r .alone done
  | rep k r, _, done => (collect r .alone []).map (.repetition k) ++ done
  | seq r s, .ofSeq, done => collect s .ofSeq (collect r .alone done)
  | seq r s, _, done => .sequence (collect s .ofSeq (collect r .alone [])).reverse :: done
  | alt r s, .ofAlt, done => collect s .ofAlt (collect r .alone done)
  | alt r s, _, done => .choice (collect s .ofAlt (collect r .alone [])).reverse :: done

/-- The normal form of an expression. -/
def normalForm (r : Regex) : NormalForm :=
  (r.collect .alone []).headD .empty

end Regex
end PrefixPattern
