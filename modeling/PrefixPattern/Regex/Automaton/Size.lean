import PrefixPattern.Regex.Automaton.ByteRange
import PrefixPattern.Regex.Automaton.WordTree

/-!
# The size of the automaton of an expression

Two automata belong to an expression: one reads a text from its start and notes where the groups
match, the other one reads from the end.  Both read bytes.

## What is here

* `NormalForm.size` — the memory that an expression takes in one of them.
* `Regex.automatonSize` — the memory of the larger one.
-/

set_option autoImplicit false

namespace PrefixPattern

/-- The direction in which an automaton reads. -/
inductive Direction where
  | forward
  | backward
  deriving DecidableEq, Repr

/-- What the states of an automaton take, in bytes. -/
def automatonCosts : WordTree.Costs where
  state := 32
  alternative := 4
  byteRange := 8

/-- The memory of a state with this many alternatives. -/
def branchingSize (alternatives : Nat) : Nat :=
  automatonCosts.state + automatonCosts.alternative * alternatives

/-- The memory of a state that reads one of this many byte ranges. -/
def readingSize (ranges : Nat) : Nat :=
  automatonCosts.state + automatonCosts.byteRange * ranges

namespace CodeRange

/-- The memory of a set of characters.  Of other sets than those of ASCII characters the forward
automaton has a state for each place that a reader can be at, and the backward one a state for every
byte range, with a choice between the sequences in front. -/
def size (d : Direction) (ranges : List CodeRange) : Nat :=
  if ranges.all fun r => r.last < 128 then automatonCosts.state + readingSize ranges.length
  else
    let sequences := ranges.flatMap byteSequences
    let places := ByteRange.places 4 [sequences]
    match d with
    | .forward =>
      automatonCosts.state +
        (places.eraseDups.map fun p => readingSize (ByteRange.branches p).length).foldl (· + ·) 0
    | .backward =>
      branchingSize sequences.length + automatonCosts.state +
        automatonCosts.state * (places.map fun p => (ByteRange.branches p).length).foldl (· + ·) 0

end CodeRange

namespace NormalForm

mutual

/-- The expression takes at least one character. -/
def takesSome : NormalForm → Bool
  | empty | start | stop => false
  | text _ | oneOf _ => true
  | capture body => takesSome body
  | rep k body => !k.allowsNone && takesSome body
  | seq items => anyTakesSome items
  | alt branches => allTakeSome branches

/-- One of the expressions in a list takes at least one character. -/
def anyTakesSome : List NormalForm → Bool
  | [] => false
  | x :: xs => takesSome x || anyTakesSome xs

/-- All expressions in a list take at least one character. -/
def allTakeSome : List NormalForm → Bool
  | [] => true
  | x :: xs => takesSome x && allTakeSome xs

end

/-- The bytes of a text, in the order in which they are read. -/
def readBytes (d : Direction) (cs : List Char) : List UInt8 :=
  let bytes := cs.flatMap String.utf8EncodeChar
  match d with
  | .forward => bytes
  | .backward => bytes.reverse

/-- The bytes of an expression that is a text. -/
def word? (d : Direction) : NormalForm → Option (List UInt8)
  | text cs => some (readBytes d cs)
  | _ => none

mutual

/-- The memory of an expression. -/
def size (d : Direction) : NormalForm → Nat
  | empty | start | stop => automatonCosts.state
  | text cs => automatonCosts.state * (String.ofList cs).utf8ByteSize
  | oneOf ranges => CodeRange.size d ranges
  | capture body =>
    (match d with
    | .forward => 2 * automatonCosts.state
    | .backward => 0) + size d body
  | rep .optional body => branchingSize 2 + automatonCosts.state + size d body
  | rep .plus body => branchingSize 2 + size d body
  | rep .star body =>
    (if takesSome body then branchingSize 2 else 2 * branchingSize 2 + automatonCosts.state) +
      size d body
  | seq items => sizes d items 0
  | alt branches =>
    match branches.mapM (word? d) with
    | some words => WordTree.size automatonCosts words
    | none => branchingSize branches.length + automatonCosts.state + sizes d branches 0

/-- The memory of all expressions in a list, and `total` more. -/
def sizes (d : Direction) : List NormalForm → Nat → Nat
  | [], total => total
  | x :: xs, total => sizes d xs (total + size d x)

end

/-! ## Where an automaton can begin -/

mutual

/-- What is read first must be read at the edge of the text: its start, or its end if the automaton
reads backward. -/
def isAnchored (d : Direction) : NormalForm → Bool
  | start => d = .forward
  | stop => d = .backward
  | capture body => isAnchored d body
  | rep k body => !k.allowsNone && isAnchored d body
  | seq items =>
    match d with
    | .forward => firstIsAnchored d items
    | .backward => lastIsAnchored d items false
  | alt branches => allAnchored d branches
  | _ => false

/-- The same of a sequence of which the first item is read first. -/
def firstIsAnchored (d : Direction) : List NormalForm → Bool
  | [] => false
  | x :: xs => isAnchored d x || (takesNone x && firstIsAnchored d xs)

/-- The same of a sequence of which the last item is read first, behind items of which it is known
whether it holds of them. -/
def lastIsAnchored (d : Direction) : List NormalForm → Bool → Bool
  | [], before => before
  | x :: xs, before => lastIsAnchored d xs (isAnchored d x || (takesNone x && before))

/-- The same of all branches of a choice. -/
def allAnchored (d : Direction) : List NormalForm → Bool
  | [] => true
  | x :: xs => isAnchored d x && allAnchored d xs

end

/-- The memory of what is in front of an expression: a state, or a loop that skips any bytes if a
match can begin anywhere. -/
def entrySize (d : Direction) (x : NormalForm) : Nat :=
  if x.isAnchored d then automatonCosts.state
  else branchingSize 2 + automatonCosts.state + readingSize 1

/-- The memory of the automaton of an expression, which is a group of its own and ends in a state for
a match. -/
def automatonSize (d : Direction) (x : NormalForm) : Nat :=
  entrySize d x + (NormalForm.capture x).size d + automatonCosts.state

end NormalForm

/-- The memory of the larger automaton of an expression, in bytes. -/
def Regex.automatonSize (r : Regex) : Nat :=
  let x := r.normalForm
  max (x.automatonSize .forward) (x.automatonSize .backward)

end PrefixPattern
