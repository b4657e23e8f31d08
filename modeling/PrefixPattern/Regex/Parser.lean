import PrefixPattern.Regex.Basic

/-!
# Reading regular expressions

A pattern text is cut into tokens, and the tokens are put together with a list of the groups that
are still open.

## What is here

* `Token`, `Token.scan` — the tokens of a text.  A backslash in front of an ASCII character that is
  neither a letter nor a digit nor one of `<` and `>` makes a literal of it; a repetition followed by
  `?` is the same repetition, since which of several matches is preferred does not matter here.
* `OpenGroup`, `OpenGroup.assemble` — the branches and items read so far, group by group.
* `Regex.parse?` — the two together.

A bracket `[` or a brace `{` begins a construct that patterns do not have, and the text is refused.
So it is where a backslash stands in front of `<` or `>`, which are the edges of a word then.
-/

set_option autoImplicit false

namespace PrefixPattern

/-- A token of a pattern text. -/
inductive Token where
  /-- an expression of its own -/
  | atom (r : Regex)
  /-- the start of a group that captures or does not -/
  | opening (captures : Bool)
  | closing
  | bar
  | repetition (k : Repetition)
  deriving DecidableEq, Repr

namespace Token

/-- A backslash makes a literal of this character. -/
def isEscapable (c : Char) : Bool :=
  c.val < 128 && !c.isAlphanum && c != '<' && c != '>'

/-- The token that a character is where no other character belongs to it. -/
def ofChar? (c : Char) : Option Token :=
  if c = '(' then some (.opening true)
  else if c = ')' then some .closing
  else if c = '|' then some .bar
  else if c = '?' then some (.repetition .optional)
  else if c = '*' then some (.repetition .star)
  else if c = '+' then some (.repetition .plus)
  else if c = '.' then some (.atom .any)
  else if c = '^' then some (.atom .start)
  else if c = '$' then some (.atom .stop)
  else if c = '\\' ∨ c = '[' ∨ c = '{' then none
  else some (.atom (.lit c))

/-- The tokens of a text, behind the tokens in `done`, of which the last comes first. -/
def scan : List Char → List Token → Option (List Token)
  | [], done => some done.reverse
  | '\\' :: c :: cs, done => if isEscapable c then scan cs (.atom (.lit c) :: done) else none
  | '(' :: '?' :: ':' :: cs, done => scan cs (.opening false :: done)
  | '(' :: '?' :: _, _ => none
  | '?' :: '?' :: cs, done => scan cs (.repetition .optional :: done)
  | '*' :: '?' :: cs, done => scan cs (.repetition .star :: done)
  | '+' :: '?' :: cs, done => scan cs (.repetition .plus :: done)
  | c :: cs, done =>
    match ofChar? c with
    | some t => scan cs (t :: done)
    | none => none

end Token

namespace Regex

/-- The sequence of the items in a list, of which the last comes first. -/
def seqOf : List Regex → Regex
  | [] => empty
  | last :: before => before.foldl (fun r x => seq x r) last

/-- The alternatives in a list, of which the last comes first. -/
def altOf : List Regex → Regex
  | [] => empty
  | last :: before => before.foldl (fun r x => alt x r) last

end Regex

/-- A group that is still open: the branches that are complete and the items of the branch that is
not, of both the last first. -/
structure OpenGroup where
  captures : Bool := false
  branches : List Regex := []
  items : List Regex := []

namespace OpenGroup

/-- Append an item to the branch. -/
def push (g : OpenGroup) (r : Regex) : OpenGroup :=
  { g with items := r :: g.items }

/-- Complete the branch and begin the next. -/
def nextBranch (g : OpenGroup) : OpenGroup :=
  { g with branches := Regex.seqOf g.items :: g.branches, items := [] }

/-- What the group holds once it is closed. -/
def close (g : OpenGroup) : Regex :=
  Regex.altOf (Regex.seqOf g.items :: g.branches)

/-- Repeat the last item, if there is one. -/
def repeatLast? (g : OpenGroup) (k : Repetition) : Option OpenGroup :=
  match g.items with
  | r :: before => some { g with items := .rep k r :: before }
  | [] => none

/-- Put tokens together, in the group `g` and the groups around it. -/
def assemble : List Token → OpenGroup → List OpenGroup → Option Regex
  | [], g, [] => some g.close
  | [], _, _ :: _ => none
  | .atom r :: ts, g, around => assemble ts (g.push r) around
  | .opening captures :: ts, g, around => assemble ts { captures } (g :: around)
  | .closing :: ts, g, outer :: around =>
    assemble ts (outer.push (.group g.captures g.close)) around
  | .closing :: _, _, [] => none
  | .bar :: ts, g, around => assemble ts g.nextBranch around
  | .repetition k :: ts, g, around =>
    match g.repeatLast? k with
    | some g' => assemble ts g' around
    | none => none

end OpenGroup

namespace Regex

/-- Read a regular expression, however deep and large it is. -/
def parse? (text : List Char) : Option Regex :=
  match Token.scan text [] with
  | some tokens => OpenGroup.assemble tokens {} []
  | none => none

end Regex
end PrefixPattern
