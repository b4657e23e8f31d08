import PrefixPattern.Files
import PrefixPattern.Path

/-!
# Members from a file, one per line

## What is here

* `Line`, `cutLines` — the lines of a file, each with whether a line feed ended it.
* `Line.member?` — the member on a line.
* `parseLines` — all members of a file.
* `readMembers` — the same for the file at a path, or for the standard input.

A line that a line feed ends may have a carriage return in front of the line feed; after that one
more carriage return is dropped at the end of any line.  Empty lines are left out, and everything
else on a line belongs to the member.  A line that is not UTF-8 is an error, whatever the others are.
-/

set_option autoImplicit false

namespace PrefixPattern

/-- The bytes of a line, without the line feed that may have ended it. -/
structure Line where
  bytes : List UInt8
  terminated : Bool
  deriving DecidableEq, Repr

/-- The lines of a file.  The bytes of the current line and the lines before it are given the last
first. -/
def cutLines : List UInt8 → List UInt8 → List Line → List Line
  | [], [], done => done.reverse
  | [], b :: current, done => (⟨(b :: current).reverse, false⟩ :: done).reverse
  | b :: rest, current, done =>
    if b = 10 then cutLines rest [] (⟨current.reverse, true⟩ :: done)
    else cutLines rest (b :: current) done

/-- Drop one carriage return at the end. -/
def dropReturn (cs : List Char) : List Char :=
  if cs.getLast? = some '\r' then cs.dropLast else cs

/-- The member on a line of text. -/
def memberOfLine (terminated : Bool) (cs : List Char) : List Char :=
  dropReturn (if terminated then dropReturn cs else cs)

/-- The member on a line; nothing if the line is not UTF-8. -/
def Line.member? (l : Line) : Option (List Char) :=
  (String.fromUTF8? ⟨l.bytes.toArray⟩).map fun text => memberOfLine l.terminated text.toList

/-- The members of all lines, behind those in `done`, of which the last comes first. -/
def membersOfLines? : List Line → List String → Option (List String)
  | [], done => some done.reverse
  | l :: rest, done =>
    match l.member? with
    | none => none
    | some [] => membersOfLines? rest done
    | some member => membersOfLines? rest (String.ofList member :: done)

/-- The members of a file at a path. -/
def parseLines (content : ByteArray) (path : String) : Except Error (List String) :=
  match membersOfLines? (cutLines content.data.toList [] []) [] with
  | some members => .ok members
  | none => .error (.io path .invalidUtf8)

/-- The members of the file at a path, or of the standard input for `-`. -/
def readMembers (files : Files) (stdin : ByteArray) (path : String) :
    Except Error (List String) :=
  if Path.isName "-" path then parseLines stdin path
  else
    match files.read path with
    | .ok content => parseLines content path
    | .error e => .error e

end PrefixPattern
