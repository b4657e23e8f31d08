import PrefixPattern.Regex.Basic

/-!
# Programs for regular expressions

To look for matches of an expression it is turned into a program: a list of instructions that take
one character, test where in the text they are, or go on at one or two other places.  Running it means
following all ways at once.

## What is here

* `Instruction`, `Program` — the instructions, by their addresses.
* `Regex.codeLength` — how many instructions an expression takes.
* `Regex.emit` — the instructions of an expression, behind those of a program; `Regex.program` is the
  program of an expression, in which its end is the first address without an instruction.
-/

set_option autoImplicit false

namespace PrefixPattern

/-- One step of a program.  Every instruction names the address at which to go on. -/
inductive Instruction where
  /-- take this character -/
  | lit (c : Char) (next : Nat)
  /-- take any character that is not a line feed -/
  | any (next : Nat)
  /-- go on at the start of the text only -/
  | start (next : Nat)
  /-- go on at the end of the text only -/
  | stop (next : Nat)
  | jump (next : Nat)
  /-- go on at both addresses -/
  | fork (next other : Nat)
  deriving DecidableEq, Repr, Inhabited

/-- The instructions of a program. -/
abbrev Program := Array Instruction

namespace Regex

/-- How many instructions an expression takes, and `n` more. -/
def codeLength : Regex → Nat → Nat
  | empty, n | lit _, n | any, n | start, n | stop, n => n + 1
  | group _ r, n => codeLength r n
  | rep _ r, n => codeLength r (n + 1)
  | seq r s, n => codeLength s (codeLength r n)
  | alt r s, n => codeLength s (codeLength r (n + 1))

/-- The instructions of an expression that is followed by what stands at the address `next`, behind
the instructions `code`. -/
def emit : Regex → Nat → Program → Program
  | empty, next, code => code.push (.jump next)
  | lit c, next, code => code.push (.lit c next)
  | any, next, code => code.push (.any next)
  | start, next, code => code.push (.start next)
  | stop, next, code => code.push (.stop next)
  | group _ r, next, code => emit r next code
  | rep .optional r, next, code => emit r next (code.push (.fork (code.size + 1) next))
  | rep .star r, next, code => emit r code.size (code.push (.fork (code.size + 1) next))
  | rep .plus r, next, code =>
    let first := code.size
    (emit r (codeLength r first) code).push (.fork first next)
  | seq r s, next, code => emit s next (emit r (codeLength r code.size) code)
  | alt r s, next, code =>
    emit s next (emit r next (code.push (.fork (code.size + 1) (codeLength r (code.size + 1)))))

/-- The program of an expression. -/
def program (r : Regex) : Program :=
  emit r (codeLength r 0) #[]

end Regex
end PrefixPattern
