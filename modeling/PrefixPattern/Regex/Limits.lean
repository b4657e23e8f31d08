import PrefixPattern.Regex.Automaton.Size
import PrefixPattern.Regex.Parser

/-!
# Limits of regular expressions

An expression can only be used if it is not nested too deep and its automaton is not too large.
-/

set_option autoImplicit false

namespace PrefixPattern
namespace Regex

/-- How deep an expression may be nested. -/
def nestingLimit : Nat := 250

/-- How large the automaton of an expression may be, in bytes. -/
def sizeLimit : Nat := 10 * 1024 * 1024

/-- The expression is within the limits. -/
def isUsable (r : Regex) : Bool :=
  r.fits nestingLimit && r.automatonSize ≤ sizeLimit

/-- Read a regular expression that is within the limits. -/
def read? (text : List Char) : Option Regex :=
  match parse? text with
  | some r => if r.isUsable then some r else none
  | none => none

end Regex
end PrefixPattern
