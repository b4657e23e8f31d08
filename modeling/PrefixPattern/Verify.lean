import PrefixPattern.Error
import PrefixPattern.Regex.Limits
import PrefixPattern.Regex.Matcher

/-!
# Checking a fragment against strings

A fragment is checked as it will be used: it is anchored, read as a regular expression, and matched
against every string that it should cover.
-/

set_option autoImplicit false

namespace PrefixPattern

/-- The strings that the expression does not match, in their order and as often as they occur. -/
def Regex.unmatched (r : Regex) (strings : List String) : List String :=
  let program := r.program
  strings.filter fun s => !program.search true [] s.toList

/-- Check that the anchored fragment matches every string. -/
def verify (fragment : String) (strings : List String) : Except Error Unit :=
  match Regex.read? (anchor fragment).toList with
  | none => .error (.internal .unreadablePattern)
  | some r =>
    match r.unmatched strings with
    | [] => .ok ()
    | missed => .error (.verify missed)

end PrefixPattern
