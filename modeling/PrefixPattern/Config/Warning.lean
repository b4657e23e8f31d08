import PrefixPattern.Config.Suggestion
import PrefixPattern.Log.Basic

/-!
# Warnings about keys that are not known

A configuration may hold keys that are not known.  Each of them is warned about, in the log and in a
message of its own.
-/

set_option autoImplicit false

namespace PrefixPattern

/-- A key that is not known. -/
inductive Warning where
  | unknownKey (key : String)
  | unknownSetKey (set key : String)
  deriving DecidableEq, Repr

namespace Warning

/-- The event of a warning. -/
def event : Warning → Log.Event
  | unknownKey key => .unknownKey key
  | unknownSetKey set key => .unknownSetKey key set

/-- The wording of a warning about the file at a path. -/
def message (path : String) : Warning → String
  | unknownKey key =>
    "routeset: warning: " ++ path ++ ": unrecognized field `" ++ key ++ "` (ignored)"
  | unknownSetKey set key =>
    "routeset: warning: " ++ path ++ ": unknown key `" ++ key ++ "` in set `" ++ set ++ "`" ++
      match suggestSetKey? key with
      | some known => ". Did you mean `" ++ known ++ "`?"
      | none => "\n  Valid keys: " ++ ", ".intercalate knownSetKeys

end Warning
end PrefixPattern
