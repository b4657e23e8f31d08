/-!
# TOML values

A document is a table, and a table holds values under keys.

The numbers and the dates that a document holds besides integers are checked when it is read, but
what they amount to is not kept: no rule of a configuration asks for it.
-/

set_option autoImplicit false

namespace PrefixPattern
namespace Toml

/-- A TOML value. -/
inductive Value where
  | string (s : String)
  | integer (n : Int)
  | float
  | boolean (b : Bool)
  /-- a date, a time, or both -/
  | dateTime
  | array (items : List Value)
  | table (fields : List (String × Value))
  deriving Inhabited, Repr

/-- The fields of a table; every key occurs once. -/
abbrev Table := List (String × Value)

end Toml
end PrefixPattern
