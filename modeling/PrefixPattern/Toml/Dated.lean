import PrefixPattern.Toml.DateTime
import PrefixPattern.Toml.Value

/-!
# Tables that stand for dates

A date is the same thing as a table that holds its text under a key of its own, so a table whose
first key is that one has to be a date.

## What is here

* `dateTimeKey` — the key.
* `Value.isSound` — every table in a value that begins with the key is a date.
-/

set_option autoImplicit false

namespace PrefixPattern
namespace Toml

/-- The key under which a table holds the text of a date. -/
def dateTimeKey : String := "$__toml_private_datetime"

/-- The value is the text of a date. -/
def Value.isDateText : Value → Bool
  | .string s => isDateTime s.toList
  | _ => false

mutual

/-- Every table in the value that begins with the key of a date is a date. -/
def Value.isSound : Value → Bool
  | .array items => areSound items
  | .table ((key, v) :: fields) =>
    if key = dateTimeKey then v.isDateText && fields.isEmpty else v.isSound && fieldsAreSound fields
  | _ => true

/-- The same of all values in a list. -/
def areSound : List Value → Bool
  | [] => true
  | v :: items => v.isSound && areSound items

/-- The same of all values of a table. -/
def fieldsAreSound : List (String × Value) → Bool
  | [] => true
  | (_, v) :: fields => v.isSound && fieldsAreSound fields

end

end Toml
end PrefixPattern
