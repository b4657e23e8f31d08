import PrefixPattern.Pattern
import PrefixPattern.Text.Quoted

/-!
# The log: what happens during a run

## What is here

* `Log.Level`, `Log.Event` — the events, each with its level, its target, its fields and its
  wording.
* `Log.shown` — a text as the log shows it: characters that a terminal would obey are written by
  their numbers.
* `Log.Event.line` — an event as it is printed.
-/

set_option autoImplicit false

namespace PrefixPattern
namespace Log

/-- How important an event is, the most important level first. -/
inductive Level where
  | error
  | warn
  | info
  | debug
  | trace
  deriving DecidableEq, Repr

namespace Level

/-- The level as its number from one on. -/
def toNat : Level → Nat
  | error => 1
  | warn => 2
  | info => 3
  | debug => 4
  | trace => 5

/-- The level as it is printed. -/
def label : Level → String
  | error => "ERROR"
  | warn => "WARN"
  | info => "INFO"
  | debug => "DEBUG"
  | trace => "TRACE"

end Level

/-- Something that happens during a run. -/
inductive Event where
  /-- a string set was compiled; the length of the fragment is in bytes -/
  | compiled (members nodes length : Nat)
  | verified (fragment : String)
  | unknownKey (key : String)
  | unknownSetKey (key set : String)
  | foundConfig (path : String)
  | loadingConfig (path : String)
  | compilingSet (name : String)
  deriving DecidableEq, Repr

namespace Event

/-- The level of an event. -/
def level : Event → Level
  | compiled .. | foundConfig _ | loadingConfig _ => .debug
  | verified _ | compilingSet _ => .trace
  | unknownKey _ | unknownSetKey .. => .warn

/-- The part of the program that an event belongs to. -/
def target : Event → String
  | compiled .. => "routeset::pattern::compile"
  | verified _ => "routeset::pattern::verify"
  | unknownKey _ | unknownSetKey .. => "routeset::config::suggest"
  | foundConfig _ => "routeset::discovery"
  | loadingConfig _ | compilingSet _ => "routeset::cmd_build"

/-- The names of what an event reports. -/
def fields : Event → List String
  | compiled .. => ["message", "members", "nodes", "len"]
  | _ => ["message"]

/-- The wording of an event. -/
def message : Event → String
  | compiled members nodes length =>
    "compiled string set members=" ++ toString members ++ " nodes=" ++ toString nodes ++ " len=" ++
      toString length
  | verified fragment => "verified pattern " ++ fragment
  | unknownKey key => "unknown config key " ++ key
  | unknownSetKey key set => "unknown key " ++ key ++ " in set " ++ set
  | foundConfig path => "found config at " ++ path
  | loadingConfig path => "loading config from " ++ path
  | compilingSet name => "compiling set " ++ name

end Event

/-! ## Printing -/

/-- A character that a terminal would obey is written by its number, every other one as it is. -/
def shownChar (c : Char) : String :=
  if c = '\x07' ∨ c = '\x08' ∨ c = '\x0c' ∨ c = '\x1b' ∨ c = '\x7f' then
    "\\x" ++ (if c.toNat < 16 then "0" else "") ++ hexOfChar c
  else if 128 ≤ c.toNat ∧ c.toNat < 160 then "\\u\x7b" ++ hexOfChar c ++ "\x7d"
  else c.toString

/-- A text as the log shows it. -/
def shown (s : String) : String :=
  String.join (s.toList.map shownChar)

/-- An event as it is printed, without the end of the line. -/
def Event.line (e : Event) : String :=
  e.level.label ++ " " ++ shown e.message

/-- The event of a compilation. -/
def Event.ofPattern (p : Pattern) : Event :=
  .compiled p.members p.nodes p.fragment.utf8ByteSize

end Log
end PrefixPattern
