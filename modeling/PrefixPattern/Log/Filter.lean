import PrefixPattern.Log.Basic
import PrefixPattern.Regex.Parser
import PrefixPattern.Text.Alphanumeric
import PrefixPattern.Text.Space

/-!
# Filters: which events are shown

A filter is a comma list of directives.  A directive has a target, a condition in brackets, and a
level behind `=`, each of which may be missing; a word that names a level is the level of all
targets.  Of the directives that concern an event the most specific one decides, and of two that are
equally specific the later one.

## What is here

* `Parts` — the form of a directive.
* `Condition`, `Directive` — what a directive says.
* `Filter.parse?`, `Filter.shows` — reading and asking a filter.
-/

set_option autoImplicit false

namespace PrefixPattern
namespace Log

/-! ## The form of a directive -/

/-- The parts of a directive as they are written: a target, in brackets the name of a span and in
braces a field, and a level. -/
structure Parts where
  target : List Char
  span : Option (List Char)
  field : Option (List Char)
  level : Option (List Char)
  deriving DecidableEq, Repr

namespace Parts

/-- A directive that has no brackets begins with this character. -/
def isFirst (c : Char) : Bool :=
  c == '-' || c == ':' || c == '_' || isAlphanumeric c

/-- The end of a directive: blanks, or a level. -/
def readLevel? (p : Parts) : List Char → Option Parts
  | '=' :: level => some { p with level := some level }
  | rest => if rest.all isSpace then some p else none

/-- What follows the opening bracket. -/
def readBrackets? (target cs : List Char) : Option Parts :=
  let span := cs.takeWhile fun c => c ≠ ']' ∧ c ≠ '\x7b'
  match cs.drop span.length with
  | ']' :: rest => readLevel? ⟨target, some span, none, none⟩ rest
  | '\x7b' :: rest =>
    let field := rest.takeWhile (· ≠ '\x7d')
    match rest.drop field.length with
    | '\x7d' :: ']' :: rest =>
      if field = [] then none
      else readLevel? ⟨target, if span = [] then none else some span, some field, none⟩ rest
    | _ => none
  | _ => none

/-- The parts of a directive that has no blanks in front. -/
def read? : List Char → Option Parts
  | [] => none
  | '[' :: rest => readBrackets? [] rest
  | c :: cs =>
    if isFirst c then
      let target := (c :: cs).takeWhile fun c => c ≠ '=' ∧ c ≠ '['
      match (c :: cs).drop target.length with
      | [] => some ⟨target, none, none, none⟩
      | '[' :: rest => readBrackets? target rest
      | _ :: level => some ⟨target, none, none, some level⟩
    else none

end Parts

/-! ## What a directive says -/

/-- What a directive asks of an event besides its target. -/
inductive Condition where
  | always
  /-- the event has a field of this name -/
  | hasField (name : String)
  /-- no event is meant: there are no spans here, and fields are not compared with values -/
  | never
  deriving DecidableEq, Repr

/-- Which events are shown among those whose target begins with `target` and which meet a condition:
those up to a level, as its number, and none for zero. -/
structure Directive where
  target : String
  condition : Condition
  level : Nat
  deriving DecidableEq, Repr

/-- The directives of a filter. -/
abbrev Filter := List Directive

/-- The number that a text stands for, with or without a plus sign. -/
def number? (cs : List Char) : Option Nat :=
  let digits := match cs with
    | '+' :: ds => ds
    | ds => ds
  if digits ≠ [] ∧ digits.all Char.isDigit then
    some (digits.foldl (fun n d => 10 * n + (d.toNat - '0'.toNat)) 0)
  else none

/-- The number of a level that is written as a word or as a number. -/
def levelNumber? (word : List Char) : Option Nat :=
  match number? word with
  | some n => if n ≤ Level.trace.toNat then some n else none
  | none =>
    match (String.ofList word).toLower with
    | "off" => some 0
    | "error" => some Level.error.toNat
    | "warn" => some Level.warn.toNat
    | "info" => some Level.info.toNat
    | "debug" => some Level.debug.toNat
    | "trace" => some Level.trace.toNat
    | _ => none

/-- The number of the level behind `=`; without a word everything is shown. -/
def levelBehind? (word : List Char) : Option Nat :=
  if word = [] then some Level.trace.toNat else levelNumber? word

/-- A field may be compared with a number, or with a regular expression. -/
def isFieldValue (cs : List Char) : Bool :=
  (number? cs).isSome || (Regex.parse? cs).isSome

/-- The condition of a span and a field. -/
def Condition.ofParts? (span field : Option (List Char)) : Option Condition :=
  match field with
  | none => some (if span.isSome then .never else .always)
  | some cs =>
    let name := cs.takeWhile (· ≠ '=')
    match cs.drop name.length with
    | [] => some (if span.isSome then .never else .hasField (String.ofList name))
    | _ :: value => if isFieldValue (value.takeWhile (· ≠ '=')) then some .never else none

namespace Directive

/-- What the parts of a directive say. -/
def ofParts? (p : Parts) : Option Directive := do
  let condition ← Condition.ofParts? p.span p.field
  match p.level with
  | some word => return ⟨String.ofList p.target, condition, ← levelBehind? word⟩
  | none =>
    match condition, levelNumber? p.target with
    | .always, some level => return ⟨"", .always, level⟩
    | _, _ => return ⟨String.ofList p.target, condition, Level.trace.toNat⟩

/-- Read one directive.  With blanks in front it concerns no event, and it cannot have a level. -/
def parse? (word : String) : Option Directive :=
  let cs := word.toList
  let body := cs.dropWhile isSpace
  match Parts.read? body with
  | none => none
  | some p =>
    if body = cs then ofParts? p
    else if p.level.isSome then none
    else some ⟨word, .never, Level.trace.toNat⟩

/-- The directive concerns the event. -/
def concerns (d : Directive) (e : Event) : Bool :=
  e.target.startsWith d.target &&
    match d.condition with
    | .always => true
    | .hasField name => e.fields.contains name
    | .never => false

/-- The directive is at least as specific as the other one: its target is longer, or else it asks
for a field, and for the one whose name is greater. -/
def isAsSpecific (d other : Directive) : Bool :=
  if d.target.length = other.target.length then
    match d.condition, other.condition with
    | .hasField a, .hasField b => b ≤ a
    | .hasField _, _ => true
    | _, .hasField _ => false
    | _, _ => true
  else other.target.length < d.target.length

end Directive

namespace Filter

/-- Read a filter; empty parts of the list do not count. -/
def parse? (text : String) : Option Filter :=
  ((text.splitOn ",").filter (· ≠ "")).mapM Directive.parse?

/-- The more specific of two directives, the later one if they are equally specific. -/
def moreSpecific (best : Option Directive) (d : Directive) : Option Directive :=
  match best with
  | some b => if d.isAsSpecific b then some d else some b
  | none => some d

/-- The filter shows the event. -/
def shows (f : Filter) (e : Event) : Bool :=
  match (f.filter fun d => d.concerns e).foldl moreSpecific none with
  | some d => e.level.toNat ≤ d.level
  | none => false

end Filter
end Log
end PrefixPattern
