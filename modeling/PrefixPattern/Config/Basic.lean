import PrefixPattern.Action
import PrefixPattern.NameMap
import PrefixPattern.Toml.Dated
import PrefixPattern.Toml.Document

/-!
# Configurations: named string sets in a file

A configuration is a TOML document with a `version` and a table `sets`, in which every field is the
table of one set.

## What is here

* `SetConfig`, `Config` — a set and a configuration.
* `Config.contentOf` — the sets of a document, with all keys that are not known.
* `Config.ofTable` — the configuration that a document holds.  The version is looked at first, and
  the sets only if it is the supported one; then it is warned about unknown keys.
* `Config.read` — the same from a text.
* `Config.parse` — what reading a text yields, together with its warnings.

It is warned about the keys of the document in their order, and then about those of every set while
the sets are taken over one after the other.
-/

set_option autoImplicit false

namespace PrefixPattern

/-- A string set as it is configured. -/
structure SetConfig where
  members : List String := []
  wrap : Bool := false
  allowEmpty : Bool := false
  deriving DecidableEq, Repr, Inhabited

/-- How the set is compiled. -/
def SetConfig.options (s : SetConfig) : CompileOptions where
  forceWrap := s.wrap
  emptyMember := .ofAllow s.allowEmpty

/-- A configuration. -/
structure Config where
  version : Int
  sets : NameMap SetConfig
  deriving Inhabited

/-! ## Fields -/

/-- The field of a key, or the default where there is none; nothing where its kind is wrong. -/
def Toml.Value.field? {α : Type} (read? : Toml.Value → Option α) (default : α) (key : String)
    (t : Toml.Table) : Option α :=
  match t.lookup key with
  | none => some default
  | some v => read? v

/-- A truth value. -/
def Toml.Value.boolean? : Toml.Value → Option Bool
  | boolean b => some b
  | _ => none

/-- A string. -/
def Toml.Value.text? : Toml.Value → Option String
  | string s => some s
  | _ => none

/-- An array of strings. -/
def Toml.Value.texts? : Toml.Value → Option (List String)
  | array items => items.mapM text?
  | _ => none

/-- The keys of a table that are not in a list, in ascending order; nothing where one of their values
is not sound. -/
def Toml.unknownKeys? (known : List String) (t : Toml.Table) : Option (List String) :=
  let unknown := t.filter fun p => !known.contains p.1
  if Toml.fieldsAreSound unknown then some (NameMap.ofList unknown).names else none

/-! ## Sets -/

/-- The fields of the table of a set; a date is a table with its text in it. -/
def SetConfig.table? : Toml.Value → Option Toml.Table
  | .table fields => some fields
  | .dateTime => some [(Toml.dateTimeKey, .dateTime)]
  | _ => none

/-- The set that a table holds. -/
def SetConfig.ofTable? (t : Toml.Table) : Option SetConfig := do
  let members ← Toml.Value.field? Toml.Value.texts? [] "members" t
  let wrap ← Toml.Value.field? Toml.Value.boolean? false "wrap" t
  let allowEmpty ← Toml.Value.field? Toml.Value.boolean? false "allow_empty" t
  return { members, wrap, allowEmpty }

/-- The set that a value holds, with the keys that are not known. -/
def SetConfig.ofValue? (v : Toml.Value) : Option (SetConfig × List String) := do
  let t ← table? v
  let s ← ofTable? t
  let unknown ← Toml.unknownKeys? knownSetKeys t
  return (s, unknown)

/-- All sets of a table, with the unknown keys of each. -/
def setsOfTable? : Toml.Table → Option (List (String × SetConfig × List String))
  | [] => some []
  | (name, v) :: rest => do
    let s ← SetConfig.ofValue? v
    let others ← setsOfTable? rest
    return (name, s) :: others

/-- All sets of a value. -/
def setsOfValue? : Toml.Value → Option (List (String × SetConfig × List String))
  | .table fields => setsOfTable? fields
  | _ => none

/-! ## Configurations -/

namespace Config

/-- The keys of a document. -/
def knownKeys : List String := ["version", "sets"]

/-- The version of a document, if it is the supported one. -/
def versionOf (t : Toml.Table) : Except ConfigFault Int :=
  match t.lookup "version" with
  | none => .error .missingVersion
  | some (.integer v) => if v = supportedVersion then .ok v else .error (.unsupportedVersion v)
  | some _ => .error .malformed

/-- The sets of a document with the unknown keys of each, in the order of their names, and all keys
at the top besides `sets`. -/
def contentOf (t : Toml.Table) :
    Except ConfigFault (NameMap (SetConfig × List String) × List String) :=
  match Toml.Value.field? setsOfValue? [] "sets" t, Toml.unknownKeys? ["sets"] t with
  | some sets, some keys => .ok (NameMap.ofList sets, keys)
  | _, _ => .error .malformed

/-- Warn about the unknown ones of the keys at the top. -/
def warnTop (path : String) (keys : List String) : Action Unit :=
  keys.forM fun key => if key ∈ knownKeys then pure () else .warn path (.unknownKey key)

/-- Warn about the unknown keys of a set. -/
def warnSet (path name : String) (unknown : List String) : Action Unit :=
  unknown.forM fun key => .warn path (.unknownSetKey name key)

/-- Take over the sets one after the other, each with warnings about its unknown keys. -/
def takeSets (path : String) : NameMap (SetConfig × List String) → Action (NameMap SetConfig)
  | [] => pure []
  | (name, s, unknown) :: rest => do
    warnSet path name unknown
    let others ← takeSets path rest
    return (name, s) :: others

/-- What concerns the configuration at a path, or the error that it has a fault. -/
def orFault {α : Type} (path : String) (r : Except ConfigFault α) : Action α :=
  .ofExcept (r.mapError fun fault => .config fault (some path))

/-- The configuration that the document at a path holds. -/
def ofTable (path : String) (t : Toml.Table) : Action Config := do
  let version ← orFault path (versionOf t)
  let (sets, keys) ← orFault path (contentOf t)
  warnTop path keys
  let sets ← takeSets path sets
  return ⟨version, sets⟩

/-- Read the text of the file at a path. -/
def read (content path : String) : Action Config :=
  match Toml.parse? content with
  | none => .fail (.config .malformed (some path))
  | some t => ofTable path t

/-- The configuration in the text of the file at a path, with all warnings. -/
def parse (content path : String) : Except Error (Config × List Warning) :=
  (read content path).withWarnings

end Config
end PrefixPattern
