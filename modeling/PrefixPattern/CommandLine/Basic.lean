import PrefixPattern.Report

/-!
# Command lines: what the program is asked to do

## What is here

* `CompileArgs`, `BuildArgs`, `Command`, `CommandLine` — the requests that a command line can make.
* `UsageFault` — what can be wrong with a command line, and its wording.
* `Interruption` — why a command line makes no request: it asks for help or for the version, or it
  has a fault.
-/

set_option autoImplicit false

namespace PrefixPattern

/-- The commands. -/
inductive CommandName where
  | compile
  | build
  deriving DecidableEq, Repr

/-- The word for a command. -/
def CommandName.word : CommandName → String
  | compile => "compile"
  | build => "build"

/-- A request to compile strings. -/
structure CompileArgs where
  strings : List String := []
  /-- a file with more strings -/
  source : Option String := none
  wrap : Bool := false
  allowEmpty : Bool := false
  verify : Bool := false
  output : OutputFormat := .text
  deriving DecidableEq, Repr

/-- How the strings are compiled. -/
def CompileArgs.options (a : CompileArgs) : CompileOptions where
  forceWrap := a.wrap
  emptyMember := .ofAllow a.allowEmpty

/-- A request to compile sets of a configuration: those that are named, or all of them. -/
structure BuildArgs where
  names : List String := []
  verify : Bool := false
  output : OutputFormat := .text
  deriving DecidableEq, Repr

/-- A request. -/
inductive Command where
  | compile (args : CompileArgs)
  | build (args : BuildArgs)
  deriving DecidableEq, Repr

/-- The content of a command line. -/
structure CommandLine where
  /-- the configuration to use -/
  config : Option String
  command : Option Command
  deriving DecidableEq, Repr

/-- What is wrong with a command line. -/
inductive UsageFault where
  | unknownArgument (word : String)
  /-- a value is missing, empty, or none of the possible ones -/
  | invalidValue (option : String)
  /-- a value is given where none is taken -/
  | tooManyValues (option : String)
  /-- an option is given again -/
  | argumentConflict (option : String)
  | invalidSubcommand (word : String)
  deriving DecidableEq, Repr

/-- The wording of a usage fault. -/
def UsageFault.message : UsageFault → String
  | unknownArgument word => "error: unexpected argument '" ++ word ++ "' found"
  | invalidValue option => "error: a value is required for '" ++ option ++ "' but none was supplied"
  | tooManyValues option => "error: unexpected value for '" ++ option ++ "' found; no more were expected"
  | argumentConflict option => "error: the argument '" ++ option ++ "' cannot be used multiple times"
  | invalidSubcommand word => "error: unrecognized subcommand '" ++ word ++ "'"

/-- Why a command line makes no request. -/
inductive Interruption where
  /-- help is asked for, on the program or on one of its commands -/
  | help (topic : Option CommandName)
  /-- the version is asked for, of the program or of one of its commands -/
  | version (topic : Option CommandName)
  | usage (fault : UsageFault)
  deriving DecidableEq, Repr

end PrefixPattern
