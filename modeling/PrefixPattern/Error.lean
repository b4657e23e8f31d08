import PrefixPattern.Pattern

/-!
# Errors, their wording and their exit codes

An error names its cause; the wording is a function of the cause.

## What is here

* `ConfigFault`, `ArgumentFault`, `ReadFault`, `InternalFault` — what can be wrong with a
  configuration, with the arguments, with a file, and with the program itself.
* `Error` — a fault and what it concerns, with `Error.message` and `Error.exitCode`.
* `ExitCode` — the four ways in which a run can end.
-/

set_option autoImplicit false

namespace PrefixPattern

/-- What is wrong with a configuration. -/
inductive ConfigFault where
  /-- the text is not a document, or a known field has a value of another kind -/
  | malformed
  | missingVersion
  | unsupportedVersion (version : Int)
  /-- the file that was asked for does not exist -/
  | fileNotFound (path : String)
  /-- no file was asked for, and none was found -/
  | noneFound
  /-- a set of the configuration cannot be compiled -/
  | badSet (name : String) (cause : CompileError)
  /-- a fault that a caller describes -/
  | described (message : String)
  deriving DecidableEq, Repr

/-- The only version of the configuration format. -/
def supportedVersion : Int := 1

/-- The name of the configuration file. -/
def configFileName : String := "routeset.toml"

/-- The wording of a configuration fault. -/
def ConfigFault.message : ConfigFault → String
  | malformed => "not a valid configuration document"
  | missingVersion => "missing required field: version"
  | unsupportedVersion v =>
    "unsupported config version " ++ toString v ++ " (supported: " ++ toString supportedVersion ++
      ")\n  Upgrade routeset to use this config."
  | fileNotFound path => "config file not found: " ++ path
  | noneFound => "no " ++ configFileName ++ " found"
  | badSet name cause => "set `" ++ name ++ "`: " ++ cause.message
  | described message => message

/-- What is wrong with the arguments of a command. -/
inductive ArgumentFault where
  | noStrings
  | unknownSet (name : String)
  /-- a fault that a caller describes -/
  | described (message : String)
  deriving DecidableEq, Repr

/-- The wording of an argument fault. -/
def ArgumentFault.message : ArgumentFault → String
  | noStrings => "no strings given (pass them as arguments or use --from)"
  | unknownSet name => "unknown set `" ++ name ++ "`"
  | described message => message

/-- Why a file could not be read. -/
inductive ReadFault where
  | notFound
  /-- something on the way to the file is not a directory -/
  | notDirectory
  | isDirectory
  | nameTooLong
  /-- the path has a character in it that no path can have -/
  | containsNul
  | invalidUtf8
  /-- a fault that the system describes -/
  | described (message : String)
  deriving DecidableEq, Repr

/-- The wording of a read fault. -/
def ReadFault.message : ReadFault → String
  | notFound => "No such file or directory (os error 2)"
  | notDirectory => "Not a directory (os error 20)"
  | isDirectory => "Is a directory (os error 21)"
  | nameTooLong => "File name too long (os error 36)"
  | containsNul => "file name contained an unexpected NUL byte"
  | invalidUtf8 => "stream did not contain valid UTF-8"
  | described message => message

/-- What the program itself does wrong. -/
inductive InternalFault where
  /-- the anchored fragment is no regular expression -/
  | unreadablePattern
  /-- a fault that a caller describes -/
  | described (message : String)
  deriving DecidableEq, Repr

/-- The wording of an internal fault. -/
def InternalFault.message : InternalFault → String
  | unreadablePattern => "generated pattern does not parse: not a regular expression"
  | described message => message

/-- An error of the library. -/
inductive Error where
  | config (fault : ConfigFault) (path : Option String)
  | argument (fault : ArgumentFault)
  | io (path : String) (fault : ReadFault)
  | compile (cause : CompileError)
  /-- the pattern does not match these strings -/
  | verify (unmatched : List String)
  | internal (fault : InternalFault)
  deriving DecidableEq, Repr

/-- The wording of an error. -/
def Error.message : Error → String
  | config fault _ => "config error: " ++ fault.message
  | argument fault => "argument error: " ++ fault.message
  | io path fault => "io error: " ++ path ++ ": " ++ fault.message
  | compile cause => "compile error: " ++ cause.message
  | verify unmatched =>
    "verification failed: pattern does not match " ++ ", ".intercalate unmatched
  | internal fault => "internal error: " ++ fault.message

/-- How a run ends. -/
inductive ExitCode where
  | success
  | verifyFailed
  | configError
  | internalError
  deriving DecidableEq, Repr

/-- The number that the process ends with. -/
def ExitCode.toNat : ExitCode → Nat
  | success => 0
  | verifyFailed => 1
  | configError => 2
  | internalError => 3

/-- The exit code of a run that ends with an error. -/
def Error.exitCode : Error → ExitCode
  | config .. | argument _ | compile _ => .configError
  | verify _ => .verifyFailed
  | io .. | internal _ => .internalError

end PrefixPattern
