import PrefixPattern.Program

/-!
# The program

Collects what a run is given, runs it, and prints the outcome.
-/

set_option autoImplicit false

namespace PrefixPattern

/-- The fault that a failed look at a file stands for. -/
def readFaultOf (e : IO.Error) : ReadFault :=
  match e with
  | .noFileOrDirectory .. => .notFound
  | .inappropriateType .. => .notDirectory
  | .invalidArgument _ _ "name too long" => .nameTooLong
  | e => .described (toString e)

/-- Look at a path from a directory. -/
def lookAt (directory path : String) : IO (Except ReadFault Entry) := do
  if path.isEmpty then return .error .notFound
  let target := (← IO.FS.realPath directory) / path
  try
    match (← target.metadata).type with
    | .dir => return .ok .directory
    | _ => return .ok (.file (← IO.FS.readBinFile target))
  catch e => return .error (readFaultOf e)

/-- What lies at the paths at which a command looks. -/
def takeFiles (words : List String) (config : Option String) (directory : String) : IO Files := do
  let paths := match CommandLine.parse words config with
    | .ok c => c.paths directory
    | .error _ => []
  let found ← paths.mapM fun path => return (path, ← lookAt directory path)
  return fun path => (found.lookup path).getD (.error .notFound)

/-- The standard input, if the words ask for it. -/
def takeStdin (words : List String) (config : Option String) : IO ByteArray := do
  match CommandLine.parse words config with
  | .ok ⟨_, some (.compile args)⟩ =>
    if args.source.any (Path.isName "-") then (← IO.getStdin).readBinToEnd else return .empty
  | _ => return .empty

/-- Run the program with the words of a command line. -/
def runMain (words : List String) : IO UInt32 := do
  let config ← IO.getEnv "ROUTESET_CONFIG"
  let log ← IO.getEnv "ROUTESET_LOG"
  let directory := (← IO.currentDir).toString
  let files ← takeFiles words config directory
  let stdin ← takeStdin words config
  let s : Surroundings := { words, config, log, directory, files, stdin }
  let outcome := run s
  for effect in outcome.trace do
    IO.eprint (effect.onError s.filter)
    IO.print effect.onOutput
  return outcome.exit.toNat.toUInt32

end PrefixPattern

/-- The entry point of the program. -/
def main (words : List String) : IO UInt32 :=
  PrefixPattern.runMain words
