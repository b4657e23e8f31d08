import PrefixPattern.CommandLine.Parser
import PrefixPattern.Discovery
import PrefixPattern.Lines
import PrefixPattern.Verify

/-!
# Runs of the program

A run is a function of what it is given: the words of the command line, two variables of the
environment, the files, the current directory and the standard input.

## What is here

* `Surroundings` — what a run is given.
* `compileChecked` — compiling strings and checking the fragment, which both commands share.
* `runCompile`, `runBuild` — the commands.
* `Outcome`, `run` — the exit code and the effects of a run in their order, and the program.
* `Outcome.notices`, `Outcome.output` — what was told, and what was printed.

A command prints when all that can fail has been done.
-/

set_option autoImplicit false

namespace PrefixPattern

/-- What a run is given. -/
structure Surroundings where
  words : List String
  /-- a configuration to use, from the environment -/
  config : Option String
  /-- what is logged, from the environment -/
  log : Option String
  /-- the current directory, as an absolute path -/
  directory : String
  files : Files
  stdin : ByteArray

/-! ## Compiling and checking -/

/-- Check the fragment of a pattern against strings, if that is asked for. -/
def checkPattern (check : Bool) (p : Pattern) (strings : List String) : Action Unit :=
  if check then do
    .ofExcept (verify p.fragment strings)
    .tell (.event (.verified p.fragment))
  else pure ()

/-- Compile strings, and check the fragment against them if that is asked for.  A compile error is
reported as `blame` says. -/
def compileChecked (strings : List String) (options : CompileOptions) (check : Bool)
    (blame : CompileError → Error) : Action Pattern := do
  let p ← .ofExcept ((Pattern.compile strings options).mapError blame)
  .tell (.event (.ofPattern p))
  checkPattern check p strings
  return p

/-- Print texts one behind the other. -/
def printAll (texts : List String) : Action Unit :=
  texts.forM fun s => .print (.text s)

/-! ## Strings from the command line -/

/-- The strings of a request: those on the command line, and behind them those of a file. -/
def gatherStrings (files : Files) (stdin : ByteArray) (args : CompileArgs) :
    Except Error (List String) :=
  match args.source with
  | none => .ok args.strings
  | some path =>
    match readMembers files stdin path with
    | .ok more => .ok (args.strings ++ more)
    | .error e => .error e

/-- Gather strings and compile them. -/
def compileStrings (files : Files) (stdin : ByteArray) (args : CompileArgs) : Action Pattern := do
  let strings ← .ofExcept (gatherStrings files stdin args)
  if strings = [] then .fail (.argument .noStrings)
  else compileChecked strings args.options args.verify .compile

/-- Compile strings and print the pattern. -/
def runCompile (files : Files) (stdin : ByteArray) (args : CompileArgs) : Action Unit := do
  let p ← compileStrings files stdin args
  printAll [args.output.pattern (.ofPattern none p)]

/-! ## Sets from a configuration -/

/-- The sets that are asked for: those that are named, or all if no name is given. -/
def selectSets (names : List String) (sets : NameMap SetConfig) : NameMap SetConfig :=
  sets.filter fun p => names.isEmpty || names.contains p.1

/-- Compile sets of the configuration at a path one after the other. -/
def compileSets (path : String) (check : Bool) : NameMap SetConfig → Action (List Report)
  | [] => pure []
  | (name, s) :: rest => do
    .tell (.event (.compilingSet name))
    let p ← compileChecked s.members s.options check fun e => .config (.badSet name e) (some path)
    let others ← compileSets path check rest
    return .ofPattern (some name) p :: others

/-- Compile the sets of a configuration that are asked for. -/
def buildConfig (path : String) (config : Config) (args : BuildArgs) : Action (List Report) :=
  match args.names.find? fun name => (config.sets.find? name).isNone with
  | some name => .fail (.argument (.unknownSet name))
  | none => compileSets path args.verify (selectSets args.names config.sets)

/-- Find the path of the configuration, which must be there. -/
def findPath (files : Files) (directory : String) (requested : Option String) : Action String := do
  let found ← .ofExcept (resolveConfig files requested directory)
  (discoveryEvents requested found).forM fun e => .tell (.event e)
  match found with
  | none => .fail (.config .noneFound none)
  | some path => return path

/-- Find the configuration and compile its sets. -/
def buildSets (files : Files) (directory : String) (requested : Option String) (args : BuildArgs) :
    Action (List Report) := do
  let path ← findPath files directory requested
  .tell (.event (.loadingConfig path))
  let config ← Config.load files path
  buildConfig path config args

/-- Compile the sets of a configuration and print the patterns. -/
def runBuild (files : Files) (directory : String) (requested : Option String) (args : BuildArgs) :
    Action Unit := do
  let reports ← buildSets files directory requested args
  printAll (args.output.pieces reports)

/-! ## The program -/

/-- How a run ends, and all that was seen of it until then. -/
structure Outcome where
  exit : ExitCode
  trace : List Effect
  deriving DecidableEq, Repr

namespace Outcome

/-- The outcome of a command.  If it fails, this is told in the end. -/
def ofAction (x : Action Unit) : Outcome :=
  match x.result with
  | .ok () => ⟨.success, x.trace⟩
  | .error e => ⟨e.exitCode, x.trace ++ [.tell (.failure e)]⟩

/-- The outcome of a command line that makes no request. -/
def ofInterruption : Interruption → Outcome
  | .help topic => ⟨.success, [.print (.help topic)]⟩
  | .version topic => ⟨.success, [.print (.version topic)]⟩
  | .usage fault => ⟨.configError, [.tell (.usage fault)]⟩

/-- What was told, in order. -/
def notices (o : Outcome) : List Notice :=
  o.trace.filterMap Effect.notice?

/-- What was printed, as one output. -/
def output (o : Outcome) : Option Output :=
  Output.join? (o.trace.filterMap Effect.output?)

/-- All that was printed. -/
def printed (o : Outcome) : String :=
  String.join (o.trace.map Effect.onOutput)

/-- All that was told, where the filter selects what is logged. -/
def told (o : Outcome) (filter : Log.Filter) : String :=
  String.join (o.trace.map (Effect.onError filter))

end Outcome

/-- Run the program. -/
def run (s : Surroundings) : Outcome :=
  match CommandLine.parse s.words s.config with
  | .error i => .ofInterruption i
  | .ok ⟨_, none⟩ => ⟨.success, [.print (.help none)]⟩
  | .ok ⟨_, some (.compile args)⟩ => .ofAction (runCompile s.files s.stdin args)
  | .ok ⟨config, some (.build args)⟩ => .ofAction (runBuild s.files s.directory config args)

/-- The filter for the log; without a readable one nothing is logged. -/
def Surroundings.filter (s : Surroundings) : Log.Filter :=
  (s.log.bind Log.Filter.parse?).getD []

/-- The paths at which a command looks. -/
def CommandLine.paths (c : CommandLine) (directory : String) : List String :=
  match c.command with
  | none => []
  | some (.compile args) => args.source.toList
  | some (.build _) =>
    match c.config with
    | some path => [path]
    | none =>
      (Path.ancestors directory).flatMap fun d => [Path.join d configFileName, Path.join d ".git"]

end PrefixPattern
