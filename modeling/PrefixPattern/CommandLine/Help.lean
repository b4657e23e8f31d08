import PrefixPattern.CommandLine.Basic

/-!
# Help and version texts
-/

set_option autoImplicit false

namespace PrefixPattern

/-- The options that every command has. -/
def commonHelp : String :=
  "  -C, --config <CONFIG>  Use specific config file [env: ROUTESET_CONFIG=]\n" ++
  "  -h, --help             Print help\n" ++
  "  -V, --version          Print version\n"

/-- The options of both commands for their output. -/
def outputHelp : String :=
  "  -o, --output <OUTPUT>  Output format [default: text] [possible values: text, json]\n"

/-- The help on the program or on one of its commands. -/
def helpText : Option CommandName → String
  | none =>
    "Compile sets of literal strings into prefix-factored route patterns\n\n" ++
    "Usage: routeset [OPTIONS] [COMMAND]\n\n" ++
    "Commands:\n" ++
    "  compile  Compile strings given on the command line or in a file\n" ++
    "  build    Compile named sets from routeset.toml\n" ++
    "  help     Print this message or the help of the given subcommand(s)\n\n" ++
    "Options:\n" ++ commonHelp ++ "\n"
  | some .compile =>
    "Compile strings given on the command line or in a file\n\n" ++
    "Usage: routeset compile [OPTIONS] [STRING]...\n\n" ++
    "Arguments:\n" ++
    "  [STRING]...  Strings to include in the set\n\n" ++
    "Options:\n" ++
    "      --from <FILE>      Read additional strings, one per line (\"-\" for stdin)\n" ++
    "      --wrap             Parenthesize the pattern even when it is a single chain\n" ++
    "      --allow-empty      Accept the empty string, making the whole pattern optional\n" ++
    "      --verify           Check the pattern against every input string\n" ++
    outputHelp ++ commonHelp
  | some .build =>
    "Compile named sets from routeset.toml\n\n" ++
    "Usage: routeset build [OPTIONS] [NAME]...\n\n" ++
    "Arguments:\n" ++
    "  [NAME]...  Sets to compile (default: all)\n\n" ++
    "Options:\n" ++
    "      --verify           Check each pattern against its members\n" ++
    outputHelp ++ commonHelp

/-- The version of the program or of one of its commands. -/
def versionText : Option CommandName → String
  | none => "routeset 0.1.0\n"
  | some name => "routeset-" ++ name.word ++ " 0.1.0\n"

end PrefixPattern
