import PrefixPattern.CommandLine.Basic

/-!
# Reading command lines

The words of a command line are read from left to right, first those in front of the command and
then those behind it.

## What is here

* `Switch` — the options and flags, with where each is known.
* `Given` — what was read so far.  An option whose value is the next word is *pending* until another
  option or positional word comes, or the words end; only then is its value looked at.
* `readSwitch` — one word that begins with a dash.
* `readArgs`, `readTop` — the words behind the command and in front of it.
* `CommandLine.parse` — a whole command line.  The configuration may also come from the environment;
  it is then used where the words give none.
-/

set_option autoImplicit false

namespace PrefixPattern

/-! ## Options and flags -/

/-- The options that take a value. -/
inductive ValueOption where
  | config
  | output
  | source
  deriving DecidableEq, Repr

/-- An option as it is named in messages. -/
def ValueOption.label : ValueOption → String
  | config => "--config <CONFIG>"
  | output => "--output <OUTPUT>"
  | source => "--from <FILE>"

/-- The options that take no value. -/
inductive Flag where
  | wrap
  | allowEmpty
  | verify
  | help
  | version
  deriving DecidableEq, Repr

/-- A flag as it is named in messages. -/
def Flag.label : Flag → String
  | wrap => "--wrap"
  | allowEmpty => "--allow-empty"
  | verify => "--verify"
  | help => "--help"
  | version => "--version"

/-- An option of either kind. -/
inductive Switch where
  | value (o : ValueOption)
  | flag (f : Flag)
  deriving DecidableEq, Repr

namespace Switch

/-- The option of a long name. -/
def ofLong? (name : String) : Option Switch :=
  match name with
  | "config" => some (.value .config)
  | "output" => some (.value .output)
  | "from" => some (.value .source)
  | "wrap" => some (.flag .wrap)
  | "allow-empty" => some (.flag .allowEmpty)
  | "verify" => some (.flag .verify)
  | "help" => some (.flag .help)
  | "version" => some (.flag .version)
  | _ => none

/-- The option of a letter. -/
def ofShort? (c : Char) : Option Switch :=
  if c = 'C' then some (.value .config)
  else if c = 'o' then some (.value .output)
  else if c = 'h' then some (.flag .help)
  else if c = 'V' then some (.flag .version)
  else none

/-- The option is known behind a command, or in front of it. -/
def isKnown : Option CommandName → Switch → Bool
  | _, value .config | _, flag .help | _, flag .version => true
  | some .compile, _ => true
  | some .build, value .output | some .build, flag .verify => true
  | _, _ => false

end Switch

/-! ## What was read so far -/

/-- What the words on one side of the command have given. -/
structure Given where
  config : Option String := none
  source : Option String := none
  output : Option OutputFormat := none
  wrap : Bool := false
  allowEmpty : Bool := false
  verify : Bool := false
  /-- the positional words, the last first -/
  words : List String := []
  /-- an option whose value is the next word, with that word once it was read -/
  pending : Option (ValueOption × Option String) := none
  deriving DecidableEq, Repr

/-- The words are refused. -/
def refuse {α : Type} (fault : UsageFault) : Except Interruption α :=
  .error (.usage fault)

/-- The format of an option value. -/
def OutputFormat.ofWord? (word : String) : Option OutputFormat :=
  match word with
  | "text" => some .text
  | "json" => some .json
  | _ => none

namespace Given

/-- Take the value of an option. -/
def store (g : Given) (o : ValueOption) (v : String) : Except Interruption Given :=
  match o with
  | .config =>
    if g.config.isSome then refuse (.argumentConflict o.label)
    else if v = "" then refuse (.invalidValue o.label)
    else .ok { g with config := some v }
  | .source =>
    if g.source.isSome then refuse (.argumentConflict o.label)
    else if v = "" then refuse (.invalidValue o.label)
    else .ok { g with source := some v }
  | .output =>
    if g.output.isSome then refuse (.argumentConflict o.label)
    else
      match OutputFormat.ofWord? v with
      | some format => .ok { g with output := some format }
      | none => refuse (.invalidValue o.label)

/-- Take the value of the pending option. -/
def settle (g : Given) : Except Interruption Given :=
  match g.pending with
  | none => .ok g
  | some (o, none) => refuse (.invalidValue o.label)
  | some (o, some v) => { g with pending := none }.store o v

/-- The next word is the value of the pending option. -/
def isAwaiting (g : Given) : Bool :=
  match g.pending with
  | some (_, none) => true
  | _ => false

/-- The value of the pending option was read. -/
def answer (g : Given) (v : String) : Given :=
  { g with pending := g.pending.map fun (o, _) => (o, some v) }

/-- An option with its value in the same word. -/
def attach (g : Given) (o : ValueOption) (v : String) : Except Interruption Given :=
  match g.settle with
  | .ok g => g.store o v
  | .error i => .error i

/-- An option with its value in the next word. -/
def await (g : Given) (o : ValueOption) : Except Interruption Given :=
  match g.settle with
  | .ok g => .ok { g with pending := some (o, none) }
  | .error i => .error i

/-- A positional word. -/
def push (g : Given) (word : String) : Except Interruption Given :=
  match g.settle with
  | .ok g => .ok { g with words := word :: g.words }
  | .error i => .error i

/-- What a flag gives, unless it was given before. -/
def once (f : Flag) (before : Bool) (g : Given) : Except Interruption Given :=
  if before then refuse (.argumentConflict f.label) else .ok g

/-- A flag behind a command, or in front of it. -/
def raise (g : Given) (place : Option CommandName) (f : Flag) : Except Interruption Given :=
  match g.settle with
  | .error i => .error i
  | .ok g =>
    match f with
    | .help => .error (.help place)
    | .version => .error (.version place)
    | .wrap => once f g.wrap { g with wrap := true }
    | .allowEmpty => once f g.allowEmpty { g with allowEmpty := true }
    | .verify => once f g.verify { g with verify := true }

end Given

/-! ## Single words -/

/-- The kinds of words. -/
inductive Word where
  /-- all further words are positional -/
  | escape
  /-- a long name, with a value if the word has one -/
  | long (name : String) (value : Option String)
  /-- letters, with what follows them in the word -/
  | short (letters : List Char)
  | plain
  deriving DecidableEq, Repr

/-- The kind of a word.  A dash alone is a plain word. -/
def Word.ofString (word : String) : Word :=
  match word.toList with
  | ['-', '-'] => .escape
  | '-' :: '-' :: body =>
    let name := body.takeWhile (· ≠ '=')
    .long (String.ofList name) ((body.drop name.length).head?.map fun _ =>
      String.ofList (body.drop (name.length + 1)))
  | ['-'] => .plain
  | '-' :: letters => .short letters
  | _ => .plain

/-- A long name. -/
def readLong (place : Option CommandName) (g : Given) (name : String) (value : Option String) :
    Except Interruption Given :=
  match (Switch.ofLong? name).filter (Switch.isKnown place), value with
  | none, _ => refuse (.unknownArgument ("--" ++ name))
  | some (.value o), some v => g.attach o v
  | some (.value o), none => g.await o
  | some (.flag f), some _ => refuse (.tooManyValues f.label)
  | some (.flag f), none => g.raise place f

/-- Letters up to the first that takes a value: what follows that one is its value, with or without
an equals sign in front. -/
def readShort (place : Option CommandName) (g : Given) : List Char → Except Interruption Given
  | [] => .ok g
  | c :: rest =>
    match (Switch.ofShort? c).filter (Switch.isKnown place) with
    | none => refuse (.unknownArgument ("-" ++ c.toString))
    | some (.flag f) =>
      match g.raise place f with
      | .ok g => readShort place g rest
      | .error i => .error i
    | some (.value o) =>
      match rest with
      | [] => g.await o
      | '=' :: v => g.attach o (String.ofList v)
      | v => g.attach o (String.ofList v)

/-! ## Sequences of words -/

/-- The words behind a command; once they are `trailing`, all are positional. -/
def readArgs (name : CommandName) : Bool → List String → Given → Except Interruption Given
  | _, [], g => g.settle
  | true, word :: rest, g =>
    match g.push word with
    | .ok g => readArgs name true rest g
    | .error i => .error i
  | false, word :: rest, g =>
    match Word.ofString word with
    | .escape => readArgs name true rest g
    | .long long value =>
      match readLong (some name) g long value with
      | .ok g => readArgs name false rest g
      | .error i => .error i
    | .short letters =>
      match readShort (some name) g letters with
      | .ok g => readArgs name false rest g
      | .error i => .error i
    | .plain =>
      if g.isAwaiting then readArgs name false rest (g.answer word)
      else
        match g.push word with
        | .ok g => readArgs name false rest g
        | .error i => .error i

/-- The command that a word names. -/
def CommandName.ofWord? (word : String) : Option CommandName :=
  match word with
  | "compile" => some .compile
  | "build" => some .build
  | _ => none

/-- The words behind `help`. -/
def readHelp : List String → Interruption
  | [] => .help none
  | [word] =>
    match CommandName.ofWord? word with
    | some name => .help (some name)
    | none => if word = "help" then .help none else .usage (.invalidSubcommand word)
  | word :: next :: _ =>
    .usage (.invalidSubcommand
      (if (CommandName.ofWord? word).isSome || word == "help" then next else word))

/-- A word that is not the value of an option and stands in front of the command, behind `--` if the
words are `trailing`. -/
def unexpectedWord (trailing : Bool) (word : String) : UsageFault :=
  if trailing && ((CommandName.ofWord? word).isSome || word == "help") then .unknownArgument word
  else .invalidSubcommand word

/-- The words in front of the command: what they give, and the command with the words behind it. -/
def readTop : Bool → List String → Given →
    Except Interruption (Given × Option (CommandName × List String))
  | _, [], g => .ok (g, none)
  | true, word :: _, _ => refuse (unexpectedWord true word)
  | false, word :: rest, g =>
    match Word.ofString word with
    | .escape => readTop true rest g
    | .long long value =>
      match readLong none g long value with
      | .ok g => readTop false rest g
      | .error i => .error i
    | .short letters =>
      match readShort none g letters with
      | .ok g => readTop false rest g
      | .error i => .error i
    | .plain =>
      if g.isAwaiting then readTop false rest (g.answer word)
      else
        match CommandName.ofWord? word with
        | some name => .ok (g, some (name, rest))
        | none => if word = "help" then .error (readHelp rest) else refuse (unexpectedWord false word)

/-! ## Whole command lines -/

/-- The request that the words behind a command make. -/
def Given.command (g : Given) : CommandName → Command
  | .compile =>
    .compile {
      strings := g.words.reverse
      source := g.source
      wrap := g.wrap
      allowEmpty := g.allowEmpty
      verify := g.verify
      output := g.output.getD .text }
  | .build =>
    .build { names := g.words.reverse, verify := g.verify, output := g.output.getD .text }

/-- The configuration of the environment is empty, and the words do not replace it. -/
def Given.lacksConfig (g : Given) (environment : Option String) : Bool :=
  g.config.isNone && environment == some ""

/-- Read the words of a command line, with the configuration of the environment if there is one. -/
def CommandLine.parse (words : List String) (environment : Option String) :
    Except Interruption CommandLine :=
  match readTop false words {} with
  | .error i => .error i
  | .ok (top, none) =>
    match top.settle with
    | .error i => .error i
    | .ok top =>
      if top.lacksConfig environment then refuse (.invalidValue ValueOption.config.label)
      else .ok ⟨top.config <|> environment, none⟩
  | .ok (top, some (name, rest)) =>
    match readArgs name false rest {} with
    | .error i => .error i
    | .ok args =>
      if args.lacksConfig environment then refuse (.invalidValue ValueOption.config.label)
      else
        match top.settle with
        | .error i => .error i
        | .ok top =>
          if top.lacksConfig environment then refuse (.invalidValue ValueOption.config.label)
          else .ok ⟨args.config <|> top.config <|> environment, some (args.command name)⟩

end PrefixPattern
