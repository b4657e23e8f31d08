import PrefixPattern.Proofs.CommandLine
import PrefixPattern.Proofs.CommandLine.Paths

/-!
# All requests, however they are written

There are many ways to write a request as a command line: the options can come in any order, and the
configuration can be given in front of the command as well as behind it.  The request is read back
from each of them.  The only requests that cannot be written are those with an empty path, and these
do not come out of any other words either.

## What is here

* `Written.foldl_put_eq_of_perm` — options can be taken in in any order.
* `Command.options`, `CommandLine.options` — the options of a request, in one order;
  `CommandLine.foldl_put_options` says that they tell all of it but the positional words.
* `CompileArgs.parse_words`, `BuildArgs.parse_words` — requests in their usual form.
* `CommandLine.IsWritten` — the words that are a way to write a request.
* `CommandLine.parse_isWritten_iff` — which requests are read back, and that there are no others.
-/

set_option autoImplicit false

namespace PrefixPattern

/-! ## Options in any order -/

namespace Written

/-- Different options set different fields. -/
theorem put_put_comm {v w : Written} (h : v.switch ≠ w.switch) (g : Given) :
    w.put (v.put g) = v.put (w.put g) := by
  cases v <;> cases w <;> first | rfl | exact absurd rfl h

/-- **The order of the options does not matter**, if no option comes twice. -/
theorem foldl_put_eq_of_perm {options more : List Written} (h : options.Perm more)
    (hnodup : (options.map switch).Nodup) (g : Given) :
    options.foldl put g = more.foldl put g := by
  refine h.foldl_eq' (fun v hv w hw g => ?_) g
  by_cases hvw : v = w
  · rw [hvw]
  · exact put_put_comm (fun heq => hvw (List.inj_on_of_nodup_map hnodup hv hw heq)) g

end Written

/-! ## The options of a request -/

/-- The option for a format, if it is not the one that is used anyway. -/
def OutputFormat.written : OutputFormat → List Written
  | text => []
  | json => [.output .json]

/-- The options of a request to compile strings. -/
def CompileArgs.written (a : CompileArgs) : List Written :=
  a.source.toList.map .source ++ (if a.wrap then [.wrap] else []) ++
    (if a.allowEmpty then [.allowEmpty] else []) ++ (if a.verify then [.verify] else []) ++
    a.output.written

/-- The options of a request to compile sets. -/
def BuildArgs.written (a : BuildArgs) : List Written :=
  (if a.verify then [.verify] else []) ++ a.output.written

/-- The words of a request to compile strings. -/
def CompileArgs.words (a : CompileArgs) : List String :=
  CommandLine.written .compile a.written a.strings

/-- The words of a request to compile sets. -/
def BuildArgs.words (a : BuildArgs) : List String :=
  CommandLine.written .build a.written a.names

/-- The options for a format.  In brief, the format that is used anyway is left out. -/
def OutputFormat.options (brief : Bool) (format : OutputFormat) : List Written :=
  if brief then format.written else [.output format]

@[simp] theorem OutputFormat.mem_options {brief : Bool} {format : OutputFormat} {w : Written} :
    w ∈ format.options brief ↔ w = .output format ∧ (brief = true → format = .json) := by
  cases brief <;> cases format <;> simp [options, written]

namespace Command

/-- The name of the command. -/
def name : Command → CommandName
  | compile _ => .compile
  | build _ => .build

/-- The positional words of the command. -/
def positional : Command → List String
  | compile a => a.strings
  | build a => a.names

/-- The options of the command, in one order. -/
def options (brief : Bool) : Command → List Written
  | compile a =>
    a.source.toList.map .source ++ (if a.wrap then [.wrap] else []) ++
      (if a.allowEmpty then [.allowEmpty] else []) ++ (if a.verify then [.verify] else []) ++
      a.output.options brief
  | build a => (if a.verify then [.verify] else []) ++ a.output.options brief

end Command

/-- The options of a request, that for its configuration included. -/
def CommandLine.options (brief : Bool) (config : Option String) (c : Command) : List Written :=
  config.toList.map .config ++ c.options brief

namespace CommandLine

variable {brief : Bool} {config : Option String} {c : Command} {given : List Written}

theorem sublist_path (path : Option String) {option : String → Written} {o : Switch}
    (h : ∀ p, (option p).switch = o) :
    ((path.toList.map option).map Written.switch).Sublist [o] := by
  cases path <;> simp [h]

theorem sublist_flag (b : Bool) (w : Written) :
    ((if b then [w] else []).map Written.switch).Sublist [w.switch] := by
  cases b <;> simp

theorem sublist_output (brief : Bool) (format : OutputFormat) :
    ((format.options brief).map Written.switch).Sublist [.value .output] := by
  cases brief <;> cases format <;> decide

/-- No option of a request comes twice. -/
theorem nodup_switch_options (brief : Bool) (config : Option String) (c : Command) :
    ((options brief config c).map Written.switch).Nodup := by
  have hconfig :=
    sublist_path config (show ∀ p, (Written.config p).switch = .value .config from fun _ => rfl)
  cases c with
  | compile a =>
    have hsource :=
      sublist_path a.source (show ∀ p, (Written.source p).switch = .value .source from fun _ => rfl)
    have hparts := hconfig.append ((((hsource.append (sublist_flag a.wrap .wrap)).append
      (sublist_flag a.allowEmpty .allowEmpty)).append (sublist_flag a.verify .verify)).append
      (sublist_output brief a.output))
    simp only [← List.map_append] at hparts
    exact hparts.nodup (by decide)
  | build a =>
    have hparts := hconfig.append ((sublist_flag a.verify .verify).append
      (sublist_output brief a.output))
    simp only [← List.map_append] at hparts
    exact hparts.nodup (by decide)

/-- An option of a request fits behind its command. -/
theorem fits_of_mem_options (hconfig : config ≠ some "") (hsource : c.source ≠ some "") :
    ∀ w ∈ options brief config c, w.Fits (some c.name) {} := by
  intro w hw
  rw [options] at hw
  cases c with
  | compile a =>
    refine Written.fits_empty (by cases w <;> rfl) ?_ ?_ <;> rintro rfl
    · exact hconfig (by simpa [Command.options] using hw)
    · exact hsource (by simpa [Command.options, Command.source] using hw)
  | build a =>
    refine Written.fits_empty ?_ ?_ ?_
    · cases w <;> first | rfl | simp [Command.options] at hw
    · rintro rfl
      exact hconfig (by simpa [Command.options] using hw)
    · rintro rfl
      simp [Command.options] at hw

/-- The options of a request tell all of it but the positional words. -/
theorem foldl_put_options (brief : Bool) (config : Option String) (c : Command) :
    let g : Given :=
      { (options brief config c).foldl Written.put {} with words := c.positional.reverse }
    g.config = config ∧ g.command c.name = c := by
  rcases c with ⟨strings, source, wrap, allowEmpty, verify, output⟩ | ⟨names, verify, output⟩
  · cases config <;> cases source <;> cases wrap <;> cases allowEmpty <;> cases verify <;>
      cases brief <;> cases output <;>
      simp [options, Command.options, OutputFormat.options, OutputFormat.written, Written.put,
        Given.command, Command.name, Command.positional]
  · cases config <;> cases verify <;> cases brief <;> cases output <;>
      simp [options, Command.options, OutputFormat.options, OutputFormat.written, Written.put,
        Given.command, Command.name, Command.positional]

/-- What is read behind the command of a request, with the options in any order. -/
theorem exists_readArgs_options (h : given.Perm (options brief config c))
    (hconfig : config ≠ some "") (hsource : c.source ≠ some "") :
    ∃ g, readArgs c.name false (given.flatMap Written.words ++ "--" :: c.positional) {} = .ok g ∧
      g.config = config ∧ g.command c.name = c := by
  have hnodup : (given.map Written.switch).Nodup :=
    (h.map _).nodup_iff.2 (nodup_switch_options brief config c)
  have hfits : ∀ w ∈ given, w.Fits (some c.name) {} := fun w hw =>
    fits_of_mem_options hconfig hsource w (h.subset hw)
  refine ⟨_, readArgs_options hnodup hfits c.positional, ?_⟩
  rw [Written.foldl_put_eq_of_perm h hnodup]
  exact foldl_put_options brief config c

/-! ## Requests as they are written -/

/-- **A request is read as it is written**, with its options behind the command. -/
theorem parse_written (h : given.Perm (options brief config c)) (hconfig : config ≠ some "")
    (hsource : c.source ≠ some "") (environment : Option String) :
    parse (written c.name given c.positional) environment =
      if environment = some "" then refuse (.invalidValue ValueOption.config.label)
      else .ok ⟨config <|> environment, some c⟩ := by
  obtain ⟨g, hread, rfl, hcommand⟩ := exists_readArgs_options h hconfig hsource
  rw [written, parse_of_readArgs hread, hcommand]

/-- A configuration in front of the command is used if there is none behind it. -/
theorem parse_inFront {name : CommandName} {words : List String} {g : Given} {path : String}
    (hpath : path ≠ "") (h : readArgs name false words {} = .ok g) :
    parse ((Written.config path).words ++ name.word :: words) none =
      .ok ⟨g.config <|> some path, some (g.command name)⟩ := by
  have hfits : (Written.config path).Fits none {} :=
    Written.fits_empty rfl (fun heq => hpath (Written.config.inj heq)) (by simp)
  have hword : Word.ofString ("--config=" ++ path) = .long "config" (some path) :=
    Word.ofString_long "config" (by decide) (by decide) path
  have hread : readLong none {} "config" (some path) = .ok { config := some path } :=
    readLong_value hfits rfl rfl rfl rfl
  have htop : readTop false ((Written.config path).words ++ name.word :: words) {} =
      .ok ({ config := some path }, some (name, words)) := by
    rw [Written.words, List.singleton_append, readTop]
    simp only [hword, hread]
    cases name <;> rfl
  have hlacks : ∀ g : Given, g.lacksConfig none = false := fun g => Bool.and_false _
  rw [parse, htop]
  simp only [h, hlacks, Given.settle]
  simp

end CommandLine

/-- **A request to compile strings is read back.** -/
theorem CompileArgs.parse_words {a : CompileArgs} (h : a.source ≠ some "")
    (environment : Option String) :
    CommandLine.parse a.words environment =
      if environment = some "" then refuse (.invalidValue ValueOption.config.label)
      else .ok ⟨environment, some (.compile a)⟩ := by
  have hgiven : a.written.Perm (CommandLine.options true none (.compile a)) := List.Perm.refl _
  exact CommandLine.parse_written hgiven (by simp) h environment

/-- **A request to compile sets is read back.** -/
theorem BuildArgs.parse_words (a : BuildArgs) (environment : Option String) :
    CommandLine.parse a.words environment =
      if environment = some "" then refuse (.invalidValue ValueOption.config.label)
      else .ok ⟨environment, some (.build a)⟩ := by
  have hgiven : a.written.Perm (CommandLine.options true none (.build a)) := List.Perm.refl _
  exact CommandLine.parse_written hgiven (by simp) (by simp [Command.source]) environment

namespace CommandLine

/-- The words are a way to write a request: the command, its options in any order, a `--`, and the
positional words.  The configuration may also stand in front of the command, and the format that is
used anyway may be left out. -/
inductive IsWritten : CommandLine → List String → Prop
  | behind {brief : Bool} {config : Option String} {c : Command} {given : List Written}
      (h : given.Perm (options brief config c)) :
      IsWritten ⟨config, some c⟩ (written c.name given c.positional)
  | inFront {brief : Bool} {path : String} {c : Command} {given : List Written}
      (h : given.Perm (c.options brief)) :
      IsWritten ⟨some path, some c⟩
        ((Written.config path).words ++ written c.name given c.positional)

/-- **A request without an empty path is read back from all the words that are a way to write
it.** -/
theorem parse_of_isWritten {l : CommandLine} {words : List String} (h : l.IsWritten words)
    (hconfig : l.config ≠ some "") (hsource : ∀ c ∈ l.command, c.source ≠ some "") :
    parse words none = .ok l := by
  cases h with
  | @behind brief config c given h =>
    rw [parse_written h hconfig (hsource c rfl), if_neg (by simp)]
    cases config <;> rfl
  | @inFront brief path c given h =>
    have hnone : given.Perm (options brief none c) := h
    obtain ⟨g, hread, hg, hcommand⟩ := exists_readArgs_options hnone (by simp) (hsource c rfl)
    rw [written, parse_inFront (fun heq => hconfig (congrArg some heq)) hread, hcommand, hg]
    rfl

/-- **Every request can be written, in every one of its ways.**  Whatever the strings and values
look like, the words of a request are read back as exactly that request, in any order of its options
and with the configuration on either side of the command, if none of its paths is empty; and no
words at all are read as a request with an empty path. -/
theorem parse_isWritten_iff (config : Option String) (c : Command) :
    (∀ words, IsWritten ⟨config, some c⟩ words →
        (parse words none = .ok ⟨config, some c⟩ ↔ config ≠ some "" ∧ c.source ≠ some "")) ∧
      ((∃ words environment, parse words environment = .ok ⟨config, some c⟩) ↔
        config ≠ some "" ∧ c.source ≠ some "") := by
  have hpaths : ∀ {words environment}, parse words environment = .ok ⟨config, some c⟩ →
      config ≠ some "" ∧ c.source ≠ some "" := by
    intro words environment h
    obtain ⟨hconfig, hsource⟩ := noEmptyPath_of_parse h
    exact ⟨hconfig, hsource c rfl⟩
  have hparse : ∀ {words}, IsWritten ⟨config, some c⟩ words →
      config ≠ some "" ∧ c.source ≠ some "" → parse words none = .ok ⟨config, some c⟩ := by
    rintro words h ⟨hconfig, hsource⟩
    refine parse_of_isWritten h hconfig ?_
    rintro c ⟨⟩
    exact hsource
  refine ⟨fun words h => ⟨hpaths, hparse h⟩, ?_, fun h => ?_⟩
  · rintro ⟨words, environment, h⟩
    exact hpaths h
  · exact ⟨_, none, hparse (.behind (List.Perm.refl (options false config c))) h⟩

/-- Values and strings that look like options, commands and a second `--`. -/
theorem parse_isWritten_iff_disguised :
    let c : Command := .compile {
      strings := ["-h", "--", "help", "--wrap", ""]
      source := some "--verify"
      wrap := true
      verify := true
      output := .json }
    let words := ["--config=--", "compile", "-o", "json", "--verify", "--from=--verify", "--wrap",
      "--", "-h", "--", "help", "--wrap", ""]
    IsWritten ⟨some "--", some c⟩ words ∧ parse words none = .ok ⟨some "--", some c⟩ := by
  intro c words
  have hgiven : [.output .json, .verify, .source "--verify", .wrap].Perm (c.options false) := by
    decide
  have hwritten : IsWritten ⟨some "--", some c⟩ words := .inFront hgiven
  exact ⟨hwritten, ((parse_isWritten_iff (some "--") c).1 words hwritten).2 (by decide)⟩

end CommandLine
end PrefixPattern
