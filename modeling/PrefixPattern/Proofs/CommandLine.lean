import Mathlib.Data.List.Nodup
import PrefixPattern.CommandLine.Parser

/-!
# Reading options as they are written

A command line can be written down as the command, its options, a `--`, and then everything else as
it is.  Read from left to right each option gives what was written, because an option that comes for
the first time sets its own field and leaves the others alone.

## What is here

* `readArgs_of_settle` — an option whose value was read might as well have been taken in already.
* `Written` — an option as it is written; `Written.put` is what it changes.
* `readArgs_written`, `readArgs_flatMap` — reading one option, and reading many.
* `readArgs_trailing` — behind `--` there are only positional words.
* `readArgs_options` — all words behind a command that are written this way.
* `CommandLine.parse_of_readArgs` — the words behind a command decide what is asked for.
-/

set_option autoImplicit false

namespace PrefixPattern

/-! ## Options that wait for the end of their value -/

section Settle

variable {g g' : Given} {place : Option CommandName} {name : CommandName}

theorem Given.pending_of_store {o : ValueOption} {v : String} (hp : g.pending = none)
    (h : g.store o v = .ok g') : g'.pending = none := by
  cases o <;>
    · simp only [store] at h
      split at h
      · cases h
      · split at h <;> cases h
        exact hp

theorem Given.pending_of_settle (h : g.settle = .ok g') : g'.pending = none := by
  rw [settle] at h
  split at h
  · rename_i hp
    cases h
    exact hp
  · cases h
  · exact pending_of_store rfl h

theorem Given.settle_of_pending (hp : g.pending = none) : g.settle = .ok g := by
  rw [settle, hp]

/-- Nothing is left to be taken in. -/
theorem Given.settle_settle (h : g.settle = .ok g') : g'.settle = .ok g' :=
  settle_of_pending (pending_of_settle h)

theorem Given.isAwaiting_of_settle (h : g.settle = .ok g') : g.isAwaiting = false := by
  rw [settle] at h
  rw [isAwaiting]
  split at h
  · rename_i hp
    rw [hp]
  · cases h
  · rename_i hp
    rw [hp]

theorem readLong_of_settle (h : g.settle = .ok g') (long : String) (value : Option String) :
    readLong place g long value = readLong place g' long value := by
  simp only [readLong, Given.attach, Given.await, Given.raise, h, Given.settle_settle h]

theorem readShort_of_settle (h : g.settle = .ok g') (c : Char) (rest : List Char) :
    readShort place g (c :: rest) = readShort place g' (c :: rest) := by
  simp only [readShort, Given.attach, Given.await, Given.raise, h, Given.settle_settle h]

/-- **An option whose value was read might as well have been taken in.** -/
theorem readArgs_of_settle (h : g.settle = .ok g') (trailing : Bool) (words : List String) :
    readArgs name trailing words g = readArgs name trailing words g' := by
  induction words generalizing trailing with
  | nil => rw [readArgs, readArgs, h, Given.settle_settle h]
  | cons word rest ih =>
    cases trailing with
    | true => simp only [readArgs, Given.push, h, Given.settle_settle h]
    | false =>
      rw [readArgs, readArgs]
      cases Word.ofString word with
      | escape => exact ih true
      | long long value => simp only [readLong_of_settle h]
      | short letters =>
        cases letters with
        | nil => exact ih false
        | cons c letters => simp only [readShort_of_settle h]
      | plain =>
        simp only [Given.isAwaiting_of_settle h, Given.isAwaiting_of_settle (Given.settle_settle h),
          Given.push, h, Given.settle_settle h, Bool.false_eq_true, if_false]

end Settle

/-! ## Options as they are written -/

/-- The word for a format. -/
def OutputFormat.word : OutputFormat → String
  | text => "text"
  | json => "json"

/-- An option as it is written, with its value. -/
inductive Written where
  | config (path : String)
  | source (path : String)
  | output (format : OutputFormat)
  | wrap
  | allowEmpty
  | verify
  deriving DecidableEq, Repr

namespace Written

/-- The words of an option. -/
def words : Written → List String
  | config path => ["--config=" ++ path]
  | source path => ["--from=" ++ path]
  | output format => ["-o", format.word]
  | wrap => ["--wrap"]
  | allowEmpty => ["--allow-empty"]
  | verify => ["--verify"]

/-- The option itself. -/
def switch : Written → Switch
  | config _ => .value .config
  | source _ => .value .source
  | output _ => .value .output
  | wrap => .flag .wrap
  | allowEmpty => .flag .allowEmpty
  | verify => .flag .verify

/-- The value of the option and what it is the value of, if the option takes one. -/
def value? : Written → Option (ValueOption × String)
  | config path => some (.config, path)
  | source path => some (.source, path)
  | output format => some (.output, format.word)
  | _ => none

/-- What the option gives. -/
def put (g : Given) : Written → Given
  | config path => { g with config := some path }
  | source path => { g with source := some path }
  | output format => { g with output := some format }
  | wrap => { g with wrap := true }
  | allowEmpty => { g with allowEmpty := true }
  | verify => { g with verify := true }

end Written

/-- The option was given before. -/
def Given.has (g : Given) : Switch → Bool
  | .value .config => g.config.isSome
  | .value .source => g.source.isSome
  | .value .output => g.output.isSome
  | .flag .wrap => g.wrap
  | .flag .allowEmpty => g.allowEmpty
  | .flag .verify => g.verify
  | .flag .help | .flag .version => false

/-- The option can be read: it is known here, was not given before, and has no empty value. -/
structure Written.Fits (w : Written) (place : Option CommandName) (g : Given) : Prop where
  isKnown : w.switch.isKnown place = true
  has : g.has w.switch = false
  value_ne : ∀ o, w.value? ≠ some (o, "")

section Reading

variable {g : Given} {name : CommandName} {place : Option CommandName} {w : Written}

@[simp] theorem Written.pending_put : (w.put g).pending = g.pending := by
  cases w <;> rfl

@[simp] theorem Written.words_put : (w.put g).words = g.words := by
  cases w <;> rfl

/-- An option that was put down is there, and no other is that was not there before. -/
theorem Given.has_put (o : Switch) : (w.put g).has o = (o = w.switch || g.has o) := by
  cases w <;> rcases o with ⟨_ | _ | _⟩ | ⟨_ | _ | _ | _ | _⟩ <;>
    simp [Written.put, Written.switch, has]

/-- An option that fits is taken in with its value. -/
theorem Written.store_eq (h : w.Fits place g) {o : ValueOption} {v : String}
    (hw : w.value? = some (o, v)) : g.store o v = .ok (w.put g) := by
  have hne : v ≠ "" := fun heq => h.value_ne o (heq ▸ hw)
  have hnone : ¬ g.has w.switch = true := Bool.eq_false_iff.1 h.has
  cases w <;> cases hw <;> simp only [Given.has, switch] at hnone <;> rw [Given.store, if_neg hnone]
  case config => rw [if_neg hne, put]
  case source => rw [if_neg hne, put]
  case output format => cases format <;> rfl

/-- A flag that fits is raised. -/
theorem Written.raise_eq (h : w.Fits place g) (hp : g.pending = none) {f : Flag}
    (hw : w.switch = .flag f) : g.raise place f = .ok (w.put g) := by
  obtain ⟨-, hhas, -⟩ := h
  cases w <;> cases hw <;>
    · simp only [Given.has, switch] at hhas
      simp [Given.raise, Given.settle_of_pending hp, Given.once, hhas, put]

/-- A long option and its value in one word. -/
theorem Word.ofString_long (long : String) (hne : long ≠ "") (hlong : '=' ∉ long.toList)
    (value : String) :
    Word.ofString ("--" ++ long ++ "=" ++ value) = .long long (some value) := by
  have htext : ("--" ++ long ++ "=" ++ value).toList =
      '-' :: '-' :: (long.toList ++ '=' :: value.toList) := by
    simp
  have hname : (long.toList ++ '=' :: value.toList).takeWhile (· ≠ '=') = long.toList := by
    rw [List.takeWhile_append_of_pos (fun c hc => by simpa using ne_of_mem_of_not_mem hc hlong)]
    simp
  obtain ⟨c, cs, hcs⟩ := List.exists_cons_of_ne_nil (mt String.toList_eq_nil_iff.1 hne)
  rw [ofString, htext]
  rw [hcs] at hname ⊢
  simp only [List.cons_append] at hname ⊢
  rw [hname, ← hcs, String.ofList_toList, ← List.cons_append, ← hcs]
  simp

/-- A long option with its value in the same word, behind a command or in front of it. -/
theorem readLong_value {long v : String} {o : ValueOption} (h : w.Fits place g)
    (hp : g.pending = none) (hlong : Switch.ofLong? long = some w.switch)
    (hswitch : w.switch = .value o) (hvalue : w.value? = some (o, v)) :
    readLong place g long (some v) = .ok (w.put g) := by
  have hknown := Option.filter_eq_some_iff.2 ⟨hlong, h.isKnown⟩
  rw [hswitch] at hknown
  simp only [readLong, hknown, Given.attach, Given.settle_of_pending hp, Written.store_eq h hvalue]

theorem readArgs_value {long v : String} {o : ValueOption} (h : w.Fits (some name) g)
    (hp : g.pending = none) {word : String} (hword : Word.ofString word = .long long (some v))
    (hlong : Switch.ofLong? long = some w.switch) (hswitch : w.switch = .value o)
    (hvalue : w.value? = some (o, v)) (rest : List String) :
    readArgs name false (word :: rest) g = readArgs name false rest (w.put g) := by
  rw [readArgs]
  simp only [hword, readLong_value h hp hlong hswitch hvalue]

/-- A flag. -/
theorem readArgs_flag {long : String} {f : Flag} (h : w.Fits (some name) g)
    (hp : g.pending = none) {word : String} (hword : Word.ofString word = .long long none)
    (hlong : Switch.ofLong? long = some w.switch) (hswitch : w.switch = .flag f)
    (rest : List String) :
    readArgs name false (word :: rest) g = readArgs name false rest (w.put g) := by
  have hread : readLong (some name) g long none = .ok (w.put g) := by
    have hknown := Option.filter_eq_some_iff.2 ⟨hlong, h.isKnown⟩
    rw [hswitch] at hknown
    simp only [readLong, hknown, Written.raise_eq h hp hswitch]
  rw [readArgs]
  simp only [hword, hread]

/-- A format in the word behind its option. -/
theorem readArgs_output {format : OutputFormat} (h : (Written.output format).Fits (some name) g)
    (hp : g.pending = none) (rest : List String) :
    readArgs name false ("-o" :: format.word :: rest) g =
      readArgs name false rest ((Written.output format).put g) := by
  have hshort : readShort (some name) g ['o'] = .ok { g with pending := some (.output, none) } := by
    have hletter : (Switch.ofShort? 'o').filter (Switch.isKnown (some name)) =
        some (.value .output) :=
      Option.filter_eq_some_iff.2 ⟨by decide, h.isKnown⟩
    simp only [readShort, hletter, Given.await, Given.settle_of_pending hp]
  have hplain : Word.ofString format.word = .plain := by cases format <;> decide
  have hanswer : Given.settle { g with pending := some (.output, some format.word) } =
      .ok ((Written.output format).put g) := by
    simp only [Given.settle, ← hp]
    exact Written.store_eq h rfl
  rw [← readArgs_of_settle hanswer, readArgs, show Word.ofString "-o" = .short ['o'] by decide]
  simp only [hshort]
  rw [readArgs, hplain]
  rfl

/-- **An option that is read gives what was written.** -/
theorem readArgs_written (h : w.Fits (some name) g) (hp : g.pending = none) (rest : List String) :
    readArgs name false (w.words ++ rest) g = readArgs name false rest (w.put g) := by
  cases w with
  | config path =>
    have hword := Word.ofString_long "config" (by decide) (by decide) path
    exact readArgs_value h hp hword rfl rfl rfl rest
  | source path =>
    have hword := Word.ofString_long "from" (by decide) (by decide) path
    exact readArgs_value h hp hword rfl rfl rfl rest
  | output format => exact readArgs_output h hp rest
  | wrap =>
    have hword : Word.ofString "--wrap" = .long "wrap" none := by decide
    exact readArgs_flag h hp hword rfl rfl rest
  | allowEmpty =>
    have hword : Word.ofString "--allow-empty" = .long "allow-empty" none := by decide
    exact readArgs_flag h hp hword rfl rfl rest
  | verify =>
    have hword : Word.ofString "--verify" = .long "verify" none := by decide
    exact readArgs_flag h hp hword rfl rfl rest

/-- **Options that differ from each other are read one after the other.** -/
theorem readArgs_flatMap {options : List Written} (hnodup : (options.map Written.switch).Nodup)
    (h : ∀ w ∈ options, w.Fits (some name) g) (hp : g.pending = none) (rest : List String) :
    readArgs name false (options.flatMap Written.words ++ rest) g =
      readArgs name false rest (options.foldl Written.put g) := by
  induction options generalizing g with
  | nil => rfl
  | cons w options ih =>
    obtain ⟨hw, hnodup⟩ := List.nodup_cons.1 hnodup
    obtain ⟨hfits, hrest⟩ := List.forall_mem_cons.1 h
    have hnext : ∀ w' ∈ options, w'.Fits (some name) (w.put g) := by
      intro w' hw'
      have hne : w'.switch ≠ w.switch := ne_of_mem_of_not_mem (List.mem_map_of_mem hw') hw
      refine { hrest w' hw' with has := ?_ }
      rw [Given.has_put, (hrest w' hw').has, decide_eq_false hne, Bool.or_false]
    rw [List.flatMap_cons, List.append_assoc, readArgs_written hfits hp,
      ih hnodup hnext (Written.pending_put.trans hp), List.foldl_cons]

/-- **Behind `--` all words are positional**, whatever they look like. -/
theorem readArgs_trailing (hp : g.pending = none) (words : List String) :
    readArgs name true words g = .ok { g with words := words.reverse ++ g.words } := by
  induction words generalizing g with
  | nil => exact Given.settle_of_pending hp
  | cons word words ih =>
    simp only [readArgs, Given.push, Given.settle_of_pending hp]
    have hnext := ih (g := { g with words := word :: g.words }) hp
    rw [hnext, List.reverse_cons, List.append_assoc, List.singleton_append]

/-- Options neither add words nor leave anything pending. -/
theorem Written.foldl_put (options : List Written) :
    (options.foldl put g).pending = g.pending ∧ (options.foldl put g).words = g.words := by
  induction options generalizing g with
  | nil => exact ⟨rfl, rfl⟩
  | cons w options ih =>
    obtain ⟨hpending, hwords⟩ := ih (g := w.put g)
    exact ⟨hpending.trans pending_put, hwords.trans words_put⟩

end Reading

theorem Given.has_empty (o : Switch) : Given.has {} o = false := by
  rcases o with ⟨_ | _ | _⟩ | ⟨_ | _ | _ | _ | _⟩ <;> rfl

/-- In the beginning an option that is known here fits, unless its path is empty. -/
theorem Written.fits_empty {place : Option CommandName} {w : Written}
    (hknown : w.switch.isKnown place = true) (hconfig : w ≠ .config "") (hsource : w ≠ .source "") :
    w.Fits place {} := by
  refine ⟨hknown, Given.has_empty _, fun o hvalue => ?_⟩
  cases w with
  | config path =>
    cases hvalue
    exact hconfig rfl
  | source path =>
    cases hvalue
    exact hsource rfl
  | output format => cases format <;> simp [value?, OutputFormat.word] at hvalue
  | wrap | allowEmpty | verify => cases hvalue

/-! ## Whole command lines -/

/-- The words behind a command decide what it is, unless the environment has an empty
configuration.  Words that give another one do not help against that. -/
theorem CommandLine.parse_of_readArgs {name : CommandName} {words : List String} {g : Given}
    (h : readArgs name false words {} = .ok g) (environment : Option String) :
    parse (name.word :: words) environment =
      if environment = some "" then refuse (.invalidValue ValueOption.config.label)
      else .ok ⟨g.config <|> environment, some (g.command name)⟩ := by
  have htop : readTop false (name.word :: words) {} = .ok ({}, some (name, words)) := by
    cases name <;> rfl
  rw [parse, htop]
  simp only [h]
  by_cases hempty : environment = some ""
  · subst hempty
    rw [if_pos rfl]
    split <;> rfl
  · have hlacks : ∀ g : Given, g.lacksConfig environment = false := by
      intro g
      rw [Given.lacksConfig, beq_false_of_ne hempty, Bool.and_false]
    have hsettle : Given.settle {} = .ok {} := rfl
    rw [if_neg hempty, hlacks]
    simp only [hsettle, hlacks]
    rfl

/-- A command with its options, and behind a `--` everything else as it is. -/
def CommandLine.written (name : CommandName) (options : List Written) (words : List String) :
    List String :=
  name.word :: (options.flatMap Written.words ++ "--" :: words)

/-- Options that differ from each other, and behind a `--` everything else as it is. -/
theorem readArgs_options {name : CommandName} {options : List Written}
    (hnodup : (options.map Written.switch).Nodup) (h : ∀ w ∈ options, w.Fits (some name) {})
    (words : List String) :
    readArgs name false (options.flatMap Written.words ++ "--" :: words) {} =
      .ok { options.foldl Written.put {} with words := words.reverse } := by
  obtain ⟨hpending, hwords⟩ := Written.foldl_put (g := {}) options
  rw [readArgs_flatMap hnodup h rfl, readArgs, show Word.ofString "--" = .escape by decide]
  simp only
  rw [readArgs_trailing hpending, hwords, List.append_nil]

end PrefixPattern
