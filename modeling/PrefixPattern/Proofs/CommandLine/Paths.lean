import PrefixPattern.CommandLine.Parser

/-!
# No command line has an empty path

The configuration and the file with more strings are given as paths, and an empty path is refused
wherever it comes from.

## What is here

* `Given.NoEmptyPath` — nothing that was read is an empty path.  Every step keeps this: taking in a
  value (`store`, `settle`), reading one word (`readLong`, `readShort`, `push`), and with them whole
  runs of the two readers (`noEmptyPath_of_readArgs`, `noEmptyPath_of_readTop`).
* `CommandLine.noEmptyPath_of_parse` — so it is true of all that is read.
-/

set_option autoImplicit false

namespace PrefixPattern

/-- None of the paths is empty. -/
structure Given.NoEmptyPath (g : Given) : Prop where
  config : g.config ≠ some ""
  source : g.source ≠ some ""

section NoEmptyPath

variable {g g' : Given} {place : Option CommandName} {name : CommandName}

namespace Given.NoEmptyPath

theorem store (hg : g.NoEmptyPath) {o : ValueOption} {v : String} (h : g.store o v = .ok g') :
    g'.NoEmptyPath := by
  cases o <;> simp only [Given.store] at h <;> split at h
  case config.isFalse =>
    split at h
    · cases h
    · rename_i hv
      cases h
      exact { hg with config := by simpa using hv }
  case source.isFalse =>
    split at h
    · cases h
    · rename_i hv
      cases h
      exact { hg with source := by simpa using hv }
  case output.isFalse =>
    split at h <;> cases h
    exact { hg with }
  all_goals cases h

theorem settle (hg : g.NoEmptyPath) (h : g.settle = .ok g') : g'.NoEmptyPath := by
  rw [Given.settle] at h
  split at h
  · cases h
    exact hg
  · cases h
  · have hnext : Given.NoEmptyPath { g with pending := none } := { hg with }
    exact hnext.store h

theorem attach (hg : g.NoEmptyPath) {o : ValueOption} {v : String} (h : g.attach o v = .ok g') :
    g'.NoEmptyPath := by
  rw [Given.attach] at h
  split at h
  · rename_i hsettle
    exact (hg.settle hsettle).store h
  · cases h

theorem await (hg : g.NoEmptyPath) {o : ValueOption} (h : g.await o = .ok g') :
    g'.NoEmptyPath := by
  rw [Given.await] at h
  split at h <;> cases h
  rename_i hsettle
  exact { hg.settle hsettle with }

theorem push (hg : g.NoEmptyPath) {word : String} (h : g.push word = .ok g') :
    g'.NoEmptyPath := by
  rw [Given.push] at h
  split at h <;> cases h
  rename_i hsettle
  exact { hg.settle hsettle with }

theorem raise (hg : g.NoEmptyPath) {f : Flag} (h : g.raise place f = .ok g') :
    g'.NoEmptyPath := by
  rw [Given.raise] at h
  split at h
  · cases h
  · rename_i hsettle
    have hnext := hg.settle hsettle
    cases f <;> simp only [Given.once] at h
    case help | version => cases h
    all_goals
      split at h <;> cases h
      exact { hnext with }

theorem readLong (hg : g.NoEmptyPath) {long : String} {value : Option String}
    (h : readLong place g long value = .ok g') : g'.NoEmptyPath := by
  rw [readLong.eq_def] at h
  split at h
  · cases h
  · exact hg.attach h
  · exact hg.await h
  · cases h
  · exact hg.raise h

theorem readShort {letters : List Char} (hg : g.NoEmptyPath)
    (h : readShort place g letters = .ok g') : g'.NoEmptyPath := by
  induction letters generalizing g with
  | nil =>
    cases h
    exact hg
  | cons c rest ih =>
    rw [PrefixPattern.readShort] at h
    split at h
    · cases h
    · split at h
      · rename_i hraise
        exact ih (hg.raise hraise) h
      · cases h
    · split at h
      · exact hg.await h
      · exact hg.attach h
      · exact hg.attach h

end Given.NoEmptyPath

/-- **No reading behind a command ends with an empty path.** -/
theorem noEmptyPath_of_readArgs {words : List String} {trailing : Bool} (hg : g.NoEmptyPath)
    (h : readArgs name trailing words g = .ok g') : g'.NoEmptyPath := by
  induction words generalizing g trailing with
  | nil =>
    rw [readArgs] at h
    exact hg.settle h
  | cons word rest ih =>
    cases trailing with
    | true =>
      rw [readArgs] at h
      split at h
      · rename_i hpush
        exact ih (hg.push hpush) h
      · cases h
    | false =>
      rw [readArgs] at h
      split at h
      · exact ih hg h
      · split at h
        · rename_i hlong
          exact ih (hg.readLong hlong) h
        · cases h
      · split at h
        · rename_i hshort
          exact ih (hg.readShort hshort) h
        · cases h
      · split at h
        · have hnext : Given.NoEmptyPath (g.answer word) := { hg with }
          exact ih hnext h
        · split at h
          · rename_i hpush
            exact ih (hg.push hpush) h
          · cases h

/-- **Nor does reading in front of it.** -/
theorem noEmptyPath_of_readTop {words : List String} {trailing : Bool}
    {found : Option (CommandName × List String)} (hg : g.NoEmptyPath)
    (h : readTop trailing words g = .ok (g', found)) : g'.NoEmptyPath := by
  induction words generalizing g trailing with
  | nil =>
    rw [readTop] at h
    cases h
    exact hg
  | cons word rest ih =>
    cases trailing with
    | true => cases h
    | false =>
      rw [readTop] at h
      split at h
      · exact ih hg h
      · split at h
        · rename_i hlong
          exact ih (hg.readLong hlong) h
        · cases h
      · split at h
        · rename_i hshort
          exact ih (hg.readShort hshort) h
        · cases h
      · split at h
        · have hnext : Given.NoEmptyPath (g.answer word) := { hg with }
          exact ih hnext h
        · split at h
          · cases h
            exact hg
          · split at h <;> cases h

end NoEmptyPath

/-- The file with more strings, if the command has one. -/
def Command.source : Command → Option String
  | compile a => a.source
  | build _ => none

theorem Given.NoEmptyPath.orElse {g : Given} (hg : g.NoEmptyPath) {other : Option String}
    (hother : g.config = none → other ≠ some "") : (g.config <|> other) ≠ some "" := by
  cases hconfig : g.config with
  | none => exact hother hconfig
  | some path =>
    have hpath := hg.config
    rwa [hconfig] at hpath

theorem Given.NoEmptyPath.source_command {g : Given} (hg : g.NoEmptyPath) (name : CommandName) :
    (g.command name).source ≠ some "" := by
  cases name with
  | compile => exact hg.source
  | build => simp [Given.command, Command.source]

/-- An empty configuration in the environment is refused, unless it is replaced. -/
theorem Given.ne_of_lacksConfig {g : Given} {environment : Option String}
    (h : ¬ g.lacksConfig environment = true) (hconfig : g.config = none) :
    environment ≠ some "" := by
  rintro rfl
  exact h (by simp [lacksConfig, hconfig])

/-- **A command line that is read has no empty path**, whatever the environment is. -/
theorem CommandLine.noEmptyPath_of_parse {words : List String} {environment : Option String}
    {l : CommandLine} (h : parse words environment = .ok l) :
    l.config ≠ some "" ∧ ∀ c ∈ l.command, c.source ≠ some "" := by
  have hempty : Given.NoEmptyPath {} := ⟨by simp, by simp⟩
  rw [parse] at h
  split at h
  · cases h
  · rename_i top htop
    split at h
    · cases h
    · rename_i top' hsettle
      split at h <;> cases h
      rename_i hlacks
      have hg := (noEmptyPath_of_readTop hempty htop).settle hsettle
      exact ⟨hg.orElse (Given.ne_of_lacksConfig hlacks), by simp⟩
  · rename_i top name rest htop
    split at h
    · cases h
    · rename_i args hargs
      split at h
      · cases h
      · split at h
        · cases h
        · rename_i top' hsettle
          split at h <;> cases h
          rename_i hlacks
          have hg := (noEmptyPath_of_readTop hempty htop).settle hsettle
          have hargs' := noEmptyPath_of_readArgs hempty hargs
          refine ⟨hargs'.orElse fun _ => hg.orElse (Given.ne_of_lacksConfig hlacks), ?_⟩
          rintro c ⟨⟩
          exact hargs'.source_command name

end PrefixPattern
