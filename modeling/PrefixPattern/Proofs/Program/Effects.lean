import PrefixPattern.Proofs.Config.Reading
import PrefixPattern.Proofs.Pattern.Verification
import PrefixPattern.Program

/-!
# What the parts of a run do

Up to the moment when a command prints, all that its parts do is to remark on what happens: they log
events and warn about keys.  Each of them has its own errors, but one error that is provided for is
none of them: a compiled pattern is checked against the very strings that it was compiled from, and
it is found in all of them wherever it can be used at all.

## What is here

* `exists_of_readMembers_eq_error`, `exists_of_resolveConfig_eq_error` — what the errors of reading
  are, and which path they name.
* `Error.IsMiss` — a pattern missed some strings; `Pattern.verify_own_ne_missed` says that none
  misses its own.
* `Config.does_read`, `Config.does_load` — reading a configuration remarks on it, and its errors are
  about the path.
* `does_compileChecked`, `does_compileSets` — compiling logs events; the one lemma is carried from
  one set to the next.
* `does_compileStrings`, `does_buildSets` — all that a command does before it prints.
-/

set_option autoImplicit false

namespace PrefixPattern

open PrefixPattern.Action (Does)

/-! ## What reading ends with -/

section Reading

variable {files : Files} {path : String} {e : Error}

theorem Files.exists_of_read_eq_error (h : files.read path = .error e) :
    ∃ fault, e = .io path fault := by
  rw [read] at h
  split at h
  · cases h
  · exact ⟨_, (Except.error.inj h).symm⟩
  · exact ⟨_, (Except.error.inj h).symm⟩

theorem Files.exists_of_readText_eq_error (h : files.readText path = .error e) :
    ∃ fault, e = .io path fault := by
  rw [readText] at h
  split at h
  · rename_i hread
    obtain rfl := Except.error.inj h
    exact exists_of_read_eq_error hread
  · split at h
    · cases h
    · exact ⟨_, (Except.error.inj h).symm⟩

theorem eq_of_parseLines_eq_error {content : ByteArray} (h : parseLines content path = .error e) :
    e = .io path .invalidUtf8 := by
  rw [parseLines] at h
  split at h
  · cases h
  · exact (Except.error.inj h).symm

/-- A list of members that cannot be read is an error about its path. -/
theorem exists_of_readMembers_eq_error {stdin : ByteArray}
    (h : readMembers files stdin path = .error e) : ∃ fault, e = .io path fault := by
  rw [readMembers] at h
  split at h
  · exact ⟨_, eq_of_parseLines_eq_error h⟩
  · split at h
    · exact ⟨_, eq_of_parseLines_eq_error h⟩
    · rename_i hread
      obtain rfl := Except.error.inj h
      exact Files.exists_of_read_eq_error hread

theorem exists_of_gatherStrings_eq_error {stdin : ByteArray} {args : CompileArgs}
    (h : gatherStrings files stdin args = .error e) :
    ∃ source fault, args.source = some source ∧ e = .io source fault := by
  rw [gatherStrings] at h
  split at h
  · cases h
  · rename_i source hsource
    split at h
    · cases h
    · rename_i hread
      obtain rfl := Except.error.inj h
      obtain ⟨fault, rfl⟩ := exists_of_readMembers_eq_error hread
      exact ⟨source, fault, hsource, rfl⟩

/-- A search has no errors; only a path that was asked for can be missing. -/
theorem exists_of_resolveConfig_eq_error {requested : Option String} {directory : String}
    (h : resolveConfig files requested directory = .error e) :
    ∃ path, requested = some path ∧ e = .config (.fileNotFound path) (some path) := by
  unfold resolveConfig at h
  split at h
  · cases h
  · rename_i path
    split at h
    · cases h
    · exact ⟨path, rfl, (Except.error.inj h).symm⟩

end Reading

/-! ## No pattern misses its own strings -/

/-- The error is that a pattern missed some strings. -/
def Error.IsMiss : Error → Prop
  | verify _ => True
  | _ => False

/-- A compiled pattern that is checked against its own strings does not miss any of them. -/
theorem Pattern.verify_own_ne_missed {l : List String} {o : CompileOptions} {p : Pattern}
    (h : compile l o = .ok p) {e : Error} (he : verify p.fragment l = .error e) : ¬e.IsMiss := by
  have hnone : l.filter (· ∉ l) = [] := by simp
  rw [verify_eq h, hnone] at he
  split at he
  · cases he
  · obtain rfl := Except.error.inj he
    exact id

/-! ## Reading a configuration -/

namespace Config

/-- All that is wrong with a document is an error about the path. -/
theorem does_ofTable (path : String) (t : Toml.Table) :
    (ofTable path t).Does Effect.IsRemark fun e => ∃ fault, e = .config fault (some path) := by
  rw [ofTable_eq]
  split
  · exact Action.does_fail ⟨_, rfl⟩
  · refine ⟨fun e he => ?_, fun e he => by cases he⟩
    obtain ⟨w, -, hw⟩ := List.mem_flatMap.1 he
    exact Warning.isRemark_of_mem hw

/-- A text that holds no configuration is an error about its path. -/
theorem does_read (content path : String) :
    (read content path).Does Effect.IsRemark fun e => ∃ fault, e = .config fault (some path) := by
  rw [read]
  split
  · exact Action.does_fail ⟨_, rfl⟩
  · exact does_ofTable path _

/-- **Reading a configuration remarks on it.**  If it cannot be read, this is an error about its
path, and so it is if it can be read but is none. -/
theorem does_load (files : Files) (path : String) :
    (load files path).Does Effect.IsRemark fun e =>
      (∃ fault, e = .io path fault) ∨ ∃ fault, e = .config fault (some path) := by
  refine Does.bind (Action.does_ofExcept fun e he => ?_) fun content _ => ?_
  · exact .inl (Files.exists_of_readText_eq_error he)
  · exact (does_read content path).mono (fun _ h => h) fun _ h => .inr h

end Config

/-! ## Compiling -/

/-- **Compiling strings logs events**, and no check of them ends because the pattern missed some. -/
theorem does_compileChecked {strings : List String} {o : CompileOptions} {check : Bool}
    {blame : CompileError → Error} (h : ∀ e, ¬(blame e).IsMiss) :
    (compileChecked strings o check blame).Does Effect.IsEvent fun e => ¬e.IsMiss := by
  refine Does.bind (Action.does_ofExcept fun e he => ?_) fun p hp =>
    (Action.does_tell (Effect.isEvent_event _)).bind fun _ _ => Does.bind ?_ fun _ _ =>
      Action.does_pure p
  · obtain ⟨cause, -, rfl⟩ := mapError_eq_error_iff.1 he
    exact h cause
  · have hcompile := mapError_eq_ok_iff.1 hp
    rw [checkPattern]
    split
    · exact (Action.does_ofExcept fun e he => Pattern.verify_own_ne_missed hcompile he).bind
        fun _ _ => Action.does_tell (Effect.isEvent_event _)
    · exact Action.does_pure ()

/-- **So does compiling sets**, whichever of them is the first to fail. -/
theorem does_compileSets (path : String) (check : Bool) (sets : NameMap SetConfig) :
    (compileSets path check sets).Does Effect.IsEvent fun e => ¬e.IsMiss := by
  induction sets with
  | nil => exact Action.does_pure _
  | cons named rest ih =>
    obtain ⟨name, s⟩ := named
    exact (Action.does_tell (Effect.isEvent_event _)).bind fun _ _ =>
      (does_compileChecked fun e => id).bind fun p _ => ih.bind fun others _ => Action.does_pure _

theorem does_buildConfig (path : String) (config : Config) (args : BuildArgs) :
    (buildConfig path config args).Does Effect.IsEvent fun e => ¬e.IsMiss := by
  rw [buildConfig]
  split
  · exact Action.does_fail id
  · exact does_compileSets path args.verify _

/-- A path that is found is logged where it was looked for. -/
theorem findPath_eq {files : Files} {directory path : String} {requested : Option String}
    (h : resolveConfig files requested directory = .ok (some path)) :
    findPath files directory requested =
      ⟨(discoveryEvents requested (some path)).map fun e => .tell (.event e), .ok path⟩ := by
  have hevents : (discoveryEvents requested (some path)).forM (fun e => .tell (.event e)) =
      (⟨(discoveryEvents requested (some path)).map fun e => .tell (.event e), .ok ()⟩ :
        Action Unit) := by
    rw [List.map_eq_flatMap]
    exact Action.forM_eq _ fun _ _ => rfl
  rw [findPath, h]
  change (discoveryEvents requested (some path)).forM _ >>= _ = _
  rw [hevents, Action.mk_bind]
  exact congrArg (Action.mk · _) (List.append_nil _)

theorem does_findPath (files : Files) (directory : String) (requested : Option String) :
    (findPath files directory requested).Does Effect.IsEvent fun e => ¬e.IsMiss := by
  refine Does.bind (Action.does_ofExcept fun e he => ?_) fun found _ =>
    Does.bind (Action.does_forM fun _ _ => Action.does_tell (Effect.isEvent_event _)) fun _ _ => ?_
  · obtain ⟨path, -, rfl⟩ := exists_of_resolveConfig_eq_error he
    exact id
  · cases found with
    | none => exact Action.does_fail id
    | some path => exact Action.does_pure path

/-! ## Before anything is printed -/

/-- **A build remarks on what happens** until all its patterns are there. -/
theorem does_buildSets (files : Files) (directory : String) (requested : Option String)
    (args : BuildArgs) :
    (buildSets files directory requested args).Does Effect.IsRemark fun e => ¬e.IsMiss := by
  refine ((does_findPath files directory requested).mono (fun _ => .inl) fun _ h => h).bind
    fun path _ => (Action.does_tell (.inl (Effect.isEvent_event _))).bind fun _ _ =>
      ((Config.does_load files path).mono (fun _ h => h) ?_).bind fun config _ =>
        (does_buildConfig path config args).mono (fun _ => .inl) fun _ h => h
  rintro e (⟨fault, rfl⟩ | ⟨fault, rfl⟩)
  · exact id
  · exact id

/-- **So does compiling strings** until the pattern is there. -/
theorem does_compileStrings (files : Files) (stdin : ByteArray) (args : CompileArgs) :
    (compileStrings files stdin args).Does Effect.IsRemark fun e => ¬e.IsMiss := by
  refine Does.bind (Action.does_ofExcept fun e he => ?_) fun strings _ => ?_
  · obtain ⟨source, fault, -, rfl⟩ := exists_of_gatherStrings_eq_error he
    exact id
  · split
    · exact Action.does_fail id
    · exact (does_compileChecked fun e => id).mono (fun _ => .inl) fun _ h => h

end PrefixPattern
